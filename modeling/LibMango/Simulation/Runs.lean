import Mathlib.Data.Option.Basic

namespace Simulation

variable {σ τ μ ο : Type}

/-- A machine gives an answer to each command that it accepts. -/
abbrev Machine (σ μ ο : Type) : Type := σ → μ → Option (ο × σ)

namespace Machine

def run (step : Machine σ μ ο) (s : σ) : List μ → Option (List ο × σ)
  | [] => some ([], s)
  | command :: rest => do
    let (answer, s) ← step s command
    let (answers, s) ← run step s rest
    return (answer :: answers, s)

variable {step : Machine σ μ ο} {s s' : σ} {command : μ} {rest : List μ} {answers : List ο}

theorem run_cons (ran : step.run s (command :: rest) = some (answers, s')) :
    ∃ answer t later, step s command = some (answer, t) ∧ step.run t rest = some (later, s') ∧
      answers = answer :: later := by
  obtain ⟨⟨answer, t⟩, one, ran⟩ := Option.bind_eq_some_iff.mp ran
  obtain ⟨⟨later, last⟩, more, ran⟩ := Option.bind_eq_some_iff.mp ran
  cases ran
  exact ⟨answer, t, later, one, more, rfl⟩

/-- What the first machine accepts the second one accepts as well, with the same answer. -/
def Simulated (R : τ → σ → Prop) (spec : Machine τ μ ο) (step : Machine σ μ ο) : Prop :=
  ∀ a s command answer a', R a s → spec a command = some (answer, a') →
    ∃ s', step s command = some (answer, s') ∧ R a' s'

theorem Simulated.run {R : τ → σ → Prop} {spec : Machine τ μ ο} (simulated : Simulated R spec step)
    {a a' : τ} {commands : List μ} (related : R a s) (ran : spec.run a commands = some (answers, a')) :
    ∃ s', step.run s commands = some (answers, s') ∧ R a' s' := by
  induction commands generalizing a s answers with
  | nil =>
    cases ran
    exact ⟨s, rfl, related⟩
  | cons command rest ih =>
    obtain ⟨answer, b, later, one, more, rfl⟩ := run_cons ran
    obtain ⟨t, first, related'⟩ := simulated a s command answer b related one
    obtain ⟨s', others, last⟩ := ih related' more
    refine ⟨s', ?_, last⟩
    simp [Machine.run, first, others]

end Machine

end Simulation
