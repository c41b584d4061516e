import LibMango.Interleave.Prog
import Mathlib.Algebra.Order.Ring.Nat
import Mathlib.Data.List.Basic

namespace Interleave

/-- Parties with a local state each, over one shared state. -/
structure World {ι : Type} (L : ι → Type) (σ : Type) where
  proc : ∀ i, L i
  shared : σ

namespace World

variable {ι σ : Type} {L L' : ι → Type}

def map (view : ∀ i, L i → L' i) (w : World L σ) : World L' σ :=
  ⟨fun i => view i (w.proc i), w.shared⟩

@[simp] theorem map_proc (view : ∀ i, L i → L' i) (w : World L σ) (i : ι) :
    (w.map view).proc i = view i (w.proc i) := rfl

@[simp] theorem map_shared (view : ∀ i, L i → L' i) (w : World L σ) :
    (w.map view).shared = w.shared := rfl

variable [DecidableEq ι]

/-- Party `i` takes one atomic step; `act` says what a party's step does. -/
def step (act : ∀ i, L i → σ → L i × σ) (w : World L σ) (i : ι) : World L σ :=
  ⟨Function.update w.proc i (act i (w.proc i) w.shared).1, (act i (w.proc i) w.shared).2⟩

/-- The parties step in the order the schedule names them. -/
def run (act : ∀ i, L i → σ → L i × σ) (w : World L σ) (schedule : List ι) : World L σ :=
  schedule.foldl (step act) w

variable {act act' : ∀ i, L i → σ → L i × σ} {init w v : World L σ}

@[simp] theorem run_nil (act : ∀ i, L i → σ → L i × σ) (w : World L σ) : w.run act [] = w := rfl

@[simp] theorem run_cons (act : ∀ i, L i → σ → L i × σ) (w : World L σ) (i : ι) (rest : List ι) :
    w.run act (i :: rest) = (w.step act i).run act rest := rfl

theorem run_append (act : ∀ i, L i → σ → L i × σ) (w : World L σ) (first rest : List ι) :
    w.run act (first ++ rest) = (w.run act first).run act rest := List.foldl_append

@[simp] theorem step_shared (w : World L σ) (i : ι) :
    (w.step act i).shared = (act i (w.proc i) w.shared).2 := rfl

@[simp] theorem step_proc_self (w : World L σ) (i : ι) :
    (w.step act i).proc i = (act i (w.proc i) w.shared).1 := by
  simp [step]

theorem step_proc_other {i j : ι} (other : j ≠ i) (w : World L σ) :
    (w.step act i).proc j = w.proc j := by
  simp [step, other]

/-- `w` is the state after some run from `init`. -/
def Reachable (act : ∀ i, L i → σ → L i × σ) (init w : World L σ) : Prop :=
  ∃ schedule, w = init.run act schedule

theorem Reachable.refl (act : ∀ i, L i → σ → L i × σ) (init : World L σ) :
    Reachable act init init := ⟨[], rfl⟩

theorem Reachable.run (reach : Reachable act init w) (schedule : List ι) :
    Reachable act init (w.run act schedule) := by
  obtain ⟨first, rfl⟩ := reach
  exact ⟨first ++ schedule, (run_append act init first schedule).symm⟩

theorem Reachable.step (reach : Reachable act init w) (i : ι) :
    Reachable act init (w.step act i) := reach.run [i]

theorem Reachable.trans (first : Reachable act init w) (rest : Reachable act w v) :
    Reachable act init v := by
  obtain ⟨schedule, rfl⟩ := rest
  exact first.run schedule

/-- What every step keeps, every run keeps. -/
theorem invariant_run {motive : World L σ → Prop}
    (preserved : ∀ w i, motive w → motive (w.step act i)) (start : motive w) (schedule : List ι) :
    motive (w.run act schedule) := by
  induction schedule generalizing w with
  | nil => exact start
  | cons i rest ih => exact ih (preserved w i start)

theorem Reachable.invariant {motive : World L σ → Prop}
    (preserved : ∀ w i, Reachable act init w → motive w → motive (w.step act i)) (start : motive init)
    (reach : Reachable act init w) : motive w := by
  obtain ⟨schedule, rfl⟩ := reach
  have kept := invariant_run (motive := fun w => Reachable act init w ∧ motive w)
    (fun w i kept => ⟨kept.1.step i, preserved w i kept.1 kept.2⟩) ⟨.refl act init, start⟩ schedule
  exact kept.2

/-- If a smaller rank can be reached from wherever the goal is missed, the goal can be reached. -/
theorem reaches_of_rank (Rank : Nat → World L σ → Prop) (Goal : World L σ → Prop)
    (nearer : ∀ n w, Rank n w → ¬ Goal w → ∃ schedule, ∃ m < n, Rank m (w.run act schedule))
    {n : Nat} (start : Rank n w) : ∃ schedule, Goal (w.run act schedule) := by
  induction n using Nat.strongRecOn generalizing w with
  | ind n ih =>
    by_cases done : Goal w
    · exact ⟨[], done⟩
    · obtain ⟨first, m, smaller, rank⟩ := nearer n w start done
      obtain ⟨rest, goal⟩ := ih m smaller rank
      exact ⟨first ++ rest, by rwa [run_append]⟩

/-- Two meanings of a step that agree wherever the invariant holds run alike. -/
theorem run_congr {motive : World L σ → Prop}
    (preserved : ∀ w i, motive w → motive (w.step act i))
    (agree : ∀ w i, motive w → act i (w.proc i) w.shared = act' i (w.proc i) w.shared)
    (start : motive w) (schedule : List ι) : w.run act schedule = w.run act' schedule := by
  induction schedule generalizing w with
  | nil => rfl
  | cons i rest ih =>
    have same : w.step act i = w.step act' i := by simp only [step, agree w i start]
    rw [run_cons, run_cons, ← same]
    exact ih (preserved w i start)

section Refinement

variable {concrete : ∀ i, L' i → σ → L' i × σ} {view : ∀ i, L i → L' i}

/-- A view that commutes with the steps of every party refines whole runs. -/
theorem map_run (refines : ∀ i l s, concrete i (view i l) s = (view i (act i l s).1, (act i l s).2))
    (w : World L σ) (schedule : List ι) :
    (w.map view).run concrete schedule = (w.run act schedule).map view := by
  induction schedule generalizing w with
  | nil => rfl
  | cons i rest ih =>
    have one : (w.map view).step concrete i = (w.step act i).map view := by
      simp only [step, map, refines, mk.injEq, and_true]
      funext j
      by_cases same : j = i
      · subst same; simp
      · simp [same]
    rw [run_cons, run_cons, one, ih]

theorem Reachable.of_map
    (refines : ∀ i l s, concrete i (view i l) s = (view i (act i l s).1, (act i l s).2))
    {c : World L' σ} (reach : Reachable concrete (init.map view) c) :
    ∃ w, Reachable act init w ∧ c = w.map view := by
  obtain ⟨schedule, rfl⟩ := reach
  exact ⟨init.run act schedule, ⟨schedule, rfl⟩, map_run refines init schedule⟩

theorem Reachable.map
    (refines : ∀ i l s, concrete i (view i l) s = (view i (act i l s).1, (act i l s).2))
    (reach : Reachable act init w) : Reachable concrete (init.map view) (w.map view) := by
  obtain ⟨schedule, rfl⟩ := reach
  exact ⟨schedule, (map_run refines init schedule).symm⟩

end Refinement

end World

end Interleave
