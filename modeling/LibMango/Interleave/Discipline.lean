import LibMango.Interleave.Chart
import LibMango.Interleave.Custody

namespace Interleave

section Settles

variable {Op Val P C ρ : Type} [Inhabited Val] [Zero Val]

/-- At every control point the chart says which register the thread has to write, and its
    steps are disciplined. -/
structure Chart.Settles (chart : Chart Op Val P C) (access : Op → Access ρ Val)
    (owes : P → Option ρ) : Prop where
  next : ∀ p answer, Custody.Disciplined (access (chart.op p)) answer (owes p)
    ((chart.next p answer).bind owes)
  enter : ∀ c, (chart.enter c).bind owes = none

end Settles

variable {ι Op Val σ ρ : Type} {Q D : ι → Type} [Inhabited Val] [Zero Val]

def Places.debt (owes : ∀ i, Q i → Option ρ) (w : Places Q D σ) (i : ι) : Option ρ :=
  (w.proc i).point.bind (owes i)

section Steps

variable [DecidableEq ι] {owes : ∀ i, Q i → Option ρ} {w : Places Q D σ} {i : ι}

theorem Places.debt_update (l : Place (Q i) (D i)) (shared : σ) :
    Places.debt (D := D) owes ⟨Function.update w.proc i l, shared⟩ =
      Function.update (Places.debt owes w) i (l.point.bind (owes i)) := by
  funext j
  by_cases same : j = i
  · subst same
    simp [debt]
  · simp [debt, same]

variable {charts : ∀ i, Chart Op Val (Q i) (D i)} {exec : ι → Op → σ → Val × σ}
  {regs : σ → Custody ι ρ Val} {access : Op → Access ρ Val} {combine : Val → Val → Val}

/-- A step of the system accesses the registers as one party does, within its discipline, or
    leaves registers and debts as they are. -/
theorem Places.step_debt (settles : ∀ i, (charts i).Settles access (owes i))
    (exec : ι → Op → σ → Val × σ) (w : Places Q D σ) (i : ι) :
    ((w.step (placeAct charts exec) i).shared = w.shared ∧
        Places.debt owes (w.step (placeAct charts exec) i) = Places.debt owes w) ∨
      ∃ a debt, (w.step (placeAct charts exec) i).shared = (exec i a w.shared).2 ∧
        Places.debt owes (w.step (placeAct charts exec) i) =
          Function.update (Places.debt owes w) i debt ∧
        Custody.Disciplined (access a) (exec i a w.shared).1 (Places.debt owes w i) debt := by
  rcases here : w.proc i with ⟨_ | p, calls⟩
  · left
    cases calls with
    | nil => rw [Places.step_finished here]; exact ⟨rfl, rfl⟩
    | cons first rest =>
      rw [Places.step_enter here, Places.debt_update]
      have free : Places.debt owes w i = none := by simp [debt, here]
      have entered := (settles i).enter first
      exact ⟨rfl, by rw [entered, ← free, Function.update_eq_self]⟩
  · right
    rw [Places.step_op here, Places.debt_update]
    have mine : Places.debt owes w i = owes i p := by simp [debt, here]
    exact ⟨_, _, rfl, rfl, mine ▸ (settles i).next p _⟩

variable [DecidableEq ρ] [DecidableEq Val]

structure Executes (exec : ι → Op → σ → Val × σ) (regs : σ → Custody ι ρ Val)
    (access : Op → Access ρ Val) (combine : Val → Val → Val) : Prop where
  accesses : ∀ i a s, regs (exec i a s).2 = (regs s).apply combine i (access a)
  answers : ∀ i a s e, access a = .take e → (exec i a s).1 = (regs s).value e

theorem sound_step (regs : σ → Custody ι ρ Val) (settles : ∀ i, (charts i).Settles access (owes i))
    (executes : Executes exec regs access combine) {w : Places Q D σ} (i : ι)
    (sound : Custody.Sound (Places.debt owes w) (regs w.shared)) :
    Custody.Sound (Places.debt owes (w.step (placeAct charts exec) i))
      (regs (w.step (placeAct charts exec) i).shared) := by
  rcases Places.step_debt settles exec w i with ⟨same, debts⟩ | ⟨a, debt, after, debts, disciplined⟩
  · rw [same, debts]
    exact sound
  · rw [after, debts, executes.accesses]
    exact sound.apply combine (access a) (executes.answers i a w.shared) disciplined

theorem sound_reachable (regs : σ → Custody ι ρ Val)
    (settles : ∀ i, (charts i).Settles access (owes i))
    (executes : Executes exec regs access combine) {init w : Places Q D σ}
    (start : Custody.Sound (Places.debt owes init) (regs init.shared))
    (reach : World.Reachable (placeAct charts exec) init w) :
    Custody.Sound (Places.debt owes w) (regs w.shared) :=
  reach.invariant (motive := fun w => Custody.Sound (Places.debt owes w) (regs w.shared))
    (fun _ i _ sound => sound_step regs settles executes i sound) start

theorem lost_step (regs : σ → Custody ι ρ Val) (settles : ∀ i, (charts i).Settles access (owes i))
    (executes : Executes exec regs access combine) {w : Places Q D σ} {e : ρ} (i : ι)
    (lost : Custody.Lost (Places.debt owes w) (regs w.shared) e) :
    Custody.Lost (Places.debt owes (w.step (placeAct charts exec) i))
      (regs (w.step (placeAct charts exec) i).shared) e := by
  rcases Places.step_debt settles exec w i with ⟨same, debts⟩ | ⟨a, debt, after, debts, disciplined⟩
  · rw [same, debts]
    exact lost
  · rw [after, debts, executes.accesses]
    exact lost.apply combine (access a) (executes.answers i a w.shared) disciplined

end Steps

end Interleave
