import LibMango.Interleave.Beside
import LibMango.Interleave.Solo

namespace Interleave

variable {Op Val σ : Type}

namespace Prog

/-- Every loop of the program is at an operation, and the program ends with such a value. -/
def Formed (ends : Val → Prop) : Prog Op Val → Prop
  | .ret value => ends value
  | .op _ next => ∀ value, (next value).Formed ends
  | .iterate running body _ next => running.nextOp ≠ none ∧ running.Formed (fun _ => True) ∧
      (∀ value, (body value).nextOp ≠ none ∧ (body value).Formed fun _ => True) ∧
        ∀ value, (next value).Formed ends

variable {ends : Val → Prop} {p : Prog Op Val}

theorem Formed.ended (formed : p.Formed ends) (outside : p.nextOp = none) :
    ∃ value, p = .ret value ∧ ends value := by
  cases p with
  | ret value => exact ⟨value, rfl, formed⟩
  | op action next => cases outside
  | iterate running body again next => exact absurd outside formed.1

theorem Formed.step (formed : p.Formed ends) (exec : Op → σ → Val × σ) (shared : σ) :
    (p.step exec shared).1.Formed ends := by
  induction p generalizing ends with
  | ret value => exact formed
  | op action next _ => exact formed _
  | iterate running body again next ih _ _ =>
    obtain ⟨_, inner, bodies, rest⟩ := formed
    have stepped := ih inner
    rw [step_iterate]
    rcases now : (running.step exec shared).1 with value | ⟨action, later⟩ | ⟨deep, more, repeats, later⟩
    · dsimp only [resume]
      split
      · exact ⟨(bodies value).1, (bodies value).2, bodies, rest⟩
      · exact rest value
    · rw [now] at stepped
      exact ⟨by simp [nextOp], stepped, bodies, rest⟩
    · rw [now] at stepped
      exact ⟨stepped.1, stepped, bodies, rest⟩

end Prog

section Works

variable [Inhabited Val]

/-- A program that a thread can have as one of its calls. -/
structure Work (Op Val : Type) [Inhabited Val] where
  text : Prog Op Val
  formed : text.Formed (· = default)

/-- A program that has an operation to do. -/
structure Work.Running (Op Val : Type) [Inhabited Val] extends Work Op Val where
  busy : text.nextOp.isSome = true

namespace Work

def running (w : Work Op Val) : Option (Running Op Val) :=
  if busy : w.text.nextOp.isSome = true then some { w with busy } else none

def resumed (value : Val) (w : Work Op Val) : Work Op Val where
  text := w.text.resumed value
  formed := w.formed.step _ _

theorem running_text (w : Work Op Val) :
    w.running.elim (.ret default) (fun q => q.text) = w.text := by
  unfold running
  split
  · rfl
  · next idle =>
    obtain ⟨value, ended, same⟩ := w.formed.ended (by simpa using idle)
    rw [ended, same]
    rfl

end Work

/-- The control points of programs: what is left of them. -/
def workChart : Chart Op Val (Work.Running Op Val) (Work Op Val) where
  prog q := q.text
  op q := q.text.nextOp.get q.busy
  next q answer := (q.toWork.resumed answer).running
  code w := w.text
  enter := Work.running
  code_eq w := w.running_text.symm
  step_eq _ exec q shared := by
    rw [Prog.step_resumed (Option.some_get q.busy).symm]
    exact Prod.ext (q.toWork.resumed _).running_text.symm rfl
  nextOp_eq q := (Option.some_get q.busy).symm

end Works

end Interleave
