import Mathlib.Data.List.Basic

namespace Fallible

variable {ε α β : Type} {allowed : ε → Prop} {post : α → Prop}

/-- A computation ends with a result that meets `post`, or with an error that is allowed. -/
def Ends (allowed : ε → Prop) (post : α → Prop) : Except ε α → Prop
  | .ok a => post a
  | .error e => allowed e

theorem bind_ok {x : Except ε α} {f : α → Except ε β} {b : β} (run : x >>= f = .ok b) :
    ∃ a, x = .ok a ∧ f a = .ok b := by
  rcases x with e | a
  · cases run
  · exact ⟨a, rfl, run⟩

namespace Ends

variable {x : Except ε α}

theorem bind {after : β → Prop} {f : α → Except ε β} (first : Ends allowed post x)
    (rest : ∀ a, post a → Ends allowed after (f a)) : Ends allowed after (x >>= f) := by
  rcases x with e | a
  · exact first
  · exact rest a first

theorem weaken {after : α → Prop} (ends : Ends allowed post x) (weaker : ∀ a, post a → after a) :
    Ends allowed after x := by
  rcases x with e | a
  · exact ends
  · exact weaker a ends

theorem result {a : α} (ends : Ends allowed post x) (run : x = .ok a) : post a := by
  subst run
  exact ends

theorem failure {e : ε} (ends : Ends allowed post x) (run : x = .error e) : allowed e := by
  subst run
  exact ends

/-- What each step of a fold keeps holds at its end. -/
theorem foldlM {motive : α → Prop} {items : List β} {f : α → β → Except ε α} {a : α} (start : motive a)
    (step : ∀ item ∈ items, ∀ a, motive a → Ends allowed motive (f a item)) :
    Ends allowed motive (items.foldlM f a) := by
  induction items generalizing a with
  | nil => exact start
  | cons item rest ih =>
    obtain ⟨one, later⟩ := List.forall_mem_cons.mp step
    rw [List.foldlM_cons]
    exact (one a start).bind fun _ kept => ih kept later

end Ends

end Fallible
