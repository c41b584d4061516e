import Mathlib.Logic.Function.Basic

namespace Layout

/-- Arrays that lie in one memory: of each its length, and the cell of each of its elements. -/
structure Windows (ι α : Type) where
  size : ι → Nat
  cell : ι → Nat → α

namespace Windows

variable {ι α β : Type} (w : Windows ι α)

/-- No cell is in two arrays, or at two places of one. -/
def Separate : Prop :=
  ∀ i j i' j', j < w.size i → j' < w.size i' → w.cell i j = w.cell i' j' → i = i' ∧ j = j'

def Shows (memory : α → β) (arrays : ι → Nat → β) : Prop :=
  ∀ i, ∀ j < w.size i, memory (w.cell i j) = arrays i j

variable [DecidableEq ι]

def put (arrays : ι → Nat → β) (i : ι) (j : Nat) (v : β) : ι → Nat → β :=
  Function.update arrays i (Function.update (arrays i) j v)

variable {w} {memory memory' : α → β} {arrays : ι → Nat → β} {i : ι} {j : Nat}

/-- A memory that has other elements in the cells of one array, and nothing else. -/
theorem Shows.fill (separate : w.Separate) (shown : w.Shows memory arrays) (data : Nat → β)
    (inside : ∀ j < w.size i, memory' (w.cell i j) = data j)
    (outside : ∀ a, (∀ j < w.size i, w.cell i j ≠ a) → memory' a = memory a) :
    w.Shows memory' (Function.update arrays i data) := by
  intro i' j' bound
  by_cases same : i' = i
  · subst same
    rw [Function.update_self]
    exact inside j' bound
  · rw [Function.update_of_ne same, outside]
    · exact shown i' j' bound
    · intro j within meets
      exact same (separate i j i' j' within bound meets).1.symm

theorem Shows.put [DecidableEq α] (separate : w.Separate) (shown : w.Shows memory arrays)
    (inside : j < w.size i) (v : β) :
    w.Shows (Function.update memory (w.cell i j) v) (put arrays i j v) := by
  refine shown.fill separate _ (fun j' within => ?_) fun a apart => ?_
  · by_cases same : j' = j
    · rw [same, Function.update_self, Function.update_self]
    · rw [Function.update_of_ne same, Function.update_of_ne]
      · exact shown i j' within
      · exact fun meets => same (separate i j' i j within inside meets).2
  · exact Function.update_of_ne (apart j inside).symm _ _

end Windows

end Layout
