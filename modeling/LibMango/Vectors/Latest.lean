import Mathlib.Data.List.Basic

namespace Vectors

variable {α κ : Type} [DecidableEq κ]

/-- The last of the items that have the key, as a table has it in which they were entered in order. -/
def latest (key : α → κ) (items : List α) (k : κ) : Option α :=
  (items.filter fun x => key x = k).getLast?

variable {key : α → κ} {items : List α} {x y : α} {k : κ}

theorem latest_append : latest key (items ++ [x]) k = if key x = k then some x else latest key items k := by
  by_cases same : key x = k <;> simp [latest, same]

theorem latest_mem (found : latest key items k = some x) : x ∈ items ∧ key x = k := by
  have member := List.mem_of_getLast? found
  exact ⟨(List.mem_filter.mp member).1, of_decide_eq_true (List.mem_filter.mp member).2⟩

theorem latest_isSome : (latest key items k).isSome ↔ ∃ x ∈ items, key x = k := by
  simp [latest]

theorem latest_of_unique (unique : ∀ y ∈ items, key y = key x → y = x) (member : x ∈ items) :
    latest key items (key x) = some x := by
  have entered : (latest key items (key x)).isSome := latest_isSome.mpr ⟨x, member, rfl⟩
  obtain ⟨y, found⟩ := Option.isSome_iff_exists.mp entered
  obtain ⟨inside, same⟩ := latest_mem found
  rw [found, unique y inside same]

end Vectors
