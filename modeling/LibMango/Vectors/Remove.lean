import Mathlib.Data.List.Count

namespace Vectors

variable {α : Type} [DecidableEq α]

/-- `std::remove` on a vector of shared pointers, of which `none` is the null pointer: the entries
    before `result`, those from `result` to `first`, and those from `first` on. An entry that is
    moved leaves the null pointer behind. -/
def remove (x : Option α) (kept gap : List (Option α)) :
    List (Option α) → List (Option α) × List (Option α)
  | [] => (kept, gap)
  | a :: rest =>
    if a = x then remove x kept (gap ++ [a]) rest
    else match gap with
      | [] => remove x (kept ++ [a]) [] rest
      | _ :: gap => remove x (kept ++ [a]) (gap ++ [none]) rest

/-- `v.erase(std::remove(v.begin(), v.end(), x))`: the one entry at the iterator is erased;
    `none` where that is the end of the vector. -/
def eraseRemove (v : List (Option α)) (x : Option α) : Option (List (Option α)) :=
  let removed := remove x [] [] v
  match removed.2 with
  | [] => none
  | _ :: tail => some (removed.1 ++ tail)

variable {x : Option α} {kept gap v : List (Option α)}

theorem remove_kept : (remove x kept gap v).1 = kept ++ v.filter (· ≠ x) := by
  induction v generalizing kept gap with
  | nil => simp [remove]
  | cons a rest ih =>
    by_cases same : a = x
    · simp [remove, same, ih]
    · cases gap <;> simp [remove, same, ih]

theorem remove_gap_length : (remove x kept gap v).2.length = gap.length + v.count x := by
  induction v generalizing kept gap with
  | nil => simp [remove]
  | cons a rest ih =>
    by_cases same : a = x
    · simp only [remove, same, ↓reduceIte, ih, List.length_append, List.length_singleton,
        List.count_cons_self]
      omega
    · cases gap <;> simp [remove, same, ih]

theorem eraseRemove_absent (absent : v.count x = 0) : eraseRemove v x = none := by
  have length : (remove x [] [] v).2.length = 0 := by rw [remove_gap_length, absent]; rfl
  simp only [eraseRemove, List.eq_nil_of_length_eq_zero length]

/-- What is left, with an entry for each occurrence but the first. -/
theorem eraseRemove_present (present : v.count x ≠ 0) : ∃ tail, tail.length + 1 = v.count x ∧
    eraseRemove v x = some (v.filter (· ≠ x) ++ tail) := by
  have length : (remove x [] [] v).2.length = v.count x := by rw [remove_gap_length]; exact Nat.zero_add _
  cases gap : (remove x [] [] v).2 with
  | nil =>
    rw [gap] at length
    exact absurd length.symm present
  | cons first tail =>
    refine ⟨tail, ?_, ?_⟩
    · rw [← length, gap, List.length_cons]
    · simp only [eraseRemove, gap, remove_kept, List.nil_append]

theorem eraseRemove_eq_filter_iff : eraseRemove v x = some (v.filter (· ≠ x)) ↔ v.count x = 1 := by
  by_cases present : v.count x = 0
  · rw [eraseRemove_absent present, present]
    simp
  · obtain ⟨tail, length, erased⟩ := eraseRemove_present present
    rw [erased, Option.some_inj, List.append_right_eq_self]
    constructor
    · rintro rfl
      exact length.symm
    · intro once
      exact List.eq_nil_of_length_eq_zero (by omega)

end Vectors
