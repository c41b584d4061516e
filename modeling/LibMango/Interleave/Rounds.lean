import Mathlib.Data.Fintype.Card

namespace Interleave

/-- A group whose members arrive one at a time and are released together, over and over. -/
structure Rounds (ι : Type) where
  arrived : ι → Nat
  released : Nat
  released_le : ∀ i, released ≤ arrived i
  arrived_le : ∀ i, arrived i ≤ released + 1

namespace Rounds

variable {ι : Type}

def start : Rounds ι := ⟨fun _ => 0, 0, fun _ => Nat.le_refl 0, fun _ => Nat.zero_le 1⟩

def Absent (r : Rounds ι) (i : ι) : Prop := r.arrived i = r.released

instance (r : Rounds ι) : DecidablePred r.Absent := fun i =>
  inferInstanceAs (Decidable (r.arrived i = r.released))

theorem arrived_of_not_absent {r : Rounds ι} {i : ι} (present : ¬ r.Absent i) :
    r.arrived i = r.released + 1 := by
  have low := r.released_le i
  have high := r.arrived_le i
  unfold Absent at present
  omega

def arrive [DecidableEq ι] (r : Rounds ι) (i : ι) : Rounds ι where
  arrived := Function.update r.arrived i (r.released + 1)
  released := r.released
  released_le j := by
    by_cases same : j = i
    · subst same; simp
    · simpa [same] using r.released_le j
  arrived_le j := by
    by_cases same : j = i
    · subst same; simp
    · simpa [same] using r.arrived_le j

@[simp] theorem arrive_released [DecidableEq ι] (r : Rounds ι) (i : ι) :
    (r.arrive i).released = r.released := rfl

@[simp] theorem arrive_arrived_self [DecidableEq ι] (r : Rounds ι) (i : ι) :
    (r.arrive i).arrived i = r.released + 1 := by
  simp [arrive]

theorem arrive_arrived_other [DecidableEq ι] (r : Rounds ι) {i j : ι} (other : j ≠ i) :
    (r.arrive i).arrived j = r.arrived j := by
  simp [arrive, other]

def release (r : Rounds ι) (all : ∀ i, ¬ r.Absent i) : Rounds ι where
  arrived := r.arrived
  released := r.released + 1
  released_le i := Nat.le_of_eq (arrived_of_not_absent (all i)).symm
  arrived_le i := Nat.le_succ_of_le (r.arrived_le i)

variable [Fintype ι]

def missing (r : Rounds ι) : Nat := (Finset.univ.filter r.Absent).card

theorem missing_start : (start : Rounds ι).missing = Fintype.card ι := by
  have all : (Finset.univ.filter (start : Rounds ι).Absent) = Finset.univ :=
    Finset.filter_true_of_mem fun _ _ => rfl
  rw [missing, all, Finset.card_univ]

theorem missing_pos {r : Rounds ι} {i : ι} (absent : r.Absent i) : 0 < r.missing :=
  Finset.card_pos.mpr ⟨i, by simp [absent]⟩

theorem missing_le (r : Rounds ι) : r.missing ≤ Fintype.card ι := Finset.card_le_univ _

theorem missing_eq_zero {r : Rounds ι} : r.missing = 0 ↔ ∀ i, ¬ r.Absent i := by
  simp [missing, Finset.filter_eq_empty_iff]

theorem missing_arrive [DecidableEq ι] {r : Rounds ι} {i : ι} (absent : r.Absent i) :
    (r.arrive i).missing + 1 = r.missing := by
  have rest : Finset.univ.filter (r.arrive i).Absent = (Finset.univ.filter r.Absent).erase i := by
    ext j
    by_cases same : j = i
    · subst same
      simp [Absent]
    · simp [Absent, same, arrive_arrived_other r same]
  rw [missing, missing, rest]
  exact Finset.card_erase_add_one (by simp [absent])

theorem missing_release {r : Rounds ι} (all : ∀ i, ¬ r.Absent i) :
    (r.release all).missing = Fintype.card ι := by
  have next : Finset.univ.filter (r.release all).Absent = Finset.univ :=
    Finset.filter_true_of_mem fun i _ => arrived_of_not_absent (all i)
  rw [missing, next, Finset.card_univ]

end Rounds

end Interleave
