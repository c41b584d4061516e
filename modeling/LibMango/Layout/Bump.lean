import Mathlib.Algebra.Order.Ring.Nat
import Mathlib.Data.List.Basic

namespace Layout

section Ranges

/-- The addresses from `first` on, `size` of them. -/
structure Range where
  first : Nat
  size : Nat
  deriving DecidableEq, Repr

namespace Range

def stop (r : Range) : Nat := r.first + r.size

def Contains (r : Range) (a : Nat) : Prop := r.first ≤ a ∧ a < r.stop

def Apart (r s : Range) : Prop := r.stop ≤ s.first ∨ s.stop ≤ r.first

instance (r s : Range) : Decidable (r.Apart s) := inferInstanceAs (Decidable (_ ∨ _))

def wrap (space : Nat) (r : Range) : Range := ⟨r.first % space, r.size⟩

theorem Apart.symm {r s : Range} (apart : r.Apart s) : s.Apart r := Or.symm apart

theorem Apart.not_both {r s : Range} {a : Nat} (apart : r.Apart s) (mine : r.Contains a) :
    ¬ s.Contains a := by
  intro theirs
  unfold Apart at apart
  unfold Contains at mine theirs
  omega

/-- Of two ranges within one lap around the address space the later one is still apart from
    the earlier one when they are wrapped, if neither crosses the end of the space. -/
theorem wrap_apart {space low : Nat} {r s : Range} (after : r.stop ≤ s.first) (above : low ≤ r.first)
    (below : s.stop ≤ low + space) (whole : (r.wrap space).stop ≤ space) :
    (r.wrap space).Apart (s.wrap space) := by
  unfold Apart
  simp only [stop, wrap] at *
  have first := Nat.div_add_mod r.first space
  have second := Nat.div_add_mod s.first space
  rcases Nat.eq_zero_or_pos space with zero | positive
  · subst zero
    simp only [Nat.mod_zero] at whole ⊢
    omega
  · have low' : r.first / space ≤ s.first / space := Nat.div_le_div_right (by omega)
    have high : s.first / space ≤ r.first / space + 1 := by
      rw [← Nat.add_div_right _ positive]
      exact Nat.div_le_div_right (by omega)
    rcases Nat.lt_or_eq_of_le low' with less | same
    · have next : s.first / space = r.first / space + 1 := by omega
      rw [next, Nat.mul_add, Nat.mul_one] at second
      omega
    · rw [← same] at second
      omega

theorem wrap_contains {space a : Nat} {r : Range} (mine : r.Contains a)
    (whole : (r.wrap space).stop ≤ space) : (r.wrap space).Contains (a % space) := by
  unfold Contains at mine ⊢
  simp only [stop, wrap] at *
  have first := Nat.div_add_mod r.first space
  have address := Nat.div_add_mod a space
  rcases Nat.eq_zero_or_pos space with zero | positive
  · subst zero
    simp only [Nat.mod_zero] at whole ⊢
    omega
  · have low : r.first / space ≤ a / space := Nat.div_le_div_right mine.1
    have high : a / space < r.first / space + 1 := by
      rw [Nat.div_lt_iff_lt_mul positive, Nat.add_mul, Nat.one_mul, Nat.mul_comm]
      omega
    have same : a / space = r.first / space := by omega
    rw [same] at address
    omega

end Range

theorem filter_exclusive {α : Type} {l : List α} {test : α → Bool} {c : α}
    (exclusive : l.Pairwise fun c d => test c = true → test d = false) (member : c ∈ l)
    (passes : test c = true) : l.filter test = [c] := by
  induction l with
  | nil => cases member
  | cons head rest ih =>
    rw [List.pairwise_cons] at exclusive
    rcases List.mem_cons.mp member with same | later
    · subst same
      have others : rest.filter test = [] := by
        rw [List.filter_eq_nil_iff]
        intro d other
        simp [exclusive.1 d other passes]
      rw [List.filter_cons_of_pos passes, others]
    · have skipped : test head = false := by
        by_contra taken
        have clash := exclusive.1 c later (by simpa using taken)
        simp [clash] at passes
      rw [List.filter_cons_of_neg (by simp [skipped])]
      exact ih exclusive.2 later

end Ranges

section RoundUp

variable (align : Nat)

def roundUp (n : Nat) : Nat := if n % align = 0 then n else n + (align - n % align)

variable {align} {n m : Nat}

theorem le_roundUp : n ≤ roundUp align n := by
  unfold roundUp
  split <;> omega

theorem dvd_roundUp (positive : 0 < align) : align ∣ roundUp align n := by
  have rest := Nat.mod_lt n positive
  have parts := Nat.div_add_mod n align
  unfold roundUp
  split
  · next whole => exact Nat.dvd_of_mod_eq_zero whole
  · have next : n + (align - n % align) = align * (n / align + 1) := by
      rw [Nat.mul_add, Nat.mul_one]
      omega
    exact ⟨_, next⟩

theorem roundUp_le (positive : 0 < align) (aligned : align ∣ m) (le : n ≤ m) : roundUp align n ≤ m := by
  obtain ⟨k, rfl⟩ := aligned
  have rest := Nat.mod_lt n positive
  have parts := Nat.div_add_mod n align
  unfold roundUp
  split
  · exact le
  · next part =>
    have fewer : n / align < k := by
      by_contra more
      have all : align * k ≤ align * (n / align) := Nat.mul_le_mul_left _ (by omega)
      omega
    have next : align * (n / align + 1) ≤ align * k := Nat.mul_le_mul_left _ fewer
    rw [Nat.mul_add, Nat.mul_one] at next
    omega

theorem roundUp_add (aligned : align ∣ m) : roundUp align (m + n) = m + roundUp align n := by
  obtain ⟨k, rfl⟩ := aligned
  unfold roundUp
  rw [Nat.mul_add_mod]
  split <;> omega

theorem roundUp_mod {space : Nat} (aligned : align ∣ space) :
    roundUp align (n % space) % space = roundUp align n % space := by
  have whole : align ∣ space * (n / space) := Nat.dvd_trans aligned (Nat.dvd_mul_right _ _)
  have parts := Nat.div_add_mod n space
  calc roundUp align (n % space) % space
      = (space * (n / space) + roundUp align (n % space)) % space := (Nat.mul_add_mod _ _ _).symm
    _ = roundUp align n % space := by rw [← roundUp_add whole, parts]

end RoundUp

section Bump

variable {α : Type} (align : Nat) (size : α → Nat)

/-- The running address after some items have been placed from an address on, each at a
    multiple of `align`. -/
def nextFree (next : Nat) (items : List α) : Nat :=
  items.foldl (fun next item => next + roundUp align (size item)) next

def place (next : Nat) : List α → List (Range × α)
  | [] => []
  | item :: rest => (⟨next, size item⟩, item) :: place (next + roundUp align (size item)) rest

variable {align size} {next : Nat} {items rest : List α}

@[simp] theorem nextFree_nil : nextFree align size next [] = next := rfl

@[simp] theorem nextFree_cons (item : α) : nextFree align size next (item :: rest) =
    nextFree align size (next + roundUp align (size item)) rest := rfl

theorem nextFree_append (first rest : List α) : nextFree align size next (first ++ rest) =
    nextFree align size (nextFree align size next first) rest := List.foldl_append

theorem place_append (first rest : List α) : place align size next (first ++ rest) =
    place align size next first ++ place align size (nextFree align size next first) rest := by
  induction first generalizing next with
  | nil => rfl
  | cons item first ih => simp only [List.cons_append, place, ih, nextFree_cons]

theorem nextFree_map : nextFree align id next (items.map size) = nextFree align size next items := by
  induction items generalizing next with
  | nil => rfl
  | cons item rest ih => exact ih

theorem place_map : place align id next (items.map size) =
    (place align size next items).map fun p => (p.1, size p.2) := by
  induction items generalizing next with
  | nil => rfl
  | cons item rest ih => exact congrArg _ ih

theorem le_nextFree : next ≤ nextFree align size next items := by
  induction items generalizing next with
  | nil => exact Nat.le_refl _
  | cons item rest ih => exact Nat.le_trans (Nat.le_add_right _ _) ih

theorem nextFree_dvd (positive : 0 < align) (aligned : align ∣ next) :
    align ∣ nextFree align size next items := by
  induction items generalizing next with
  | nil => exact aligned
  | cons item rest ih => exact ih ((Nat.dvd_add_right aligned).mpr (dvd_roundUp positive))

@[simp] theorem place_length : (place align size next items).length = items.length := by
  induction items generalizing next with
  | nil => rfl
  | cons item rest ih => simp [place, ih]

theorem place_size {p : Range × α} (placed : p ∈ place align size next items) :
    p.1.size = size p.2 ∧ p.2 ∈ items := by
  induction items generalizing next with
  | nil => cases placed
  | cons item rest ih =>
    rcases List.mem_cons.mp placed with rfl | later
    · exact ⟨rfl, List.mem_cons_self⟩
    · exact ⟨(ih later).1, List.mem_cons_of_mem _ (ih later).2⟩

theorem place_bounds {p : Range × α} (placed : p ∈ place align size next items) :
    next ≤ p.1.first ∧ p.1.stop ≤ nextFree align size next items := by
  induction items generalizing next with
  | nil => cases placed
  | cons item rest ih =>
    rcases List.mem_cons.mp placed with rfl | later
    · exact ⟨Nat.le_refl _, Nat.le_trans (Nat.add_le_add_left le_roundUp _) le_nextFree⟩
    · exact ⟨Nat.le_trans (Nat.le_add_right _ _) (ih later).1, (ih later).2⟩

theorem place_aligned (positive : 0 < align) (aligned : align ∣ next) {p : Range × α}
    (placed : p ∈ place align size next items) : align ∣ p.1.first := by
  induction items generalizing next with
  | nil => cases placed
  | cons item rest ih =>
    rcases List.mem_cons.mp placed with rfl | later
    · exact aligned
    · exact ih ((Nat.dvd_add_right aligned).mpr (dvd_roundUp positive)) later

theorem place_ordered : (place align size next items).Pairwise fun p q => p.1.stop ≤ q.1.first := by
  induction items generalizing next with
  | nil => exact List.Pairwise.nil
  | cons item rest ih =>
    refine List.Pairwise.cons (fun q later => ?_) ih
    exact Nat.le_trans (Nat.add_le_add_left le_roundUp _) (place_bounds later).1

/-- If the running address goes past a limit, some range contains the limit. -/
theorem place_overrun (positive : 0 < align) {limit : Nat} (aligned : align ∣ next)
    (boundary : align ∣ limit) (below : next ≤ limit) (past : limit < nextFree align size next items) :
    ∃ p ∈ place align size next items, p.1.Contains limit := by
  induction items generalizing next with
  | nil => exact absurd past (Nat.not_lt.mpr below)
  | cons item rest ih =>
    by_cases fits : next + size item ≤ limit
    · have rounded : next + roundUp align (size item) ≤ limit := by
        rw [← roundUp_add aligned]
        exact roundUp_le positive boundary fits
      obtain ⟨p, placed, contains⟩ :=
        ih ((Nat.dvd_add_right aligned).mpr (dvd_roundUp positive)) rounded past
      exact ⟨p, List.mem_cons_of_mem _ placed, contains⟩
    · exact ⟨_, List.mem_cons_self, below, Nat.lt_of_not_le fits⟩

end Bump

end Layout
