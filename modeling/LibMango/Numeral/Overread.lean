import LibMango.Numeral.Hex
import Mathlib.Data.List.TakeWhile
import Mathlib.Tactic.Ring

namespace Numeral

section Reading

variable {α : Type} {base acc acc' : Nat} {value wider : α → Option Nat} {c : α} {s : List α}

/-- The number the digits at the front of a text continue, where `value` tells the digits from
    the other symbols. -/
def readBy (base : Nat) (value : α → Option Nat) (acc : Nat) : List α → Nat
  | [] => acc
  | c :: rest =>
    match value c with
    | none => acc
    | some digit => readBy base value (acc * base + digit) rest

def digits (value : α → Option Nat) (s : List α) : List α := s.takeWhile fun c => (value c).isSome

def behind (value : α → Option Nat) (s : List α) : List α := s.dropWhile fun c => (value c).isSome

/-- `wider` reads each digit of `value` as `value` does, and may know more of them. -/
def Extends (wider value : α → Option Nat) : Prop := ∀ c d, value c = some d → wider c = some d

theorem digits_cons {d : Nat} (digit : value c = some d) : digits value (c :: s) = c :: digits value s :=
  List.takeWhile_cons_of_pos (by rw [digit, Option.isSome_some])

theorem digits_stop (none : value c = none) : digits value (c :: s) = [] :=
  List.takeWhile_cons_of_neg (by simp [none])

theorem behind_cons {d : Nat} (digit : value c = some d) : behind value (c :: s) = behind value s :=
  List.dropWhile_cons_of_pos (by rw [digit, Option.isSome_some])

theorem behind_stop (none : value c = none) : behind value (c :: s) = c :: s :=
  List.dropWhile_cons_of_neg (by simp [none])

theorem readBy_cons {d : Nat} (digit : value c = some d) :
    readBy base value acc (c :: s) = readBy base value (acc * base + d) s := by
  rw [readBy, digit]

theorem readBy_stop (none : value c = none) : readBy base value acc (c :: s) = acc := by
  rw [readBy, none]

theorem readHex_eq (acc : Nat) (s : List Char) : readHex acc s = readBy 16 hexValue acc s := by
  induction s generalizing acc with
  | nil => rfl
  | cons c rest ih =>
    rcases digit : hexValue c with _ | d
    · rw [readHex, readBy, digit]
    · rw [readBy_cons digit, readHex, digit]
      exact ih _

theorem le_readBy (positive : 0 < base) : acc ≤ readBy base value acc s := by
  induction s generalizing acc with
  | nil => exact le_rfl
  | cons c rest ih =>
    rcases digit : value c with _ | d
    · rw [readBy_stop digit]
    · rw [readBy_cons digit]
      calc acc ≤ acc * base := Nat.le_mul_of_pos_right acc positive
        _ ≤ acc * base + d := Nat.le_add_right _ _
        _ ≤ readBy base value (acc * base + d) rest := ih

theorem readBy_lt_readBy (positive : 0 < base) (less : acc < acc') :
    readBy base value acc s < readBy base value acc' s := by
  induction s generalizing acc acc' with
  | nil => exact less
  | cons c rest ih =>
    rcases digit : value c with _ | d
    · rwa [readBy_stop digit, readBy_stop digit]
    · rw [readBy_cons digit, readBy_cons digit]
      exact ih (Nat.add_lt_add_right (Nat.mul_lt_mul_of_pos_right less positive) d)

/-- A reader that knows more digits reads on where the other one stops. -/
theorem readBy_behind (extends_ : Extends wider value) :
    readBy base wider acc s = readBy base wider (readBy base value acc s) (behind value s) := by
  induction s generalizing acc with
  | nil => rfl
  | cons c rest ih =>
    rcases digit : value c with _ | d
    · rw [readBy_stop digit, behind_stop digit]
    · rw [readBy_cons digit, readBy_cons (extends_ c d digit), behind_cons digit]
      exact ih

theorem digits_behind (extends_ : Extends wider value) :
    digits wider s = digits value s ++ digits wider (behind value s) := by
  induction s with
  | nil => rfl
  | cons c rest ih =>
    rcases digit : value c with _ | d
    · rw [digits_stop digit, behind_stop digit, List.nil_append]
    · rw [digits_cons digit, digits_cons (extends_ c d digit), behind_cons digit, List.cons_append, ← ih]

theorem digits_of_all (all : ∀ c ∈ s, (value c).isSome) : digits value s = s :=
  List.takeWhile_eq_self_iff.mpr all

theorem behind_of_all (all : ∀ c ∈ s, (value c).isSome) : behind value s = [] :=
  List.dropWhile_eq_nil_iff.mpr all

theorem value_of_behind {rest : List α} (text : behind value s = c :: rest) : value c = none := by
  have stop := List.head?_dropWhile_not (fun c => (value c).isSome) s
  rw [behind] at text
  simpa [text] using stop

theorem readBy_le_readBy (positive : 0 < base) (extends_ : Extends wider value) :
    readBy base value acc s ≤ readBy base wider acc s := by
  rw [readBy_behind extends_]
  exact le_readBy positive

/-- What stands in front weighs a power of the base for each digit. -/
theorem readBy_acc :
    readBy base value acc s = acc * base ^ (digits value s).length + readBy base value 0 s := by
  induction s generalizing acc with
  | nil => simp [readBy, digits]
  | cons c rest ih =>
    rcases digit : value c with _ | d
    · simp [readBy_stop digit, digits_stop digit]
    · rw [readBy_cons digit, readBy_cons digit, digits_cons digit, ih, @ih (0 * base + d),
        List.length_cons]
      ring

theorem readBy_of_no_digits (stop : digits value s = []) : readBy base value acc s = acc := by
  cases s with
  | nil => rfl
  | cons c rest =>
    rcases digit : value c with _ | d
    · exact readBy_stop digit
    · simp [digits_cons digit] at stop

theorem mul_le_readBy (positive : 0 < base) (some_ : digits value s ≠ []) :
    acc * base ≤ readBy base value acc s := by
  cases s with
  | nil => exact absurd rfl some_
  | cons c rest =>
    rcases digit : value c with _ | d
    · exact absurd (digits_stop digit) some_
    · rw [readBy_cons digit]
      exact le_trans (Nat.le_add_right _ _) (le_readBy positive)

theorem readBy_add_le {k : Nat} (small : ∀ c d, value c = some d → d + k ≤ k * base) :
    readBy base value acc s + k ≤ (acc + k) * base ^ (digits value s).length := by
  induction s generalizing acc with
  | nil => simp [readBy, digits]
  | cons c rest ih =>
    rcases digit : value c with _ | d
    · simp [readBy_stop digit, digits_stop digit]
    · rw [readBy_cons digit, digits_cons digit, List.length_cons]
      calc readBy base value (acc * base + d) rest + k
          ≤ (acc * base + d + k) * base ^ (digits value rest).length := ih
        _ ≤ ((acc + k) * base) * base ^ (digits value rest).length := by
            refine Nat.mul_le_mul_right _ ?_
            have bound := small c d digit
            rw [Nat.add_mul]
            omega
        _ = (acc + k) * base ^ ((digits value rest).length + 1) := by ring

end Reading

section Sign

variable {w : Nat} {s : List Char}

def negative (s : List Char) : Bool := (s.dropWhile isSpace).head? = some '-'

def behindSign (s : List Char) : List Char :=
  match s.dropWhile isSpace with
  | '-' :: rest => rest
  | '+' :: rest => rest
  | s => s

def withSign (negative : Bool) (n : Int) : Int := if negative then -n else n

theorem strtol_eq (w : Nat) (s : List Char) :
    strtol w s = saturate w (withSign (negative s) (magnitude (behindSign s))) := by
  unfold strtol negative behindSign
  rcases s.dropWhile isSpace with _ | ⟨c, rest⟩
  · rfl
  · by_cases minus : c = '-'
    · subst minus
      rfl
    · by_cases plus : c = '+'
      · subst plus
        rfl
      · simp [minus, plus, withSign]

theorem behindSign_blank (s : List Char) : behindSign (' ' :: s) = behindSign s := rfl

theorem negative_blank (s : List Char) : negative (' ' :: s) = negative s := rfl

/-- A text that begins with a digit stands behind no sign. -/
theorem behindSign_of_digit {c : Char} {rest : List Char} (digit : (hexValue c).isSome) :
    behindSign (c :: rest) = c :: rest ∧ negative (c :: rest) = false := by
  have minus : c ≠ '-' := ne_of_hex digit rfl
  have plus : c ≠ '+' := ne_of_hex digit rfl
  unfold behindSign negative
  rw [List.dropWhile_cons_of_neg (by simp [not_isSpace digit])]
  simp [minus, plus]

theorem getLast?_toDigits (n : Nat) : (Nat.toDigits 16 n).getLast? = some (Nat.digitChar (n % 16)) := by
  rw [Nat.toDigits_eq_if (by decide)]
  split
  · next small => rw [Nat.mod_eq_of_lt small]; rfl
  · rw [List.getLast?_append]
    rfl

theorem skipPrefix_cases (s : List Char) :
    skipPrefix s = s ∨ ∃ x rest, (x = 'x' ∨ x = 'X') ∧ s = '0' :: x :: rest ∧ skipPrefix s = rest := by
  unfold skipPrefix
  split
  · next rest => exact .inr ⟨'x', rest, .inl rfl, rfl, rfl⟩
  · next rest => exact .inr ⟨'X', rest, .inr rfl, rfl, rfl⟩
  · exact .inl rfl

theorem saturate_of_lt {v : Int} (low : -2^(w - 1) ≤ v) (high : v < 2^(w - 1)) : saturate w v = v := by
  unfold saturate
  omega

end Sign

end Numeral
