import Mathlib.Algebra.Order.Ring.Nat
import Mathlib.Data.Char
import Mathlib.Data.Nat.Basic
import Mathlib.Data.Int.Basic
import Mathlib.Tactic.IntervalCases

namespace Numeral

section Digits

def hexValue (c : Char) : Option Nat :=
  if '0' ≤ c ∧ c ≤ '9' then some (c.toNat - '0'.toNat)
  else if 'a' ≤ c ∧ c ≤ 'f' then some (c.toNat - 'a'.toNat + 10)
  else if 'A' ≤ c ∧ c ≤ 'F' then some (c.toNat - 'A'.toNat + 10)
  else none

/-- The number the hexadecimal digits at the front of a text continue. -/
def readHex (acc : Nat) : List Char → Nat
  | [] => acc
  | c :: rest =>
    match hexValue c with
    | none => acc
    | some digit => readHex (acc * 16 + digit) rest

variable {digits rest : List Char} {acc n : Nat}

theorem hexValue_digitChar {d : Nat} (small : d < 16) : hexValue (Nat.digitChar d) = some d := by
  interval_cases d <;> decide

theorem readHex_append (all : ∀ c ∈ digits, (hexValue c).isSome) :
    readHex acc (digits ++ rest) = readHex (readHex acc digits) rest := by
  induction digits generalizing acc with
  | nil => rfl
  | cons c digits ih =>
    obtain ⟨d, value⟩ := Option.isSome_iff_exists.mp (all c List.mem_cons_self)
    simp only [List.cons_append, readHex, value]
    exact ih fun c member => all c (List.mem_cons_of_mem _ member)

theorem toDigits_hex (n : Nat) : ∀ c ∈ Nat.toDigits 16 n, (hexValue c).isSome := by
  induction n using Nat.strongRecOn with
  | ind n ih =>
    intro c member
    rw [Nat.toDigits_eq_if (by decide)] at member
    split at member
    · next small =>
      obtain rfl := List.mem_singleton.mp member
      rw [hexValue_digitChar small]
      rfl
    · rcases List.mem_append.mp member with earlier | last
      · exact ih (n / 16) (by omega) c earlier
      · obtain rfl := List.mem_singleton.mp last
        rw [hexValue_digitChar (Nat.mod_lt _ (by decide))]
        rfl

theorem readHex_toDigits (n : Nat) : readHex 0 (Nat.toDigits 16 n) = n := by
  induction n using Nat.strongRecOn with
  | ind n ih =>
    rw [Nat.toDigits_eq_if (by decide)]
    split
    · next small => simp [readHex, hexValue_digitChar small]
    · next large =>
      have rest := Nat.div_add_mod n 16
      rw [readHex_append (toDigits_hex _), ih (n / 16) (by omega)]
      simp only [readHex, hexValue_digitChar (Nat.mod_lt n (show 0 < 16 by decide))]
      omega

theorem le_of_hex {c : Char} (hex : (hexValue c).isSome) : '0' ≤ c := by
  unfold hexValue at hex
  split at hex
  · next digit => exact digit.1
  · split at hex
    · next letter => exact le_trans (show '0' ≤ 'a' by decide) letter.1
    · split at hex
      · next letter => exact le_trans (show '0' ≤ 'A' by decide) letter.1
      · cases hex

theorem ne_of_hex {c d : Char} (hex : (hexValue c).isSome) (other : hexValue d = none) : c ≠ d := by
  rintro rfl
  simp [other] at hex

theorem not_mem_toDigits {c : Char} (other : hexValue c = none) (n : Nat) : c ∉ Nat.toDigits 16 n :=
  fun member => ne_of_hex (toDigits_hex n c member) other rfl

end Digits

section Strtol

def isSpace (c : Char) : Bool := c = ' ' || ('\t' ≤ c && c ≤ '\r')

def skipPrefix : List Char → List Char
  | '0' :: 'x' :: rest => rest
  | '0' :: 'X' :: rest => rest
  | s => s

def magnitude (s : List Char) : Nat := readHex 0 (skipPrefix s)

/-- The nearest number that a signed integer of `w` bits can hold. -/
def saturate (w : Nat) (v : Int) : Int := max (-2^(w - 1)) (min v (2^(w - 1) - 1))

/-- `strtol(s, NULL, 16)` where a `long` has `w` bits. -/
def strtol (w : Nat) (s : List Char) : Int :=
  match s.dropWhile isSpace with
  | '-' :: rest => saturate w (-magnitude rest)
  | '+' :: rest => saturate w (magnitude rest)
  | s => saturate w (magnitude s)

variable {w n : Nat} {s : List Char}

theorem magnitude_prefixed (n : Nat) : magnitude ('0' :: 'x' :: Nat.toDigits 16 n) = n :=
  readHex_toDigits n

theorem magnitude_toDigits (n : Nat) : magnitude (Nat.toDigits 16 n) = n := by
  have whole : skipPrefix (Nat.toDigits 16 n) = Nat.toDigits 16 n := by
    unfold skipPrefix
    split
    · next rest found => exact absurd (show 'x' ∈ Nat.toDigits 16 n by simp [found]) (not_mem_toDigits rfl n)
    · next rest found => exact absurd (show 'X' ∈ Nat.toDigits 16 n by simp [found]) (not_mem_toDigits rfl n)
    · rfl
  rw [magnitude, whole, readHex_toDigits]

theorem not_isSpace {c : Char} (digit : (hexValue c).isSome) : isSpace c = false := by
  have blank : c ≠ ' ' := ne_of_hex digit rfl
  have high : ¬ c ≤ '\r' := fun low =>
    absurd (le_trans (le_of_hex digit) low) (by decide)
  simp [isSpace, blank, high]

/-- A text that begins with a digit has neither spaces nor a sign to skip. -/
theorem strtol_of_digit {c : Char} {rest : List Char} (digit : (hexValue c).isSome) :
    strtol w (c :: rest) = saturate w (magnitude (c :: rest)) := by
  have plus : c ≠ '+' := ne_of_hex digit rfl
  have minus : c ≠ '-' := ne_of_hex digit rfl
  unfold strtol
  rw [List.dropWhile_cons_of_neg (by simp [not_isSpace digit])]
  split
  · next found => cases found; exact absurd rfl minus
  · next found => cases found; exact absurd rfl plus
  · rfl

theorem toDigits_cons (n : Nat) : ∃ c rest, Nat.toDigits 16 n = c :: rest ∧ (hexValue c).isSome := by
  rcases digits : Nat.toDigits 16 n with _ | ⟨c, rest⟩
  · exact absurd digits Nat.toDigits_ne_nil
  · exact ⟨c, rest, rfl, toDigits_hex n c (by simp [digits])⟩

theorem strtol_toDigits (n : Nat) : strtol w (Nat.toDigits 16 n) = saturate w n := by
  obtain ⟨c, rest, digits, digit⟩ := toDigits_cons n
  rw [digits, strtol_of_digit digit, ← digits, magnitude_toDigits]

theorem strtol_prefixed (n : Nat) : strtol w ('0' :: 'x' :: Nat.toDigits 16 n) = saturate w n := by
  rw [strtol_of_digit rfl, magnitude_prefixed]

end Strtol

end Numeral
