import LibMango.Host.Arguments
import LibMango.Numeral.Overread
import Mathlib.Data.Int.ModEq

namespace MangoModel.Device

open Host Numeral

section Conversion

/-- An operation on `int` with its exact result: the C standard leaves an overflow undefined. -/
def checked (exact : Int) : Option Int := if -2^31 ≤ exact ∧ exact < 2^31 then some exact else none

/-- An operation on `int` where the compiler lets it wrap around. -/
def wrapped (exact : Int) : Option Int := some (exact.bmod (2^32))

/-- `(unsigned int)` of an `int`. -/
def unsigned (x : Int) : Nat := (x % 2^32).toNat

-- A `char` of 128 or more fails each of the three tests, and so does the negative value it has
-- where `char` is signed; the NUL is the end of the list.

def blank (c : Char) : Bool := unsigned (c.toNat - 9) < 5 || c = ' '

def letter (c : Char) : Bool := unsigned ((c.toNat ||| 0x20 : Nat) - ('a'.toNat : Int)) < 26

def decimal (c : Char) : Bool := unsigned (c.toNat - ('0'.toNat : Int)) < 10

variable (int : Int → Option Int)

def atoxDigit (v : Int) (c : Char) : Option Int := do
  if decimal c then
    let v ← int (v * 16)
    let v ← int (v + c.toNat)
    int (v - '0'.toNat)
  else
    let v ← int (v * 16)
    let v ← int (v + (c.toNat &&& 0x5F : Nat))
    let v ← int (v - 'A'.toNat)
    int (v + 10)

def atoxLoop (v : Int) : List Char → Option Int
  | [] => some v
  | c :: s => if letter c || decimal c then (atoxDigit int v c).bind fun v => atoxLoop v s else some v

def mangoNuplusAtox (s : List Char) : Option (BitVec 32) := do
  -- The case of '-' falls through to the one of '+'.
  let (sign, s) : Int × List Char :=
    match s.dropWhile blank with
    | '-' :: s => (-1, s)
    | '+' :: s => (1, s)
    | s => (1, s)
  let v ← atoxLoop int 0 s
  let v ← if sign = -1 then int (-v) else some v
  return BitVec.ofInt 32 v

end Conversion

section Characters

variable {c : Char} {d : Nat}

theorem unsigned_lt_iff {x : Int} {k : Nat} (low : -2^31 ≤ x) (high : x < 2^31) (small : k ≤ 2^31) :
    unsigned x < k ↔ 0 ≤ x ∧ x < k := by
  unfold unsigned
  omega

theorem code_lt (c : Char) : c.toNat < 2^21 := by
  have valid := c.valid
  unfold UInt32.isValidChar Nat.isValidChar at valid
  simp only [Char.toNat_val] at valid
  omega

theorem blank_eq (c : Char) : blank c = isSpace c := by
  have small := code_lt c
  have tabs : unsigned (c.toNat - 9) < 5 ↔ 9 ≤ c.toNat ∧ c.toNat ≤ 13 := by
    rw [unsigned_lt_iff (by omega) (by omega) (by decide)]
    omega
  rw [Bool.eq_iff_iff]
  simp [blank, isSpace, tabs, Char.le_def, UInt32.le_iff_toNat_le, or_comm]

theorem decimal_iff : decimal c = true ↔ 48 ≤ c.toNat ∧ c.toNat ≤ 57 := by
  have small := code_lt c
  rw [decimal, decide_eq_true_iff, unsigned_lt_iff (by simp; omega) (by simp; omega) (by decide)]
  simp
  omega

theorem letter_iff : letter c = true ↔ 97 ≤ c.toNat ||| 0x20 ∧ c.toNat ||| 0x20 ≤ 122 := by
  have small : c.toNat ||| 0x20 < 2^21 := Nat.or_lt_two_pow (code_lt c) (by decide)
  rw [letter, decide_eq_true_iff, unsigned_lt_iff (by simp; omega) (by simp; omega) (by decide)]
  simp
  omega

theorem letter_lt (alphabetic : letter c = true) : c.toNat < 128 := by
  have folded := (letter_iff.mp alphabetic).2
  have less : c.toNat ≤ c.toNat ||| 0x20 := Nat.left_le_or
  omega

theorem folded_iff : ∀ n < 128, (97 ≤ n ||| 0x20 ∧ n ||| 0x20 ≤ 122 ↔
    (65 ≤ n ∧ n ≤ 90) ∨ (97 ≤ n ∧ n ≤ 122)) := by
  decide +kernel

theorem upper_eq : ∀ n < 128, 64 ≤ n → n &&& 0x5F = 64 + n % 32 := by
  decide +kernel

theorem letter_range : letter c = true ↔ (65 ≤ c.toNat ∧ c.toNat ≤ 90) ∨ (97 ≤ c.toNat ∧ c.toNat ≤ 122) := by
  constructor
  · intro alphabetic
    exact (folded_iff c.toNat (letter_lt alphabetic)).mp (letter_iff.mp alphabetic)
  · intro range
    exact letter_iff.mpr ((folded_iff c.toNat (by omega)).mpr range)

theorem letter_eq (c : Char) : letter c = c.isAlpha := by
  have ranges : c.isAlpha = (decide (65 ≤ c.val ∧ c.val ≤ 90) || (97 ≤ c.val && c.val ≤ 122)) := rfl
  rw [Bool.eq_iff_iff, letter_range, ranges]
  simp [UInt32.le_iff_toNat_le]

/-- The digit that the loop makes of a character: it takes every letter for one. -/
def atoxValue (c : Char) : Option Nat :=
  if decimal c then some (c.toNat - 48)
  else if letter c then some ((c.toNat &&& 0x5F) - 55)
  else none

/-- How far the code of a digit, in upper case, lies above its value. -/
def excess (c : Char) : Nat := if decimal c then 48 else 55

theorem atoxValue_isSome (c : Char) : (atoxValue c).isSome = (letter c || decimal c) := by
  unfold atoxValue
  cases decimal c <;> cases letter c <;> rfl

theorem atoxValue_cases (value : atoxValue c = some d) :
    (decimal c = true ∧ c.toNat = d + 48 ∧ d < 10) ∨
      (decimal c = false ∧ c.isAlpha = true ∧ c.toNat &&& 0x5F = d + 55 ∧ 10 ≤ d ∧ d < 36) := by
  unfold atoxValue at value
  split at value
  · next digit =>
    cases value
    have range := decimal_iff.mp digit
    exact .inl ⟨digit, by omega, by omega⟩
  · next other =>
    split at value
    · next alphabetic =>
      cases value
      have range := letter_range.mp alphabetic
      have upper := upper_eq c.toNat (by omega) (by omega)
      exact .inr ⟨by simpa using other, by rwa [← letter_eq], by omega, by omega, by omega⟩
    · cases value

theorem atoxValue_le : ∀ c d, atoxValue c = some d → d + 3 ≤ 3 * 16 := by
  intro c d value
  rcases atoxValue_cases value with ⟨_, _, small⟩ | ⟨_, _, _, _, small⟩ <;> omega

theorem atoxValue_letter (alphabetic : c.isAlpha = true) : atoxValue c = some ((c.toNat &&& 0x5F) - 55) := by
  rw [← letter_eq] at alphabetic
  have other : ¬ decimal c = true := fun digit => by
    have low := decimal_iff.mp digit
    have high := letter_range.mp alphabetic
    omega
  rw [atoxValue, if_neg other, if_pos alphabetic]

/-- The loop agrees with `strtol` on the hexadecimal digits. -/
theorem atoxValue_extends : Extends atoxValue hexValue := by
  intro c d value
  unfold hexValue at value
  simp only [Char.le_def, UInt32.le_iff_toNat_le, Char.toNat_val, Char.reduceToNat] at value
  have letters : ∀ {d}, (65 ≤ c.toNat ∧ c.toNat ≤ 70) ∨ (97 ≤ c.toNat ∧ c.toNat ≤ 102) →
      c.toNat % 32 + 9 = d → atoxValue c = some d := by
    intro d range rest
    have upper := upper_eq c.toNat (by omega) (by omega)
    rw [atoxValue_letter (by rw [← letter_eq, letter_range]; omega), Option.some_inj]
    omega
  split at value
  · next digit =>
    cases value
    rw [atoxValue, if_pos (decimal_iff.mpr digit)]
  · split at value
    · next lower =>
      cases value
      exact letters (.inr lower) (by omega)
    · split at value
      · next upper =>
        cases value
        exact letters (.inl upper) (by omega)
      · cases value

/-- What the loop takes for a digit where `strtol` stops is a letter. -/
theorem atoxValue_of_stop (stop : hexValue c = none) (value : atoxValue c = some d) :
    c.isAlpha = true ∧ 10 ≤ d := by
  rcases atoxValue_cases value with ⟨digit, _⟩ | ⟨_, alphabetic, _, large, _⟩
  · have range := decimal_iff.mp digit
    unfold hexValue at stop
    simp only [Char.le_def, UInt32.le_iff_toNat_le, Char.toNat_val, Char.reduceToNat] at stop
    rw [if_pos range] at stop
    cases stop
  · exact ⟨alphabetic, large⟩

end Characters

section Loop

variable {int : Int → Option Int} {c : Char} {d acc : Nat} {v : Int} {s t : List Char}

theorem mangoNuplusAtox_eq (int : Int → Option Int) (s : List Char) :
    mangoNuplusAtox int s = (atoxLoop int 0 (behindSign s)).bind fun v =>
      (if negative s then int (-v) else some v).map (BitVec.ofInt 32) := by
  have blanks : blank = isSpace := funext blank_eq
  unfold mangoNuplusAtox behindSign negative
  rw [blanks]
  rcases s.dropWhile isSpace with _ | ⟨c, rest⟩
  · rfl
  · by_cases minus : c = '-'
    · subst minus
      simp [Option.map_eq_bind]
    · by_cases plus : c = '+'
      · subst plus
        simp
      · simp [minus, plus]

theorem atoxLoop_cons (value : atoxValue c = some d) :
    atoxLoop int v (c :: s) = (atoxDigit int v c).bind fun v => atoxLoop int v s := by
  rw [atoxLoop, if_pos (by rw [← atoxValue_isSome, value, Option.isSome_some])]

theorem atoxLoop_stop (stop : atoxValue c = none) : atoxLoop int v (c :: s) = some v := by
  rw [atoxLoop, if_neg (by rw [← atoxValue_isSome, stop]; simp)]

theorem checked_eq_some {exact : Int} :
    checked exact = some v ↔ -2^31 ≤ exact ∧ exact < 2^31 ∧ v = exact := by
  unfold checked
  split
  · rw [Option.some_inj]
    omega
  · simp only [reduceCtorEq, false_iff]
    omega

/-- The code of a digit is added before that of '0', or of 'A', is taken away. -/
theorem atoxDigit_checked (value : atoxValue c = some d) :
    atoxDigit checked acc c = some v ↔ acc * 16 + d + excess c < 2^31 ∧ v = (acc * 16 + d : Nat) := by
  unfold atoxDigit excess
  rcases atoxValue_cases value with ⟨digit, code, _⟩ | ⟨other, _, code, _⟩
  · rw [if_pos digit, if_pos digit, code]
    simp only [Option.bind_eq_bind, Option.bind_eq_some_iff, checked_eq_some, Char.reduceToNat]
    constructor
    · rintro ⟨_, ⟨_, _, rfl⟩, _, ⟨_, room, rfl⟩, _, _, result⟩
      omega
    · rintro ⟨room, rfl⟩
      exact ⟨_, ⟨by omega, by omega, rfl⟩, _, ⟨by omega, by omega, rfl⟩, by omega, by omega, by omega⟩
  · rw [if_neg (by simp [other]), if_neg (by simp [other]), code]
    simp only [Option.bind_eq_bind, Option.bind_eq_some_iff, checked_eq_some, Char.reduceToNat]
    constructor
    · rintro ⟨_, ⟨_, _, rfl⟩, _, ⟨_, room, rfl⟩, _, ⟨_, _, rfl⟩, _, _, result⟩
      omega
    · rintro ⟨room, rfl⟩
      exact ⟨_, ⟨by omega, by omega, rfl⟩, _, ⟨by omega, by omega, rfl⟩, _, ⟨by omega, by omega, rfl⟩,
        by omega, by omega, by omega⟩

/-- `int` holds the number up to the last digit with the code of that digit. -/
def Room (value : Char → Option Nat) (acc : Nat) (s : List Char) : Prop :=
  ∀ c ∈ (digits value s).getLast?, readBy 16 value acc s + excess c < 2^31

instance (value : Char → Option Nat) (acc : Nat) (s : List Char) : Decidable (Room value acc s) :=
  Option.decidableForallMem _

theorem excess_range (c : Char) : 48 ≤ excess c ∧ excess c ≤ 55 := by
  unfold excess
  split <;> decide

/-- Where the last digit has room, every digit before it has. -/
theorem room_cons (value : atoxValue c = some d) :
    Room atoxValue acc (c :: s) ↔ acc * 16 + d + excess c < 2^31 ∧ Room atoxValue (acc * 16 + d) s := by
  unfold Room
  rw [digits_cons value, readBy_cons value]
  rcases more : digits atoxValue s with _ | ⟨e, others⟩
  · rw [readBy_of_no_digits more]
    simp
  · have grown : (acc * 16 + d) * 16 ≤ readBy 16 atoxValue (acc * 16 + d) s :=
      mul_le_readBy (by decide) (by simp [more])
    have near := excess_range c
    rw [List.getLast?_cons_cons]
    constructor
    · intro room
      refine ⟨?_, room⟩
      have last := room _ (List.getLast?_eq_some_getLast (by simp))
      have far := excess_range ((e :: others).getLast (by simp))
      omega
    · exact And.right

theorem atoxLoop_checked :
    atoxLoop checked acc s = some v ↔ Room atoxValue acc s ∧ v = readBy 16 atoxValue acc s := by
  induction s generalizing acc with
  | nil => simp [atoxLoop, Room, digits, readBy, eq_comm]
  | cons c rest ih =>
    rcases value : atoxValue c with _ | d
    · rw [atoxLoop_stop value, readBy_stop value, Room, digits_stop value]
      simp [eq_comm]
    · rw [atoxLoop_cons value, room_cons value, readBy_cons value, Option.bind_eq_some_iff]
      constructor
      · rintro ⟨next, digit, looped⟩
        obtain ⟨room, rfl⟩ := (atoxDigit_checked value).mp digit
        obtain ⟨others, result⟩ := ih.mp looped
        exact ⟨⟨room, others⟩, result⟩
      · rintro ⟨⟨room, others⟩, result⟩
        exact ⟨_, (atoxDigit_checked value).mpr ⟨room, rfl⟩, ih.mpr ⟨others, result⟩⟩

theorem wrapped_eq (exact : Int) : ∃ v, wrapped exact = some v ∧ v ≡ exact [ZMOD 2^32] :=
  ⟨_, rfl, Int.bmod_emod⟩

theorem atoxDigit_wrapped (value : atoxValue c = some d) (v : Int) :
    ∃ next, atoxDigit wrapped v c = some next ∧ next ≡ v * 16 + d [ZMOD 2^32] := by
  obtain ⟨shifted, shift, first⟩ := wrapped_eq (v * 16)
  unfold atoxDigit
  rcases atoxValue_cases value with ⟨digit, code, _⟩ | ⟨other, _, code, _⟩
  · obtain ⟨coded, sum, second⟩ := wrapped_eq (shifted + c.toNat)
    obtain ⟨next, difference, third⟩ := wrapped_eq (coded - '0'.toNat)
    refine ⟨next, ?_, ?_⟩
    · rw [if_pos digit]
      exact Option.bind_eq_some_iff.mpr ⟨shifted, shift, Option.bind_eq_some_iff.mpr ⟨coded, sum, difference⟩⟩
    · unfold Int.ModEq at *
      have zero : ('0'.toNat : Int) = 48 := rfl
      omega
  · obtain ⟨coded, sum, second⟩ := wrapped_eq (shifted + (c.toNat &&& 0x5F : Nat))
    obtain ⟨lowered, difference, third⟩ := wrapped_eq (coded - 'A'.toNat)
    obtain ⟨next, ten, fourth⟩ := wrapped_eq (lowered + 10)
    refine ⟨next, ?_, ?_⟩
    · rw [if_neg (by simp [other])]
      exact Option.bind_eq_some_iff.mpr ⟨shifted, shift, Option.bind_eq_some_iff.mpr
        ⟨coded, sum, Option.bind_eq_some_iff.mpr ⟨lowered, difference, ten⟩⟩⟩
    · unfold Int.ModEq at *
      have first : ('A'.toNat : Int) = 65 := rfl
      omega

theorem atoxLoop_wrapped (congruent : v ≡ acc [ZMOD 2^32]) :
    ∃ last, atoxLoop wrapped v s = some last ∧ last ≡ readBy 16 atoxValue acc s [ZMOD 2^32] := by
  induction s generalizing v acc with
  | nil => exact ⟨v, rfl, congruent⟩
  | cons c rest ih =>
    rcases value : atoxValue c with _ | d
    · exact ⟨v, atoxLoop_stop value, by rwa [readBy_stop value]⟩
    · obtain ⟨next, digit, step⟩ := atoxDigit_wrapped value v
      have congruent' : next ≡ (acc * 16 + d : Nat) [ZMOD 2^32] := by
        refine step.trans ?_
        push_cast
        exact (congruent.mul_right 16).add_right d
      obtain ⟨last, looped, result⟩ := ih congruent'
      exact ⟨last, by rw [atoxLoop_cons value, digit]; exact looped, by rwa [readBy_cons value]⟩

theorem room_lt (room : Room atoxValue 0 s) : readBy 16 atoxValue 0 s < 2^31 := by
  rcases last : (digits atoxValue s).getLast? with _ | c
  · rw [readBy_of_no_digits (List.getLast?_eq_none_iff.mp last)]
    decide
  · have bound := room c (by rw [last]; rfl)
    omega

theorem mangoNuplusAtox_checked {x : BitVec 32} :
    mangoNuplusAtox checked s = some x ↔ Room atoxValue 0 (behindSign s) ∧
      x = BitVec.ofInt 32 (withSign (negative s) (readBy 16 atoxValue 0 (behindSign s))) := by
  rw [mangoNuplusAtox_eq, Option.bind_eq_some_iff]
  have signed : ∀ v : Int, 0 ≤ v → v < 2^31 →
      (if negative s then checked (-v) else some v) = some (withSign (negative s) v) := by
    intro v low high
    unfold withSign
    split
    · exact checked_eq_some.mpr ⟨by omega, by omega, rfl⟩
    · rfl
  constructor
  · rintro ⟨v, looped, result⟩
    obtain ⟨room, rfl⟩ := atoxLoop_checked.mp looped
    rw [signed _ (Int.natCast_nonneg _) (by exact_mod_cast room_lt room)] at result
    exact ⟨room, (Option.some.inj result).symm⟩
  · rintro ⟨room, rfl⟩
    refine ⟨_, atoxLoop_checked.mpr ⟨room, rfl⟩, ?_⟩
    rw [signed _ (Int.natCast_nonneg _) (by exact_mod_cast room_lt room)]
    rfl

theorem ofInt_eq_iff {x y : Int} : BitVec.ofInt 32 x = BitVec.ofInt 32 y ↔ x ≡ y [ZMOD 2^32] := by
  unfold Int.ModEq
  rw [← BitVec.toNat_inj, BitVec.toNat_ofInt, BitVec.toNat_ofInt]
  omega

theorem withSign_modEq (negative : Bool) {x y : Int} :
    withSign negative x ≡ withSign negative y [ZMOD 2^32] ↔ x ≡ y [ZMOD 2^32] := by
  unfold withSign Int.ModEq
  split <;> omega

theorem mangoNuplusAtox_wrapped (s : List Char) :
    mangoNuplusAtox wrapped s =
      some (BitVec.ofInt 32 (withSign (negative s) (readBy 16 atoxValue 0 (behindSign s)))) := by
  obtain ⟨v, looped, congruent⟩ := @atoxLoop_wrapped 0 0 (behindSign s) (Int.ModEq.refl 0)
  rw [mangoNuplusAtox_eq, looped, Option.bind_some]
  cases sign : negative s with
  | false => exact congrArg some (ofInt_eq_iff.mpr congruent)
  | true =>
    obtain ⟨opposite, negated, same⟩ := wrapped_eq (-v)
    rw [if_pos rfl, negated]
    exact congrArg some (ofInt_eq_iff.mpr (same.trans congruent.neg))

end Loop

section Agreement

variable {w acc : Nat} {s t : List Char}

/-- No letter stands behind the hexadecimal digits: not the x of a prefix and none from g to z. -/
def LetterFree (t : List Char) : Prop := ∀ c ∈ (behind hexValue t).head?, c.isAlpha = false

instance (t : List Char) : Decidable (LetterFree t) := Option.decidableForallMem _

theorem letterFree_iff : LetterFree t ↔ digits atoxValue (behind hexValue t) = [] := by
  unfold LetterFree
  rcases text : behind hexValue t with _ | ⟨c, rest⟩
  · simp [digits]
  · rcases value : atoxValue c with _ | d
    · have other : c.isAlpha = false := by
        rw [Bool.eq_false_iff]
        intro alphabetic
        cases value.symm.trans (atoxValue_letter alphabetic)
      simp [digits_stop value, other]
    · have alphabetic := (atoxValue_of_stop (value_of_behind text) value).1
      simp [digits_cons value, alphabetic]

theorem readBy_of_letterFree (free : LetterFree t) :
    readBy 16 atoxValue acc t = readBy 16 hexValue acc t := by
  rw [readBy_behind atoxValue_extends, readBy_of_no_digits (letterFree_iff.mp free)]

theorem room_of_letterFree (free : LetterFree t) : Room atoxValue acc t ↔ Room hexValue acc t := by
  unfold Room
  rw [digits_behind atoxValue_extends, letterFree_iff.mp free, List.append_nil, readBy_of_letterFree free]

theorem prefix_value {x : Char} (cross : x = 'x' ∨ x = 'X') :
    hexValue x = none ∧ x.isAlpha = true ∧ atoxValue x = some 33 := by
  rcases cross with rfl | rfl <;> decide

theorem letterFree_prefixed {x : Char} {rest : List Char} (cross : x = 'x' ∨ x = 'X') :
    ¬ LetterFree ('0' :: x :: rest) := by
  obtain ⟨stop, alphabetic, _⟩ := prefix_value cross
  intro free
  have zero : hexValue '0' = some 0 := rfl
  have none_ := free x (by rw [behind_cons zero, behind_stop stop]; rfl)
  rw [alphabetic] at none_
  cases none_

theorem readBy_prefixed {x : Char} {rest : List Char} (cross : x = 'x' ∨ x = 'X') :
    readBy 16 atoxValue 0 ('0' :: x :: rest) = readBy 16 atoxValue 33 rest := by
  obtain ⟨_, _, value⟩ := prefix_value cross
  have zero : atoxValue '0' = some 0 := rfl
  rw [readBy_cons zero, readBy_cons value]

theorem skipPrefix_of_letterFree (free : LetterFree t) : skipPrefix t = t := by
  rcases skipPrefix_cases t with same | ⟨x, rest, cross, rfl, _⟩
  · exact same
  · exact absurd free (letterFree_prefixed cross)

theorem magnitude_of_letterFree (free : LetterFree t) : magnitude t = readBy 16 atoxValue 0 t := by
  rw [magnitude, skipPrefix_of_letterFree free, readHex_eq, readBy_of_letterFree free]

/-- A letter behind the digits makes the loop read more than `strtol` does. -/
theorem magnitude_lt (letter_ : ¬ LetterFree t) : magnitude t < readBy 16 atoxValue 0 t := by
  rcases skipPrefix_cases t with same | ⟨x, rest, cross, rfl, same⟩
  · rw [magnitude, same, readHex_eq, readBy_behind atoxValue_extends]
    rcases text : behind hexValue t with _ | ⟨c, rest⟩
    · exact absurd (letterFree_iff.mpr (by rw [text]; rfl)) letter_
    · rcases value : atoxValue c with _ | d
      · exact absurd (letterFree_iff.mpr (by rw [text, digits_stop value])) letter_
      · rw [readBy_cons value]
        have large := (atoxValue_of_stop (value_of_behind text) value).2
        have more : readBy 16 hexValue 0 t * 16 + d ≤
            readBy 16 atoxValue (readBy 16 hexValue 0 t * 16 + d) rest := le_readBy (by decide)
        omega
  · rw [magnitude, same, readHex_eq, readBy_prefixed cross]
    calc readBy 16 hexValue 0 rest < readBy 16 hexValue 33 rest := readBy_lt_readBy (by decide) (by decide)
      _ ≤ readBy 16 atoxValue 33 rest := readBy_le_readBy (by decide) atoxValue_extends

theorem magnitude_le (t : List Char) : magnitude t ≤ readBy 16 atoxValue 0 t := by
  by_cases free : LetterFree t
  · exact le_of_eq (magnitude_of_letterFree free)
  · exact le_of_lt (magnitude_lt free)

theorem strtol_of_small (long : 32 ≤ w) (small : magnitude (behindSign s) < 2^31) :
    strtol w s = withSign (negative s) (magnitude (behindSign s)) := by
  have wide : (2 : Int)^31 ≤ 2^(w - 1) := by
    exact_mod_cast Nat.pow_le_pow_right (by decide) (by omega)
  rw [strtol_eq]
  unfold withSign
  split <;> exact saturate_of_lt (by omega) (by omega)

theorem checked_agrees (long : 32 ≤ w) :
    mangoNuplusAtox checked s = some (BitVec.ofInt 32 (strtol w s)) ↔
      LetterFree (behindSign s) ∧ Room hexValue 0 (behindSign s) := by
  rw [mangoNuplusAtox_checked]
  constructor
  · rintro ⟨room, same⟩
    have bound := room_lt room
    have below := magnitude_le (behindSign s)
    rw [strtol_of_small long (by omega), ofInt_eq_iff, withSign_modEq] at same
    have exact_ : magnitude (behindSign s) = readBy 16 atoxValue 0 (behindSign s) := by
      unfold Int.ModEq at same
      omega
    have free : LetterFree (behindSign s) := by
      by_contra letter_
      exact absurd exact_ (ne_of_lt (magnitude_lt letter_))
    exact ⟨free, (room_of_letterFree free).mp room⟩
  · rintro ⟨free, room⟩
    have room' := (room_of_letterFree free).mpr room
    have exact_ := magnitude_of_letterFree free
    refine ⟨room', ?_⟩
    rw [strtol_of_small long (by rw [exact_]; exact room_lt room'), exact_]

theorem wrapped_agrees (long : 32 ≤ w) (small : magnitude (behindSign s) < 2^31) :
    mangoNuplusAtox wrapped s = some (BitVec.ofInt 32 (strtol w s)) ↔
      readBy 16 atoxValue 0 (behindSign s) ≡ magnitude (behindSign s) [MOD 2^32] := by
  rw [mangoNuplusAtox_wrapped, Option.some_inj, strtol_of_small long small, ofInt_eq_iff, withSign_modEq]
  exact_mod_cast Int.natCast_modEq_iff

/-- Up to seven letters and digits stay below 2^32, whatever letters they are. -/
theorem readBy_lt_of_short (short : (digits atoxValue t).length ≤ 7) :
    readBy 16 atoxValue 0 t + 3 ≤ 3 * 16^7 := by
  calc readBy 16 atoxValue 0 t + 3 ≤ (0 + 3) * 16 ^ (digits atoxValue t).length :=
        readBy_add_le atoxValue_le
    _ ≤ 3 * 16^7 := Nat.mul_le_mul_left 3 (Nat.pow_le_pow_right (by decide) short)

theorem wrapped_agrees_short (long : 32 ≤ w) (short : (digits atoxValue (behindSign s)).length ≤ 7) :
    mangoNuplusAtox wrapped s = some (BitVec.ofInt 32 (strtol w s)) ↔ LetterFree (behindSign s) := by
  have bound := readBy_lt_of_short short
  have below := magnitude_le (behindSign s)
  rw [wrapped_agrees long (by omega)]
  constructor
  · intro same
    by_contra letter_
    have above := magnitude_lt letter_
    unfold Nat.ModEq at same
    omega
  · intro free
    rw [magnitude_of_letterFree free]

theorem cross_weight (n r : Nat) : 33 * 16^n + r ≡ r [MOD 2^32] ↔ 8 ≤ n := by
  have odd : Nat.Coprime (2^32) 33 := Nat.Coprime.pow_left 32 (by decide)
  have nibbles : 16^n = 2^(4 * n) := by rw [Nat.pow_mul]
  calc 33 * 16^n + r ≡ r [MOD 2^32] ↔ 2^32 ∣ 33 * 16^n := Nat.add_modEq_right_iff
    _ ↔ 2^32 ∣ 2^(4 * n) := by rw [nibbles, odd.dvd_mul_left]
    _ ↔ 32 ≤ 4 * n := Nat.pow_dvd_pow_iff_le_right (by decide)
    _ ↔ 8 ≤ n := by omega

/-- Behind a prefix the digit 33 of the x stays in the result, until eight digits have moved it out
    of the word. -/
theorem wrapped_agrees_prefixed (long : 32 ≤ w) (small : magnitude (behindSign s) < 2^31)
    (free : LetterFree (skipPrefix (behindSign s))) :
    mangoNuplusAtox wrapped s = some (BitVec.ofInt 32 (strtol w s)) ↔
      skipPrefix (behindSign s) = behindSign s ∨
        8 ≤ (digits hexValue (skipPrefix (behindSign s))).length := by
  rw [wrapped_agrees long small]
  rcases skipPrefix_cases (behindSign s) with same | ⟨x, rest, cross, text, skipped⟩
  · rw [same] at free
    rw [magnitude_of_letterFree free]
    simp [same, Nat.ModEq]
  · rw [skipped] at free
    have longer : rest ≠ '0' :: x :: rest := fun same => by
      have lengths := congrArg List.length same
      rw [List.length_cons, List.length_cons] at lengths
      omega
    rw [magnitude, skipped, text, readBy_prefixed cross, readBy_of_letterFree free, readHex_eq, readBy_acc,
      cross_weight]
    simp only [longer, false_or]

/-- When the parser returns the low 32 bits of what `strtol` returns for a text. -/
structure Agreement (w : Nat) (s : List Char) : Prop where
  standard : mangoNuplusAtox checked s = some (BitVec.ofInt 32 (strtol w s)) ↔
    LetterFree (behindSign s) ∧ Room hexValue 0 (behindSign s)
  short : ((behindSign s).takeWhile Char.isAlphanum).length ≤ 7 →
    (mangoNuplusAtox wrapped s = some (BitVec.ofInt 32 (strtol w s)) ↔ LetterFree (behindSign s))
  wraparound : magnitude (behindSign s) < 2^31 → LetterFree (skipPrefix (behindSign s)) →
    (mangoNuplusAtox wrapped s = some (BitVec.ofInt 32 (strtol w s)) ↔
      skipPrefix (behindSign s) = behindSign s ∨ 8 ≤ (digits hexValue (skipPrefix (behindSign s))).length)

theorem digits_atox (t : List Char) : digits atoxValue t = t.takeWhile Char.isAlphanum := by
  have same : (fun c => (atoxValue c).isSome) = Char.isAlphanum := by
    funext c
    have decimal_eq : decimal c = c.isDigit := by
      rw [Bool.eq_iff_iff, decimal_iff]
      simp [Char.isDigit, UInt32.le_iff_toNat_le]
    rw [atoxValue_isSome, letter_eq, decimal_eq, Char.isAlphanum]
  rw [digits, same]

theorem agreement (long : 32 ≤ w) (s : List Char) : Agreement w s where
  standard := checked_agrees long
  short short := wrapped_agrees_short long (by rwa [digits_atox])
  wraparound small free := wrapped_agrees_prefixed long small free

end Agreement

section Tokens

variable {arg : Arg} {value n : Nat}

/-- Whether the host writes the argument behind a 0x. -/
def Arg.marked : Arg → Bool
  | .scalar _ _ => false
  | .buffer _ _ | .event _ _ => true

/-- When the parser reads back what the host has written for an argument. -/
structure ReadBack (arg : Arg) (value : Nat) : Prop where
  standard : mangoNuplusAtox checked (' ' :: arg.token value) = some (BitVec.ofNat 32 value) ↔
    Arg.marked arg = false ∧ value + (if value % 16 < 10 then 48 else 55) < 2^31
  wraparound : mangoNuplusAtox wrapped (' ' :: arg.token value) = some (BitVec.ofNat 32 value) ↔
    Arg.marked arg = false ∨ 2^28 ≤ value

theorem letterFree_toDigits (n : Nat) : LetterFree (Nat.toDigits 16 n) := by
  rw [LetterFree, behind_of_all (toDigits_hex n)]
  simp

theorem excess_digitChar {d : Nat} (small : d < 16) :
    excess (Nat.digitChar d) = if d < 10 then 48 else 55 := by
  interval_cases d <;> decide

theorem room_toDigits (n : Nat) :
    Room hexValue 0 (Nat.toDigits 16 n) ↔ n + (if n % 16 < 10 then 48 else 55) < 2^31 := by
  rw [Room, digits_of_all (toDigits_hex n), getLast?_toDigits, ← readHex_eq, readHex_toDigits]
  simp [excess_digitChar (Nat.mod_lt n (show 0 < 16 by decide))]

theorem behindSign_token (arg : Arg) (value : Nat) :
    behindSign (' ' :: arg.token value) = arg.token value ∧ negative (' ' :: arg.token value) = false := by
  rw [behindSign_blank, negative_blank]
  cases arg with
  | scalar =>
    obtain ⟨c, rest, text, digit⟩ := toDigits_cons value
    rw [Arg.token, text]
    exact behindSign_of_digit digit
  | buffer => exact behindSign_of_digit rfl
  | event => exact behindSign_of_digit rfl

theorem strtol_written (small : value < 2^31) :
    BitVec.ofInt 32 (strtol 32 (' ' :: arg.token value)) = BitVec.ofNat 32 value := by
  obtain ⟨text, sign⟩ := behindSign_token arg value
  rw [strtol_of_small (by decide) (by rwa [text, magnitude_token]), text, sign, magnitude_token]
  exact BitVec.ofInt_natCast 32 value

theorem skipPrefix_token (arg : Arg) (value : Nat) :
    skipPrefix (arg.token value) = Nat.toDigits 16 value := by
  cases arg with
  | scalar => exact skipPrefix_of_letterFree (letterFree_toDigits value)
  | buffer => rfl
  | event => rfl

theorem letterFree_token (arg : Arg) (value : Nat) :
    LetterFree (arg.token value) ↔ Arg.marked arg = false := by
  cases arg with
  | scalar => exact iff_of_true (letterFree_toDigits value) rfl
  | buffer => exact iff_of_false (letterFree_prefixed (.inl rfl)) (by simp [Arg.marked])
  | event => exact iff_of_false (letterFree_prefixed (.inl rfl)) (by simp [Arg.marked])

theorem skipPrefix_token_eq (arg : Arg) (value : Nat) :
    skipPrefix (arg.token value) = arg.token value ↔ Arg.marked arg = false := by
  constructor
  · intro same
    rw [skipPrefix_token] at same
    rw [← letterFree_token arg value, ← same]
    exact letterFree_toDigits value
  · intro unmarked
    exact skipPrefix_of_letterFree ((letterFree_token arg value).mpr unmarked)

theorem room_token (unmarked : Arg.marked arg = false) :
    Room hexValue 0 (arg.token value) ↔ value + (if value % 16 < 10 then 48 else 55) < 2^31 := by
  rw [← (skipPrefix_token_eq arg value).mpr unmarked, skipPrefix_token]
  exact room_toDigits value

theorem readBack (small : value < 2^31) : ReadBack arg value := by
  obtain ⟨text, _⟩ := behindSign_token arg value
  constructor
  · rw [← strtol_written small, checked_agrees (by decide), text, letterFree_token]
    exact and_congr_right room_token
  · have long : 8 ≤ (Nat.toDigits 16 value).length ↔ 2^28 ≤ value := by
      have short := Nat.length_toDigits_le_iff (n := value) (show 1 < 16 by decide) (show 0 < 7 by decide)
      omega
    have free : LetterFree (skipPrefix (behindSign (' ' :: arg.token value))) := by
      rw [text, skipPrefix_token]
      exact letterFree_toDigits value
    have bounded : magnitude (behindSign (' ' :: arg.token value)) < 2^31 := by rwa [text, magnitude_token]
    rw [← strtol_written small, wrapped_agrees_prefixed (by decide) bounded free, text, skipPrefix_token_eq, skipPrefix_token, digits_of_all (toDigits_hex value), long]

/-- The parser takes the x of a prefix, and every letter behind the digits, for a digit of its own. -/
theorem mangoNuplusAtox_strtol {w : Nat} (long : 32 ≤ w) :
    (∀ s, Agreement w s) ∧
      (∀ (arg : Arg) (value : Nat), value < 2^31 → ReadBack arg value) ∧
      ∀ (tlb : Tlb) (kernel : Kernel) (arguments : List Arg) (ka : KernelArguments)
        (gnemu : Option (List (List Nat))) (arch : UnitType) (text : List Char),
        KernelArguments.setup tlb arguments kernel = some ka → ka.getArguments gnemu arch = some text →
          ∃ ss valued, KernelArguments.beginning gnemu arch kernel = some ss ∧
            text = ss.text ++ (tokens valued).flatMap (' ' :: ·) ∧ ka.args = valued.map Prod.fst ∧
              ∀ p ∈ valued, p.1.getValue = some p.2 := by
  refine ⟨agreement long, fun arg value => readBack, ?_⟩
  intro tlb kernel arguments ka gnemu arch text built printed
  exact getArguments_spec (setup_spec built) printed

/-- A signed text, and the address 0xa000 of a buffer, which does not come back. -/
theorem mangoNuplusAtox_strtol_signed :
    mangoNuplusAtox checked [' ', '-', '7', 'f', ' '] = some (BitVec.ofInt 32 (-127)) ∧
      mangoNuplusAtox wrapped (' ' :: Arg.token (.buffer 10 none) 40960) ≠ some (BitVec.ofNat 32 40960) ∧
      ∃ ss valued, KernelArguments.beginning none .PEAK plainKernel = some ss ∧
        "x 0x1000 0x2000 0x3000 0x4000 0xa000 ff".toList =
          ss.text ++ (tokens valued).flatMap (' ' :: ·) := by
  obtain ⟨agree, back, emitted⟩ := mangoNuplusAtox_strtol (w := 64) (by decide)
  refine ⟨(agree [' ', '-', '7', 'f', ' ']).standard.mpr (by decide), ?_, ?_⟩
  · rw [ne_eq, (back (.buffer 10 none) 40960 (by decide)).wraparound]
    decide
  · obtain ⟨ss, valued, begun, text, _⟩ :=
      emitted plainTlb plainKernel [.buffer 10 none, .scalar .int 255] _ none .PEAK _ rfl rfl
    exact ⟨ss, valued, begun, text⟩

/-- "0x10" is read as 8464 instead of 16, and "1g" as 32 instead of 1. -/
theorem mangoNuplusAtox_ne_strtol :
    ¬ (∀ s, magnitude (behindSign s) < 2^31 →
        mangoNuplusAtox wrapped s = some (BitVec.ofInt 32 (strtol 64 s))) ∧
      (strtol 64 ['0', 'x', '1', '0'] = 16 ∧ mangoNuplusAtox wrapped ['0', 'x', '1', '0'] = some 8464 ∧
        mangoNuplusAtox checked ['0', 'x', '1', '0'] = some 8464) ∧
      strtol 64 ['1', 'g'] = 1 ∧ mangoNuplusAtox wrapped ['1', 'g'] = some 32 ∧
        mangoNuplusAtox checked ['1', 'g'] = some 32 := by
  refine ⟨fun agrees => ?_, by decide, by decide⟩
  exact absurd (agrees ['0', 'x', '1', '0'] (by decide)) (by decide)

end Tokens

end MangoModel.Device
