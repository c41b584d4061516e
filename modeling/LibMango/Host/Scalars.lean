import LibMango.Host.Arguments
import LibMango.Host.Context
import Mathlib.Tactic.Ring

namespace MangoModel.Host

open Numeral Device

section Memory

def load (mem : Nat → UInt8) : Nat → Nat
  | 0 => 0
  | size + 1 => load mem size + (mem size).toNat * 256^size

def bytes (v : Int) (i : Nat) : UInt8 := UInt8.ofNat (v / 256^i % 256).toNat

inductive ArgumentType where
  | NONE
  | FIFO
  | BUFFER
  | SCALAR
  | EVENT
  deriving DecidableEq, Repr

/-- A scalar of one of the sizes that are told apart. -/
def scalarArg (mem : Nat → UInt8) : Nat → Option Arg
  | 8 => some (.ofInt .unsignedInt (uint32 (load mem 8)))
  | 4 => some (.ofInt .unsignedInt (load mem 4))
  | 2 => some (.ofInt .unsignedShort (load mem 2))
  | 1 => some (.ofInt .unsignedChar (load mem 1))
  | _ => none

/-- `mem` is what `value` points to; `none` where an assertion fails or a map lacks an id. -/
def mangoArg (cxt : Context) (kernel : Nat) (mem : Nat → UInt8) (size : Nat) (t : ArgumentType) :
    Option Arg := do
  let _ ← cxt.kernels[kernel]?
  match t with
  | .SCALAR => scalarArg mem size
  | .EVENT => cxt.events[load mem 4]?.map Arg.ofEvent
  | .BUFFER | .FIFO => cxt.buffers[load mem 4]?.map Arg.ofBuffer
  | .NONE => none

end Memory

section Types

structure IntType where
  signed : Bool
  bits : Nat
  deriving DecidableEq, Repr

namespace IntType

def Contains (t : IntType) (v : Int) : Prop :=
  if t.signed then -2^(t.bits - 1) ≤ v ∧ v < 2^(t.bits - 1) else 0 ≤ v ∧ v < 2^t.bits

instance (t : IntType) (v : Int) : Decidable (t.Contains v) := by
  unfold Contains
  infer_instance

/-- What an assignment to a variable of the type leaves of a value. -/
def convert (t : IntType) (v : Int) : Int := if t.signed then v.bmod (2^t.bits) else v % 2^t.bits

end IntType

/-- The integer types among the parameter types, where a `long` has `w` bits. -/
def intType (w : Nat) : ParamType → Option IntType
  | .int | .signedInt | .int32 => some ⟨true, 32⟩
  | .unsignedInt | .uint32 => some ⟨false, 32⟩
  | .long | .signedLong => some ⟨true, w⟩
  | .unsignedLong => some ⟨false, w⟩
  | _ => none

/-- What the entry point passes for a parameter of an integer type. -/
def passedValue (w : Nat) (arch : UnitType) (kargs : List ParamType) (argv : List (List Char)) (j : Nat) :
    Option Int := do
  let (a, i) ← (← (genKernelEntry arch kargs)[j]?)
  let type ← intType w a
  let v ← argument w argv i
  return type.convert v

end Types

section Scalars

variable {w : Nat} {type : IntType} {v : Int} {param : ParamType}

theorem intType_cases (integer : intType w param = some type) : type.bits = 32 ∨ type.bits = w := by
  cases param <;> simp [intType] at integer <;> simp [← integer]

theorem scalarArg_value {mem : Nat → UInt8} {size : Nat} {arg : Arg} (made : scalarArg mem size = some arg) :
    ∃ scalar, arg = .scalar scalar (uint32 (load mem size)) := by
  unfold scalarArg at made
  split at made
  · cases made
    refine ⟨.unsignedInt, ?_⟩
    simp only [Arg.ofInt, uint32, Arg.scalar.injEq, true_and]
    omega
  · cases made
    exact ⟨.unsignedInt, by simp only [Arg.ofInt, uint32, Arg.scalar.injEq, true_and]; omega⟩
  · cases made
    exact ⟨.unsignedShort, by simp only [Arg.ofInt, uint32, Arg.scalar.injEq, true_and]; omega⟩
  · cases made
    exact ⟨.unsignedChar, by simp only [Arg.ofInt, uint32, Arg.scalar.injEq, true_and]; omega⟩
  · cases made

/-- Which values of a type come through the cast to 32 bits, the text and `strtol`. -/
def Keeps (w : Nat) (type : IntType) (v : Int) : Prop :=
  if w = 32 then 0 ≤ v ∧ v < 2^31 else type.bits = 32 ∨ 0 ≤ v ∧ v < 2^32

theorem convert_saturate_iff (width : w = 32 ∨ w = 64) (bits : type.bits = 32 ∨ type.bits = w)
    (inside : type.Contains v) :
    type.convert (saturate w (v % 2^32)) = v ↔ Keeps w type v := by
  rcases type with ⟨signed, n⟩
  simp only at bits
  rcases width with rfl | rfl
  · obtain rfl : n = 32 := by omega
    cases signed
    · simp [IntType.Contains, IntType.convert, saturate, Keeps] at *
      omega
    · simp [IntType.Contains, IntType.convert, saturate, Keeps, Int.bmod] at *
      omega
  · rcases bits with rfl | rfl
    · cases signed
      · simp [IntType.Contains, IntType.convert, saturate, Keeps] at *
        omega
      · simp [IntType.Contains, IntType.convert, saturate, Keeps, Int.bmod] at *
        omega
    · cases signed
      · simp [IntType.Contains, IntType.convert, saturate, Keeps] at *
        omega
      · simp [IntType.Contains, IntType.convert, saturate, Keeps, Int.bmod] at *
        omega

theorem load_bytes {mem : Nat → UInt8} {size : Nat} (held : ∀ i < size, mem i = bytes v i) :
    (load mem size : Int) = v % 256^size := by
  induction size with
  | zero => simp [load]
  | succ size low =>
    have byte : ((mem size).toNat : Int) = v / 256^size % 256 := by
      rw [held size (Nat.lt_succ_self size)]
      simp only [bytes, UInt8.toNat_ofNat']
      omega
    have parts : v / 256^size / 256 = v / (256^size * 256) :=
      Int.ediv_ediv_of_nonneg (Int.pow_nonneg (by decide))
    rw [load, Int.natCast_add, Int.natCast_mul, low fun i below => held i (Nat.lt_succ_of_lt below), byte,
      Int.pow_succ, Int.emod_def, Int.emod_def, Int.emod_def, parts]
    push_cast
    ring

/-- A scalar is passed on unchanged if and only if it comes through the cast to 32 bits and a signed
    `strtol`. -/
theorem scalar_kept_iff {arch : UnitType} {kargs : List ParamType} {j kid : Nat} {mem : Nat → UInt8}
    {cxt : Context} {arg : Arg} {arguments : List Arg} {tlb : Tlb} {kernel : Kernel} {ka : KernelArguments}
    {gnemu : Option (List (List Nat))} {text : List Char} (width : w = 32 ∨ w = 64)
    (integer : intType w param = some type) (inside : type.Contains v)
    (held : ∀ i < type.bits / 8, mem i = bytes v i)
    (made : mangoArg cxt kid mem (type.bits / 8) .SCALAR = some arg)
    (declared : kargs[j]? = some param) (given : arguments[j]? = some arg)
    (built : KernelArguments.setup tlb arguments kernel = some ka)
    (printed : ka.getArguments gnemu arch = some text) (emulated : arch = .GN → gnemu.isSome)
    (name : ∀ file, arch = .GN → kernel.kernel.version .GN = some file → ' ' ∉ file.toList) :
    passedValue w arch kargs (KernelArguments.argv text) j = some v ↔ Keeps w type v := by
  have bits := intType_cases integer
  obtain ⟨_, _, made⟩ := Option.bind_eq_some_iff.mp made
  obtain ⟨scalar, rfl⟩ := scalarArg_value made
  have value : (uint32 (load mem (type.bits / 8)) : Int) = v % 2^32 := by
    have whole := load_bytes held
    rcases width with rfl | rfl <;> rcases bits with bits | bits <;> rw [bits] at whole ⊢
    all_goals
      simp only [uint32, Nat.reduceDiv, Nat.reducePow, Int.reducePow] at whole ⊢
      omega
  obtain ⟨a', n, token, own⟩ := argv_at (setup_spec built) printed emulated name (i := 4 + j) (by
    rw [List.cons_append, Nat.add_comm, List.getElem?_cons_succ, List.getElem?_append_right
      (by simp [kernel.three])]
    simpa [kernel.three] using given)
  have four : 4 ≤ startIndex arch := by cases arch <;> decide
  rw [show startIndex arch - 4 + (4 + j) = startIndex arch + j by omega] at token
  obtain rfl := Option.some.inj own
  have declaration : (genKernelEntry arch kargs)[j]? = some (some (param, startIndex arch + j)) := by
    rw [genKernelEntry, declarations_get declared]
    cases param <;> first | rfl | cases integer
  have passed : passedValue w arch kargs (KernelArguments.argv text) j =
      some (type.convert (saturate w (v % 2^32))) := by
    rw [passedValue, declaration]
    simp only [Option.bind_eq_bind, Option.bind_some, integer, argument, token, Option.map_some,
      strtol_token, value]
    rfl
  rw [passed, Option.some.injEq]
  exact convert_saturate_iff width bits inside

def plainContext : Context := ⟨(∅ : IdMap Kernel).insert 1 plainKernel, ∅, ∅⟩

theorem scalar_kept_byte :
    passedValue 32 .PEAK [.int] (KernelArguments.argv "x 0x1000 0x2000 0x3000 0x4000 ff".toList) 0 = some 255 ↔
      Keeps 32 ⟨true, 32⟩ 255 := by
  have made : mangoArg plainContext 1 (bytes 255) 4 .SCALAR = some (.scalar .unsignedInt 255) := by decide
  have built : KernelArguments.setup plainTlb [.scalar .unsignedInt 255] plainKernel = some _ := rfl
  exact scalar_kept_iff (.inl rfl) rfl (by decide) (fun _ _ => rfl) made rfl rfl built
    (show KernelArguments.getArguments none .PEAK _ = some _ from rfl) (by simp) (by simp)

/-- A negative `int` reaches a PEAK unit as the greatest one. -/
theorem scalar_negative_int : ∃ arg ka text, mangoArg plainContext 1 (bytes (-1)) 4 .SCALAR = some arg ∧
    KernelArguments.setup plainTlb [arg] plainKernel = some ka ∧ ka.getArguments none .PEAK = some text ∧
    passedValue 32 .PEAK [.int] (KernelArguments.argv text) 0 = some (2^31 - 1) :=
  ⟨.scalar .unsignedInt (2^32 - 1), _, _, by decide, rfl, rfl, by decide⟩

end Scalars

end MangoModel.Host
