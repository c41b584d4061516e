import LibMango.Host.Graph
import LibMango.Numeral.Hex

namespace MangoModel.Device

open Host Numeral

section Generator

/-- The parameter types that `mango_gen_kernel_entry.py` tells apart. -/
inductive ParamType where
  | pointer
  | mangoEvent
  | int
  | unsignedInt
  | signedInt
  | long
  | signedLong
  | unsignedLong
  | int32
  | uint32
  | float
  | double
  | other
  deriving DecidableEq, Repr

/-- What the entry point declares for a parameter: its type and the index into `argv`. -/
def declaration (a : ParamType) (i : Nat) : Option (ParamType × Nat) :=
  match a with
  | .other => none
  | a => some (a, i)

def declarations (i : Nat) : List ParamType → List (Option (ParamType × Nat))
  | [] => []
  | a :: rest => declaration a i :: declarations (i + 1) rest

def startIndex (arch : UnitType) : Nat :=
  let i := 5
  let i := if arch = .GN then 6 else i
  if arch = .PEAK then 5 else i

def genKernelEntry (arch : UnitType) (kargs : List ParamType) : List (Option (ParamType × Nat)) :=
  declarations (startIndex arch) kargs

theorem declaration_known {a : ParamType} {i : Nat} (known : a ≠ .other) : declaration a i = some (a, i) := by
  cases a with
  | other => exact absurd rfl known
  | _ => rfl

theorem declarations_get {i j : Nat} {kargs : List ParamType} {a : ParamType}
    (param : kargs[j]? = some a) : (declarations i kargs)[j]? = some (declaration a (i + j)) := by
  induction kargs generalizing i j with
  | nil => simp at param
  | cons b rest ih =>
    cases j with
    | zero =>
      cases param
      rfl
    | succ j =>
      rw [declarations, List.getElem?_cons_succ, ih (i := i + 1) (j := j) param]
      congr 2
      omega

theorem genKernelEntry_get {arch : UnitType} {j : Nat} {kargs : List ParamType} {a : ParamType}
    (param : kargs[j]? = some a) (known : a ≠ .other) :
    (genKernelEntry arch kargs)[j]? = some (some (a, startIndex arch + j)) := by
  rw [genKernelEntry, declarations_get param, declaration_known known]

end Generator

section Init

structure ContextEvents where
  eventExit : Int
  eventA : Int
  eventB : Int
  eventR : Int
  deriving DecidableEq, Repr

variable (w : Nat) (argv : List (List Char))

def argument (i : Nat) : Option Int := argv[i]?.map (strtol w)

def mangoPeakInit : Option ContextEvents := do
  return ⟨← argument w argv 1, ← argument w argv 2, ← argument w argv 3, ← argument w argv 4⟩

/-- The memory size, and the words of the mapped memory that the events are. -/
def mangoGnInit : Option (Int × ContextEvents) := do
  let memorySize ← argument w argv 1
  let word i := (argument w argv i).map fun offset => offset.tdiv 4
  return (memorySize, ⟨← word 2, ← word 3, ← word 4, ← word 5⟩)

end Init

end MangoModel.Device
