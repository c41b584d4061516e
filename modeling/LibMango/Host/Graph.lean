import Mathlib.Algebra.Order.Ring.Nat
import Mathlib.Data.List.Nodup
import Mathlib.Logic.Function.Basic

namespace MangoModel.Host

inductive UnitType where
  | PEAK
  | NUP
  | DCT
  | GN
  | GPU
  | ARM
  | STOP
  deriving DecidableEq, Repr

inductive FileType where
  | UNKNOWN_KERNEL_SOURCE_TYPE
  | BINARY
  | HARDWARE
  | STRING
  | SOURCE
  deriving DecidableEq, Repr

inductive BufferType where
  | FIFO
  | BUFFER
  deriving DecidableEq, Repr

inductive ExitCode where
  | SUCCESS
  | ERR_INVALID_VALUE
  | ERR_INVALID_TASK_ID
  | ERR_INVALID_KERNEL
  | ERR_FEATURE_NOT_IMPLEMENTED
  | ERR_INVALID_KERNEL_FILE
  | ERR_UNSUPPORTED_UNIT
  | ERR_OUT_OF_MEMORY
  | ERR_SEM_FAILED
  | ERR_MMAP_FAILED
  | ERR_FOPEN
  | ERR_OTHER
  deriving DecidableEq, Repr

section Functions

/-- The size `load` gives to the image of a kernel. -/
def imageSize : UnitType → Nat
  | .PEAK | .NUP => 2^28
  | .DCT => 1
  | _ => 0

/-- A kernel function: for each unit type the file it was loaded from and the size of its image,
    which nothing but `load` sets. -/
structure KernelFunction where
  version : UnitType → Option String
  size : UnitType → Option Nat
  loaded : Bool
  sized : ∀ unit n, size unit = some n → n = imageSize unit

namespace KernelFunction

/-- The keys of the maps, less the terminator. -/
def units : List UnitType := [.PEAK, .NUP, .DCT, .GN, .GPU, .ARM]

/-- `length`; `none` where its assertion fails. -/
def length (f : KernelFunction) : Option Nat :=
  let versions := units.countP fun unit => (f.version unit).isSome
  let sizes := units.countP fun unit => (f.size unit).isSome
  if versions = sizes then some versions else none

def empty : KernelFunction := ⟨fun _ => none, fun _ => none, false, by simp⟩

def setVersion (f : KernelFunction) (unit : UnitType) (file : String) : KernelFunction :=
  { f with version := Function.update f.version unit (some file) }

def setSize (f : KernelFunction) (unit : UnitType) : KernelFunction :=
  { f with
    size := Function.update f.size unit (some (imageSize unit))
    sized := by
      intro other n found
      by_cases same : other = unit
      · subst same
        rw [Function.update_self] at found
        exact (Option.some.inj found).symm
      · rw [Function.update_of_ne same] at found
        exact f.sized other n found }

variable (readable : String → Bool)

def loadBinary (unit : UnitType) (file : String) (f : KernelFunction) : ExitCode × KernelFunction :=
  if readable file then (.SUCCESS, (f.setVersion unit file).setSize unit)
  else (.ERR_INVALID_KERNEL_FILE, f.setVersion unit file)

def loadGn (file : String) (type : FileType) (f : KernelFunction) : ExitCode × KernelFunction :=
  match type with
  | .BINARY => f.loadBinary readable .GN file
  | .STRING | .SOURCE => (.ERR_FEATURE_NOT_IMPLEMENTED, f)
  | _ => (.ERR_INVALID_KERNEL_FILE, f)

def loadPeak (file : String) (type : FileType) (f : KernelFunction) : ExitCode × KernelFunction :=
  match type with
  | .BINARY => f.loadBinary readable .PEAK file
  | _ => (.ERR_INVALID_KERNEL_FILE, f)

def loadNuplus (file : String) (type : FileType) (f : KernelFunction) : ExitCode × KernelFunction :=
  match type with
  | .BINARY => f.loadBinary readable .NUP file
  | _ => (.ERR_INVALID_KERNEL_FILE, f)

/-- The maps are set before the file type is looked at. -/
def loadDct (file : String) (type : FileType) (f : KernelFunction) : ExitCode × KernelFunction :=
  let f := (f.setVersion .DCT file).setSize .DCT
  match type with
  | .HARDWARE => (.SUCCESS, f)
  | _ => (.ERR_INVALID_KERNEL_FILE, f)

def load (file : String) (unit : UnitType) (type : FileType) (f : KernelFunction) :
    ExitCode × KernelFunction :=
  let (res, f) := match unit with
    | .GN => f.loadGn readable file type
    | .PEAK => f.loadPeak readable file type
    | .DCT => f.loadDct file type
    | .NUP => f.loadNuplus readable file type
    | _ => (.ERR_UNSUPPORTED_UNIT, f)
  (res, if res = .SUCCESS then { f with loaded := true } else f)

end KernelFunction

end Functions

/-- `Unit` of the library: what a kernel is assigned to. -/
structure HwUnit where
  id : Nat
  arch : UnitType
  deriving DecidableEq, Repr

structure Event where
  id : Nat
  phyAddr : Nat
  kernelsIn : List Nat
  kernelsOut : List Nat
  clusterId : Nat
  deriving DecidableEq, Repr

structure Buffer where
  id : Nat
  size : Nat
  type : BufferType
  kernelsIn : List Nat
  kernelsOut : List Nat
  event : Event
  phyAddr : Nat
  memTile : Nat
  clusterId : Nat
  deriving DecidableEq, Repr

namespace Buffer

def isReadBy (b : Buffer) (kid : Nat) : Bool := b.kernelsOut.contains kid

def isReadByHost (b : Buffer) : Bool := b.isReadBy 0

end Buffer

/-- Its constructor makes three task events. -/
structure Kernel where
  id : Nat
  kernel : KernelFunction
  buffersIn : List Nat
  buffersOut : List Nat
  threadCount : Nat
  terminationEvent : Event
  taskEvents : List Event
  unit : Option HwUnit
  phyAddr : Nat
  memTile : Nat
  clusterId : Nat
  three : taskEvents.length = 3 := by rfl

/-- Kernels, buffers and events are the same object where their ids are the same. -/
structure TaskGraph where
  kernels : List Kernel
  buffers : List Buffer
  events : List Event

namespace TaskGraph

variable {tg : TaskGraph} {k : Kernel}

/-- `none` where the source dereferences the end of the vector. -/
def getKernelById (tg : TaskGraph) (id : Nat) : Option Kernel :=
  tg.kernels.find? fun k => k.id = id

theorem getKernelById_some {id : Nat} (found : tg.getKernelById id = some k) :
    k ∈ tg.kernels ∧ k.id = id :=
  ⟨List.mem_of_find?_eq_some found, by simpa using List.find?_some found⟩

end TaskGraph

end MangoModel.Host
