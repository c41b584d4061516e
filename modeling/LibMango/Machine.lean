import LibMango.Interleave.Chart
import LibMango.Interleave.Custody

namespace MangoModel

open Interleave

def uint32 (n : Nat) : Nat := n % 2^32

theorem uint32_of_lt {n : Nat} (fits : n < 2^32) : uint32 n = n := Nat.mod_eq_of_lt fits

inductive MangoEventStatus where
  | LOCK
  | READ
  | WRITE
  | END_FIFO_OPERATION
  deriving DecidableEq, Repr

def MangoEventStatus.value : MangoEventStatus → Nat
  | .LOCK => 0
  | .READ => 1
  | .WRITE => 2
  | .END_FIFO_OPERATION => 3

inductive Dprint where
  | barrierReached (tid : Nat)
  | waitingRestart (tid : Nat)
  | reachedByAll
  | acquiringFifo
  | acquiredFifo (value : Nat)
  | waitingFifo
  | fifoComplete
  | barrierReset
  | threadsReleased
  | closingWorkgroup
  deriving DecidableEq, Repr

/-- The atomic operations of host and device on what they share. -/
inductive Op (ρ : Type) where
  | readSynchronization (e : ρ)
  | writeSynchronization (e : ρ) (value : Nat)
  | dprint (line : Dprint)
  | storeByte (addr byte : Nat)
  | loadByte (addr : Nat)
  | keepByte (offset byte : Nat)
  deriving DecidableEq, Repr

/-- The synchronization registers, the device memory and a buffer of the host, with the
    operations executed so far, the latest first. -/
structure Shared (ι ρ : Type) where
  regs : Custody ι ρ Nat
  memory : Nat → Nat
  host : Nat → Nat
  trace : List (ι × Op ρ)

variable {ι ρ : Type}

def Shared.start (values : ρ → Nat) (memory host : Nat → Nat) : Shared ι ρ :=
  ⟨⟨values, fun _ => none⟩, memory, host, []⟩

/-- GN registers: a write replaces the value. -/
def overwrite (_ value : Nat) : Nat := uint32 value

/-- The registers that the note on `mango_register_event` describes: a write adds to the value. -/
def accumulate (old value : Nat) : Nat := uint32 (old + value)

theorem overwrite_eq_accumulate (value : Nat) : overwrite 0 value = accumulate 0 value := by
  simp [overwrite, accumulate]

namespace Op

def access : Op ρ → Access ρ Nat
  | .readSynchronization e => .take e
  | .writeSynchronization e value => .put e value
  | _ => .none

def synchronizes : Op ρ → Bool
  | .readSynchronization _ | .writeSynchronization _ _ => true
  | _ => false

def written : Op ρ → Option ρ
  | .writeSynchronization e _ => some e
  | _ => none

def stores : Op ρ → Bool
  | .storeByte _ _ => true
  | _ => false

def loads : Op ρ → Bool
  | .loadByte _ => true
  | _ => false

def keeps : Op ρ → Bool
  | .keepByte _ _ => true
  | _ => false

def answer (s : Shared ι ρ) : Op ρ → Nat
  | .readSynchronization e => s.regs.value e
  | .loadByte addr => s.memory addr
  | _ => 0

def memoryAfter (memory : Nat → Nat) : Op ρ → Nat → Nat
  | .storeByte addr byte => Function.update memory addr byte
  | _ => memory

def hostAfter (host : Nat → Nat) : Op ρ → Nat → Nat
  | .keepByte offset byte => Function.update host offset byte
  | _ => host

end Op

/-- The register a program has to write before it reads another one. -/
def owes (p : Prog (Op ρ) Nat) : Option ρ := (p.firstOp Op.synchronizes).bind Op.written

def Shared.count (s : Shared ι ρ) (kind : Op ρ → Bool) : Nat := s.trace.countP fun event => kind event.2

variable [DecidableEq ρ]

/-- Party `i` executes an operation; `combine` says what a register write does. -/
def exec (combine : Nat → Nat → Nat) (i : ι) (a : Op ρ) (s : Shared ι ρ) : Nat × Shared ι ρ :=
  (a.answer s,
    { regs := s.regs.apply combine i a.access
      memory := a.memoryAfter s.memory
      host := a.hostAfter s.host
      trace := (i, a) :: s.trace })

variable (combine : Nat → Nat → Nat) (i : ι) (s : Shared ι ρ) (a : Op ρ)

@[simp] theorem exec_answer : (exec combine i a s).1 = a.answer s := rfl

@[simp] theorem exec_regs :
    (exec combine i a s).2.regs = s.regs.apply combine i a.access := rfl

@[simp] theorem exec_memory : (exec combine i a s).2.memory = a.memoryAfter s.memory := rfl

@[simp] theorem exec_host : (exec combine i a s).2.host = a.hostAfter s.host := rfl

@[simp] theorem exec_trace : (exec combine i a s).2.trace = (i, a) :: s.trace := rfl

@[simp] theorem exec_count (kind : Op ρ → Bool) :
    (exec combine i a s).2.count kind = s.count kind + if kind a then 1 else 0 := by
  simp [Shared.count, List.countP_cons]

theorem exec_value_other {e : ρ} (unread : a ≠ .readSynchronization e) (unwritten : a.written ≠ some e) :
    (exec combine i a s).2.regs.value e = s.regs.value e := by
  cases a with
  | readSynchronization f =>
    have other : e ≠ f := by rintro rfl; exact unread rfl
    exact s.regs.take_value_other i f other
  | writeSynchronization f v =>
    have other : e ≠ f := by rintro rfl; exact unwritten rfl
    exact s.regs.put_value_other f combine v other
  | _ => rfl

theorem put_overwrite {c : Custody ι ρ Nat} {e : ρ} {v : Nat} (fits : v < 2^32) :
    (c.put overwrite e v).value e = v := by
  simp [overwrite, uint32_of_lt fits]

theorem exec_overwrite_eq_accumulate
    (empty : ∀ e v, a = .writeSynchronization e v → s.regs.value e = 0) :
    exec overwrite i a s = exec accumulate i a s := by
  cases a with
  | writeSynchronization e v =>
    have same := Custody.put_congr s.regs e v (empty e v rfl) (overwrite_eq_accumulate v)
    simp only [exec, Op.access, Custody.apply, same]
  | _ => rfl

end MangoModel
