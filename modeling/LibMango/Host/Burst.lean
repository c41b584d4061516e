import LibMango.Host.Event

namespace MangoModel.Host

open Interleave Device

variable {ρ σ T : Type}

/-- What `synch_write` and `synch_read` use of a `FIFOBuffer`: the register of its event,
    its device address and its size, which is the size of a burst. -/
structure FifoBuffer (ρ : Type) where
  event : ρ
  phyAddr : Nat
  size : Nat

def storeBytes (addr : Nat) (bytes : Nat → Nat) (j : Nat) : Nat → Text ρ Unit
  | 0 => pure ()
  | rest + 1 => do
    let _ ← Code.perform (.storeByte (addr + j) (bytes j))
    storeBytes addr bytes (j + 1) rest

/-- `hn_write_memory` stores the given number of bytes at the given address. -/
def hnWriteMemory (addr size : Nat) (bytes : Nat → Nat) : Text ρ Unit := storeBytes addr bytes 0 size

def copyBytes (addr offset j : Nat) : Nat → Text ρ Unit
  | 0 => pure ()
  | rest + 1 => do
    let byte ← Code.perform (.loadByte (addr + j))
    let _ ← Code.perform (.keepByte (offset + j) byte)
    copyBytes addr offset (j + 1) rest

def hnReadMemory (addr size offset : Nat) : Text ρ Unit := copyBytes addr offset 0 size

/-- The loop of `synch_write` and `synch_read`. -/
def synch (b : FifoBuffer ρ) (ready posted : MangoEventStatus) (transfer : Nat → Text ρ Unit)
    (globalSize : Nat) : Text ρ Nat :=
  Code.forLoop 0 (fun off => off < globalSize) fun off => do
    eventWaitState b.event ready.value
    transfer off
    eventWrite b.event posted.value
    return uint32 (off + b.size)

def synchWrite (b : FifoBuffer ρ) (data : Nat → Nat) (globalSize : Nat) : Text ρ Nat :=
  synch b .WRITE .READ (fun off => hnWriteMemory b.phyAddr b.size fun j => data (off + j)) globalSize

def synchRead (b : FifoBuffer ρ) (globalSize : Nat) : Text ρ Nat :=
  synch b .READ .WRITE (fun off => hnReadMemory b.phyAddr b.size off) globalSize

/-- The control points of the transfer of one burst, with the program `after` it. -/
structure Transfer (ρ T : Type) where
  text : Nat → Text ρ Unit
  first : Option T
  op : Nat → T → Op ρ
  next : T → Nat → Option T
  prog : Nat → Prog (Op ρ) Nat → T → Prog (Op ρ) Nat
  text_eq : ∀ off after, text off (fun _ => after) = first.elim after (prog off after)
  step_eq : ∀ (σ : Type) (exec : Op ρ → σ → Nat × σ) off after t shared,
    (prog off after t).step exec shared =
      ((next t (exec (op off t) shared).1).elim after (prog off after), (exec (op off t) shared).2)
  nextOp_eq : ∀ off after t, (prog off after t).nextOp = some (op off t)

inductive SynchPoint (ready : MangoEventStatus) (T : Type) where
  | poll (off : Nat)
  | back (off value : Nat) (other : value ≠ ready.value)
  | inside (off : Nat) (t : T)
  | post (off : Nat)

namespace SynchPoint

variable (b : FifoBuffer ρ) {ready : MangoEventStatus} (posted : MangoEventStatus)
  (transfer : Transfer ρ T) (globalSize : Nat)

def ending (off : Nat) : Prog (Op ρ) Nat :=
  .op (.writeSynchronization b.event posted.value) fun _ => .ret (uint32 (off + b.size))

def transferring (off : Nat) : Prog (Op ρ) Nat := transfer.text off fun _ => ending b posted off

def frame (ready : MangoEventStatus) (running : Prog (Op ρ) Nat) : Prog (Op ρ) Nat :=
  .iterate running
    (fun off => eventWaitState b.event ready.value fun _ => transferring b posted transfer off)
    (fun off => off < globalSize) (fun _ => .ret 0)

def prog : SynchPoint ready T → Prog (Op ρ) Nat
  | .poll off => frame b posted transfer globalSize ready
      (eventWaitState b.event ready.value fun _ => transferring b posted transfer off)
  | .back off value _ => frame b posted transfer globalSize ready
      (waitBack b.event ready.value value fun _ => transferring b posted transfer off)
  | .inside off t => frame b posted transfer globalSize ready
      (transfer.prog off (ending b posted off) t)
  | .post off => frame b posted transfer globalSize ready (ending b posted off)

def op : SynchPoint ready T → Op ρ
  | .poll _ => .readSynchronization b.event
  | .back _ value _ => .writeSynchronization b.event value
  | .inside off t => transfer.op off t
  | .post _ => .writeSynchronization b.event posted.value

def inner (off : Nat) (left : Option T) : SynchPoint ready T :=
  left.elim (.post off) (.inside off)

def next : SynchPoint ready T → Nat → Option (SynchPoint ready T)
  | .poll off, value =>
    if value = 0 then some (.poll off)
    else if found : value = ready.value then some (inner off transfer.first)
    else some (.back off value found)
  | .back off _ _, _ => some (.poll off)
  | .inside off t, value => some (inner off (transfer.next t value))
  | .post off, _ =>
    if uint32 (off + b.size) < globalSize then some (.poll (uint32 (off + b.size))) else none

theorem prog_inner (off : Nat) (left : Option T) :
    prog b posted transfer globalSize (inner off left : SynchPoint ready T) =
      frame b posted transfer globalSize ready
        (left.elim (ending b posted off) (transfer.prog off (ending b posted off))) := by
  cases left <;> rfl

theorem elim_busy (off : Nat) (left : Option T) :
    (left.elim (ending b posted off) (transfer.prog off (ending b posted off))).nextOp ≠ none := by
  cases left with
  | none => exact Option.some_ne_none _
  | some t => exact (transfer.nextOp_eq off _ t).trans_ne (Option.some_ne_none _)

theorem next_poll_elim (off value : Nat) (ended : Prog (Op ρ) Nat) :
    (next b transfer globalSize (.poll off : SynchPoint ready T) value).elim ended
        (prog b posted transfer globalSize) =
      if value = 0 then prog b posted transfer globalSize (.poll off : SynchPoint ready T)
      else if value = ready.value then
        prog b posted transfer globalSize (inner off transfer.first : SynchPoint ready T)
      else frame b posted transfer globalSize ready
        (waitBack b.event ready.value value fun _ => transferring b posted transfer off) := by
  rw [next]
  split
  · rfl
  · split <;> rfl

theorem frame_step {exec : Op ρ → σ → Nat × σ} {shared after : σ} {running running' : Prog (Op ρ) Nat}
    (stepped : running.step exec shared = (running', after)) (busy : running'.nextOp ≠ none) :
    (frame b posted transfer globalSize ready running).step exec shared =
      (frame b posted transfer globalSize ready running', after) := by
  rw [frame, Prog.step_iterate, stepped, Prog.resume_busy busy]
  rfl

theorem prog_step (exec : Op ρ → σ → Nat × σ) (shared : σ) (p : SynchPoint ready T) :
    (p.prog b posted transfer globalSize).step exec shared =
      ((next b transfer globalSize p (exec (p.op b posted transfer) shared).1).elim (.ret 0)
          (prog b posted transfer globalSize), (exec (p.op b posted transfer) shared).2) := by
  have started : ∀ off, transferring b posted transfer off =
      transfer.first.elim (ending b posted off) (transfer.prog off (ending b posted off)) :=
    fun off => transfer.text_eq off _
  have starts : ∀ off, (transferring b posted transfer off).nextOp ≠ none := fun off =>
    started off ▸ elim_busy b posted transfer off transfer.first
  cases p with
  | poll off =>
    refine (frame_step b posted transfer globalSize
      (mangoWait_step b.event ready.value exec shared _) ?_).trans ?_
    · split
      · exact Option.some_ne_none _
      · split
        · exact starts off
        · exact Option.some_ne_none _
    · rw [next_poll_elim, prog_inner, ← started]
      simp only [apply_ite (frame b posted transfer globalSize ready)]
      rfl
  | back off value other =>
    refine (frame_step b posted transfer globalSize
      (waitBack_step b.event ready.value exec shared value _) ?_).trans ?_
    · rw [if_neg other]
      exact Option.some_ne_none _
    · rw [if_neg other]
      rfl
  | inside off t =>
    refine (frame_step b posted transfer globalSize
      (transfer.step_eq σ exec off _ t shared) ?_).trans ?_
    · exact elim_busy b posted transfer off _
    · rw [next, Option.elim_some, prog_inner]
      rfl
  | post off =>
    by_cases more : uint32 (off + b.size) < globalSize <;>
      simp only [next, more, ↓reduceIte, Option.elim_some, Option.elim_none, prog, frame, ending,
        Prog.step_iterate, Prog.step_op, Prog.resume, decide_true, decide_false] <;> rfl

theorem prog_nextOp (p : SynchPoint ready T) :
    (p.prog b posted transfer globalSize).nextOp = some (p.op b posted transfer) := by
  cases p with
  | inside off t => exact transfer.nextOp_eq off _ t
  | _ => rfl

/-- A burst thread that holds nothing: not started, polling at the given offset, or done. -/
inductive Waiting (globalSize off : Nat) : Place (SynchPoint ready T) Unit → Prop
  | fresh (start : off = 0) : Waiting globalSize off ⟨none, [()]⟩
  | polling (more : off < globalSize) : Waiting globalSize off ⟨some (.poll off), []⟩
  | done (all : off = globalSize) : Waiting globalSize off ⟨none, []⟩

theorem waiting_from {globalSize off : Nat} (bound : off ≤ globalSize) :
    Waiting globalSize off
      (⟨if off < globalSize then some (.poll off) else none, []⟩ : Place (SynchPoint ready T) Unit) := by
  by_cases more : off < globalSize
  · rw [if_pos more]; exact .polling more
  · rw [if_neg more]; exact .done (by omega)

theorem Waiting.ended {globalSize off : Nat}
    (waiting : Waiting globalSize off (⟨none, []⟩ : Place (SynchPoint ready T) Unit)) : off = globalSize := by
  cases waiting with
  | done all => exact all

theorem Waiting.ends {globalSize off : Nat} {l : Place (SynchPoint ready T) Unit}
    (waiting : Waiting globalSize off l) (some : 0 < globalSize) (all : off = globalSize) :
    l = ⟨none, []⟩ := by
  cases waiting with
  | fresh start => omega
  | polling more => omega
  | done _ => rfl

end SynchPoint

def synchChart (b : FifoBuffer ρ) (ready posted : MangoEventStatus) (transfer : Transfer ρ T)
    (globalSize : Nat) : Chart (Op ρ) Nat (SynchPoint ready T) Unit where
  prog := SynchPoint.prog b posted transfer globalSize
  op := SynchPoint.op b posted transfer
  next := SynchPoint.next b transfer globalSize
  code _ := (synch b ready posted transfer.text globalSize).call
  enter _ := if 0 < globalSize then some (.poll 0) else none
  code_eq _ := by
    by_cases some : 0 < globalSize <;>
      simp only [synch, Code.call, Code.forLoop, some, decide_true, decide_false, ↓reduceIte] <;> rfl
  step_eq _ exec p shared := SynchPoint.prog_step b posted transfer globalSize exec shared p
  nextOp_eq := SynchPoint.prog_nextOp b posted transfer globalSize

section Transfers

variable (addr : Nat)

def storeProg (bytes : Nat → Nat) (size : Nat) (after : Prog (Op ρ) Nat) (j : Nat) : Prog (Op ρ) Nat :=
  .op (.storeByte (addr + j) (bytes j)) fun _ =>
    storeBytes addr bytes (j + 1) (size - (j + 1)) fun _ => after

def byteFrom (size j : Nat) : Option Nat := if j < size then some j else none

theorem storeBytes_from (bytes : Nat → Nat) (size j : Nat) (after : Prog (Op ρ) Nat) :
    storeBytes addr bytes j (size - j) (fun _ => after) =
      (byteFrom size j).elim after (storeProg addr bytes size after) := by
  unfold byteFrom
  split
  · next more =>
    have left : size - j = size - (j + 1) + 1 := by omega
    rw [left]
    rfl
  · next all =>
    have none : size - j = 0 := by omega
    rw [none]
    rfl

def writeTransfer (b : FifoBuffer ρ) (data : Nat → Nat) : Transfer ρ Nat where
  text off := hnWriteMemory b.phyAddr b.size fun j => data (off + j)
  first := byteFrom b.size 0
  op off j := .storeByte (b.phyAddr + j) (data (off + j))
  next j _ := byteFrom b.size (j + 1)
  prog off after := storeProg b.phyAddr (fun j => data (off + j)) b.size after
  text_eq off after := storeBytes_from b.phyAddr _ b.size 0 after
  step_eq _ exec off after j shared := by
    rw [storeProg, Prog.step_op, storeBytes_from]
  nextOp_eq _ _ _ := rfl

/-- Byte `j` is to be loaded, or has been loaded and is to be kept. -/
inductive CopyPoint where
  | load (j : Nat)
  | keep (j byte : Nat)
  deriving DecidableEq, Repr

def keepProg (offset size : Nat) (after : Prog (Op ρ) Nat) (j byte : Nat) : Prog (Op ρ) Nat :=
  .op (.keepByte (offset + j) byte) fun _ =>
    copyBytes addr offset (j + 1) (size - (j + 1)) fun _ => after

def copyProg (offset size : Nat) (after : Prog (Op ρ) Nat) : CopyPoint → Prog (Op ρ) Nat
  | .load j => .op (.loadByte (addr + j)) (keepProg addr offset size after j)
  | .keep j byte => keepProg addr offset size after j byte

theorem copyBytes_from (offset size j : Nat) (after : Prog (Op ρ) Nat) :
    copyBytes addr offset j (size - j) (fun _ => after) =
      ((byteFrom size j).map .load).elim after (copyProg addr offset size after) := by
  unfold byteFrom
  split
  · next more =>
    have left : size - j = size - (j + 1) + 1 := by omega
    rw [left]
    rfl
  · next all =>
    have none : size - j = 0 := by omega
    rw [none]
    rfl

def readTransfer (b : FifoBuffer ρ) : Transfer ρ CopyPoint where
  text off := hnReadMemory b.phyAddr b.size off
  first := (byteFrom b.size 0).map .load
  op
    | _, .load j => .loadByte (b.phyAddr + j)
    | off, .keep j byte => .keepByte (off + j) byte
  next
    | .load j, byte => some (.keep j byte)
    | .keep j _, _ => (byteFrom b.size (j + 1)).map .load
  prog off after := copyProg b.phyAddr off b.size after
  text_eq off after := copyBytes_from b.phyAddr off b.size 0 after
  step_eq _ exec off after t shared := by
    cases t with
    | load j => rfl
    | keep j byte => rw [copyProg, keepProg, Prog.step_op, copyBytes_from]
  nextOp_eq _ _ t := by cases t <;> rfl

end Transfers

abbrev writeChart (b : FifoBuffer ρ) (data : Nat → Nat) (globalSize : Nat) :
    Chart (Op ρ) Nat (SynchPoint .WRITE Nat) Unit :=
  synchChart b .WRITE .READ (writeTransfer b data) globalSize

abbrev readChart (b : FifoBuffer ρ) (globalSize : Nat) :
    Chart (Op ρ) Nat (SynchPoint .READ CopyPoint) Unit :=
  synchChart b .READ .WRITE (readTransfer b) globalSize

end MangoModel.Host
