import LibMango.Machine

namespace MangoModel.Device

open Interleave

variable {ρ : Type}

structure TaskArgs (ρ : Type) where
  event : ρ
  tid : Nat
  barrier : ρ
  release : ρ
  ntasks : Nat

abbrev Text (ρ α : Type) : Type := Code (Op ρ) Nat α

def dprint (line : Dprint) : Text ρ Unit := do
  let _ ← Code.perform (.dprint line)

def mangoWriteSynchronization (e : ρ) (value : Nat) : Text ρ Unit := do
  let _ ← Code.perform (.writeSynchronization e value)

def mangoReadSynchronization (e : ρ) : Text ρ Nat := Code.perform (.readSynchronization e)

/-- `usleep` touches nothing the parties share. -/
def mangoGnSuspend : Text ρ Unit := pure ()

def mangoLock (e : ρ) : Text ρ Nat :=
  Code.doWhile (mangoReadSynchronization e) (fun value => value == 0)

def mangoWait (e : ρ) (state : Nat) : Text ρ Unit := do
  let _ ← Code.doWhile (do
    let value ← mangoLock e
    if value ≠ state then
      mangoWriteSynchronization e value
      mangoGnSuspend
    return value) (fun value => value != state)

def mangoJoin (e : ρ) : Text ρ Unit := do
  mangoWait e MangoEventStatus.READ.value
  dprint .closingWorkgroup

/-- `value - 1` in `uint32_t`. -/
def decrement (value : Nat) : Nat := uint32 (value + (2^32 - 1))

def mangoSignal (e : ρ) : Text ρ Nat := do
  let value ← mangoLock e
  mangoWriteSynchronization e (decrement value)
  return decrement value

def mangoExit (a : TaskArgs ρ) : Text ρ Unit := do
  let v ← mangoLock a.event
  mangoWriteSynchronization a.event (decrement v)

/-- `(go==1?2:1)` -/
def toggle (go : Nat) : Nat := if go = 1 then 2 else 1

def mangoBarrier (args : TaskArgs ρ) (fifo : Option ρ) : Text ρ Unit := do
  let e := args.barrier
  dprint (.barrierReached args.tid)
  let go ← mangoLock args.release
  mangoWriteSynchronization args.release go
  let go := toggle go
  let count ← mangoSignal e
  if count > 1 then
    dprint (.waitingRestart args.tid)
    mangoWait args.release go
  else
    dprint .reachedByAll
    if let some fifo := fifo then
      dprint .acquiringFifo
      let value ← mangoLock fifo
      dprint (.acquiredFifo value)
      if value ≠ MangoEventStatus.READ.value then
        mangoWriteSynchronization fifo MangoEventStatus.WRITE.value
        dprint .waitingFifo
        mangoWait fifo MangoEventStatus.READ.value
        let _ ← mangoLock fifo
      mangoWriteSynchronization fifo 3
    dprint .fifoComplete
    let _ ← mangoLock e
    mangoWriteSynchronization e (uint32 (args.ntasks + 1))
    dprint .barrierReset
    let _ ← mangoLock args.release
    mangoWriteSynchronization args.release go
    dprint .threadsReleased

end MangoModel.Device
