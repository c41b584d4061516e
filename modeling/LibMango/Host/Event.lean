import LibMango.Device.Points

namespace MangoModel.Host

open Interleave Device

variable {ρ σ : Type}

def eventRead (e : ρ) : Text ρ Nat := Code.perform (.readSynchronization e)

def eventLock (e : ρ) : Text ρ Nat := Code.doWhile (eventRead e) (fun value => value == 0)

def eventWrite (e : ρ) (value : Nat) : Text ρ Unit := do
  let _ ← Code.perform (.writeSynchronization e value)

/-- `Event::wait_state`; `yield` touches nothing the parties share. -/
def eventWaitState (e : ρ) (state : Nat) : Text ρ Unit := do
  let _ ← Code.doWhile (do
    let value ← eventLock e
    if value ≠ state then
      let _ ← Code.perform (.writeSynchronization e value)
    return value) (fun value => value != state)

/-- `Event::wait` up to the join of the burst thread. -/
def eventWait (e : ρ) (fifoTask : Bool) : Text ρ Unit :=
  if fifoTask then eventWaitState e MangoEventStatus.END_FIFO_OPERATION.value
  else eventWaitState e 1

/-- Host and device poll a register in the same way. -/
theorem eventWaitState_eq (e : ρ) (state : Nat) : eventWaitState e state = mangoWait e state := rfl

inductive WaitPoint where
  | poll
  | back (value : Nat)
  deriving DecidableEq, Repr

namespace WaitPoint

variable (e : ρ) (state : Nat)

def prog : WaitPoint → Prog (Op ρ) Nat
  | .poll => (eventWaitState e state).call
  | .back value => waitBack e state value fun _ => .ret 0

def op : WaitPoint → Op ρ
  | .poll => .readSynchronization e
  | .back value => .writeSynchronization e value

def next : WaitPoint → Nat → Option WaitPoint
  | .poll, value => await .poll value state (.back value) none
  | .back value, _ => if value = state then none else some .poll

theorem prog_step (exec : Op ρ → σ → Nat × σ) (shared : σ) (p : WaitPoint) :
    (p.prog e state).step exec shared =
      ((next state p (exec (p.op e) shared).1).elim (.ret 0) (prog e state),
        (exec (p.op e) shared).2) := by
  cases p with
  | poll =>
    rw [next, await_elim]
    exact mangoWait_step _ _ exec shared _
  | back value =>
    rw [prog, waitBack_step]
    by_cases found : value = state <;> simp only [next, found, ↓reduceIte] <;> rfl

end WaitPoint

def waitChart (e : ρ) (state : Nat) : Chart (Op ρ) Nat WaitPoint Unit where
  prog := WaitPoint.prog e state
  op := WaitPoint.op e
  next := WaitPoint.next state
  code _ := (eventWaitState e state).call
  enter _ := some .poll
  code_eq _ := rfl
  step_eq _ exec p shared := WaitPoint.prog_step e state exec shared p
  nextOp_eq p := by cases p <;> rfl

def postChart (e : ρ) (value : Nat) : Chart (Op ρ) Nat Unit Unit where
  prog _ := (eventWrite e value).call
  op _ := .writeSynchronization e value
  next _ _ := none
  code _ := (eventWrite e value).call
  enter _ := some ()
  code_eq _ := rfl
  step_eq _ _ _ _ := rfl
  nextOp_eq _ := rfl

end MangoModel.Host
