import LibMango.Device.Runtime

namespace MangoModel.Device

open Interleave

variable {ρ σ : Type}

section Loops

variable (e : ρ) (state : Nat) (exec : Op ρ → σ → Nat × σ) (shared : σ)

theorem mangoLock_step (next : Nat → Prog (Op ρ) Nat) :
    (mangoLock e next).step exec shared =
      (if (exec (.readSynchronization e) shared).1 = 0 then mangoLock e next
        else next (exec (.readSynchronization e) shared).1, (exec (.readSynchronization e) shared).2) := by
  by_cases empty : (exec (.readSynchronization e) shared).1 = 0 <;>
    simp [mangoLock, Code.doWhile, mangoReadSynchronization, Prog.resume, empty]

def waitBody : Prog (Op ρ) Nat :=
  mangoLock e fun value =>
    if value = state then .ret value
    else .op (.writeSynchronization e value) fun _ => .ret value

theorem mangoWait_eq (next : Unit → Prog (Op ρ) Nat) :
    mangoWait e state next =
      .iterate (waitBody e state) (fun _ => waitBody e state) (fun value => value != state)
        (fun _ => next ()) := by
  have branch : ∀ value : Nat,
      (if value ≠ state then
        (do mangoWriteSynchronization e value; mangoGnSuspend; pure value : Text ρ Nat)
      else pure value) Prog.ret =
        if value = state then .ret value
        else .op (.writeSynchronization e value) fun _ => .ret value := by
    intro value
    by_cases found : value = state
    · rw [if_pos found, if_neg (not_not.mpr found)]; rfl
    · rw [if_neg found, if_pos found]; rfl
  have body : waitBody e state = mangoLock e fun value =>
      (if value ≠ state then
        (do mangoWriteSynchronization e value; mangoGnSuspend; pure value : Text ρ Nat)
      else pure value) Prog.ret := by
    simp only [branch]; rfl
  rw [body]
  rfl

/-- `mango_wait` with a value in hand that it has to write back. -/
def waitBack (value : Nat) (next : Unit → Prog (Op ρ) Nat) : Prog (Op ρ) Nat :=
  .iterate (.op (.writeSynchronization e value) fun _ => .ret value) (fun _ => waitBody e state)
    (fun value => value != state) (fun _ => next ())

theorem mangoWait_step (next : Unit → Prog (Op ρ) Nat) :
    (mangoWait e state next).step exec shared =
      (if (exec (.readSynchronization e) shared).1 = 0 then mangoWait e state next
        else if (exec (.readSynchronization e) shared).1 = state then next ()
        else waitBack e state (exec (.readSynchronization e) shared).1 next,
        (exec (.readSynchronization e) shared).2) := by
  rw [mangoWait_eq, Prog.step_iterate, waitBody, mangoLock_step]
  by_cases empty : (exec (.readSynchronization e) shared).1 = 0
  · simp only [empty, ↓reduceIte]
    rfl
  · by_cases found : (exec (.readSynchronization e) shared).1 = state
    · have filled : state ≠ 0 := found ▸ empty
      simp [found, filled, Prog.resume]
    · simp [empty, found, waitBack, waitBody]

theorem waitBack_step (value : Nat) (next : Unit → Prog (Op ρ) Nat) :
    (waitBack e state value next).step exec shared =
      (if value = state then next () else mangoWait e state next,
        (exec (.writeSynchronization e value) shared).2) := by
  by_cases found : value = state <;>
    simp [waitBack, mangoWait_eq, Prog.resume, found]

end Loops

section Branches

variable {P : Type} (here there : P) (value : Nat)

def retry : Option P := if value = 0 then some here else some there

def await (state : Nat) (back : P) (found : Option P) : Option P :=
  if value = 0 then some here else if value = state then found else some back

variable {value} in
theorem retry_filled (filled : value ≠ 0) : retry here there value = some there := if_neg filled

variable (ended : Prog (Op ρ) Nat) (prog : P → Prog (Op ρ) Nat)

theorem retry_elim : (retry here there value).elim ended prog =
    if value = 0 then prog here else prog there := by
  unfold retry
  split <;> rfl

theorem await_elim (state : Nat) (back : P) (found : Option P) :
    (await here value state back found).elim ended prog =
      if value = 0 then prog here
      else if value = state then found.elim ended prog else prog back := by
  unfold await
  split
  · rfl
  · split <;> rfl

end Branches

section Texts

variable (args : TaskArgs ρ)

def flipText (go : Nat) : Text ρ Unit := do
  let _ ← mangoLock args.release
  mangoWriteSynchronization args.release go
  dprint .threadsReleased

def resetText (go : Nat) : Text ρ Unit := do
  dprint .fifoComplete
  let _ ← mangoLock args.barrier
  mangoWriteSynchronization args.barrier (uint32 (args.ntasks + 1))
  dprint .barrierReset
  flipText args go

def fifoEndText (fifo : ρ) (go : Nat) : Text ρ Unit := do
  mangoWriteSynchronization fifo 3
  resetText args go

def fifoRequestText (fifo : ρ) (go : Nat) : Text ρ Unit := do
  mangoWriteSynchronization fifo MangoEventStatus.WRITE.value
  dprint .waitingFifo
  mangoWait fifo MangoEventStatus.READ.value
  let _ ← mangoLock fifo
  fifoEndText args fifo go

def fifoText (fifo : ρ) (go : Nat) : Text ρ Unit := do
  dprint .acquiringFifo
  let value ← mangoLock fifo
  dprint (.acquiredFifo value)
  if value ≠ MangoEventStatus.READ.value then fifoRequestText args fifo go
  else fifoEndText args fifo go

def lastText (fifo : Option ρ) (go : Nat) : Text ρ Unit := do
  dprint .reachedByAll
  match fifo with
  | none => resetText args go
  | some fifo => fifoText args fifo go

def countedText (fifo : Option ρ) (go count : Nat) : Text ρ Unit :=
  if count > 1 then do
    dprint (.waitingRestart args.tid)
    mangoWait args.release go
  else lastText args fifo go

theorem mangoBarrier_eq (fifo : Option ρ) :
    mangoBarrier args fifo = (do
      dprint (.barrierReached args.tid)
      let go ← mangoLock args.release
      mangoWriteSynchronization args.release go
      let count ← mangoSignal args.barrier
      countedText args fifo (toggle go) count) := by
  unfold mangoBarrier countedText lastText
  cases fifo with
  | none => rfl
  | some fifo => rfl

end Texts

/-- The control points of a task: the statements of `mango_barrier` and `mango_exit` that
    touch what the parties share. -/
inductive TaskPoint (ρ : Type) where
  | reached
  | lockRelease
  | backRelease (old : Nat)
  | lockBarrier (go : Nat)
  | writeBarrier (go value : Nat)
  | waiting (go : Nat)
  | awaitRelease (go : Nat)
  | backAwait (go value : Nat)
  | allReached (go : Nat)
  | fifoAcquiring (fifo : ρ) (go : Nat)
  | fifoLock (fifo : ρ) (go : Nat)
  | fifoLocked (fifo : ρ) (go value : Nat)
  | fifoRequest (fifo : ρ) (go : Nat)
  | fifoRequested (fifo : ρ) (go : Nat)
  | fifoAwait (fifo : ρ) (go : Nat)
  | fifoBack (fifo : ρ) (go value : Nat)
  | fifoRelock (fifo : ρ) (go : Nat)
  | fifoEnd (fifo : ρ) (go : Nat)
  | fifoComplete (go : Nat)
  | lockReset (go : Nat)
  | writeReset (go : Nat)
  | resetDone (go : Nat)
  | lockFlip (go : Nat)
  | writeFlip (go : Nat)
  | flipped
  | lockExit
  | writeExit (value : Nat)

inductive TaskCall where
  | barrier
  | exit
  deriving DecidableEq, Repr

namespace TaskPoint

variable (args : TaskArgs ρ) (fifo : Option ρ)

def prog : TaskPoint ρ → Prog (Op ρ) Nat
  | .reached => (mangoBarrier args fifo).call
  | .lockRelease => mangoLock args.release fun old =>
      .op (.writeSynchronization args.release old) fun _ =>
        mangoSignal args.barrier fun count => (countedText args fifo (toggle old) count).call
  | .backRelease old => .op (.writeSynchronization args.release old) fun _ =>
      mangoSignal args.barrier fun count => (countedText args fifo (toggle old) count).call
  | .lockBarrier go => mangoSignal args.barrier fun count => (countedText args fifo go count).call
  | .writeBarrier go value => .op (.writeSynchronization args.barrier (decrement value)) fun _ =>
      (countedText args fifo go (decrement value)).call
  | .waiting go => .op (.dprint (.waitingRestart args.tid)) fun _ =>
      (mangoWait args.release go).call
  | .awaitRelease go => (mangoWait args.release go).call
  | .backAwait go value => waitBack args.release go value fun _ => .ret 0
  | .allReached go => (lastText args fifo go).call
  | .fifoAcquiring fifo go => (fifoText args fifo go).call
  | .fifoLock fifo go => mangoLock fifo fun value => .op (.dprint (.acquiredFifo value)) fun _ =>
      if value = MangoEventStatus.READ.value then (fifoEndText args fifo go).call
      else (fifoRequestText args fifo go).call
  | .fifoLocked fifo go value => .op (.dprint (.acquiredFifo value)) fun _ =>
      if value = MangoEventStatus.READ.value then (fifoEndText args fifo go).call
      else (fifoRequestText args fifo go).call
  | .fifoRequest fifo go => (fifoRequestText args fifo go).call
  | .fifoRequested fifo go => .op (.dprint .waitingFifo) fun _ =>
      mangoWait fifo MangoEventStatus.READ.value fun _ =>
        mangoLock fifo fun _ => (fifoEndText args fifo go).call
  | .fifoAwait fifo go => mangoWait fifo MangoEventStatus.READ.value fun _ =>
      mangoLock fifo fun _ => (fifoEndText args fifo go).call
  | .fifoBack fifo go value => waitBack fifo MangoEventStatus.READ.value value fun _ =>
      mangoLock fifo fun _ => (fifoEndText args fifo go).call
  | .fifoRelock fifo go => mangoLock fifo fun _ => (fifoEndText args fifo go).call
  | .fifoEnd fifo go => (fifoEndText args fifo go).call
  | .fifoComplete go => (resetText args go).call
  | .lockReset go => mangoLock args.barrier fun _ =>
      .op (.writeSynchronization args.barrier (uint32 (args.ntasks + 1))) fun _ =>
        .op (.dprint .barrierReset) fun _ => (flipText args go).call
  | .writeReset go =>
      .op (.writeSynchronization args.barrier (uint32 (args.ntasks + 1))) fun _ =>
        .op (.dprint .barrierReset) fun _ => (flipText args go).call
  | .resetDone go => .op (.dprint .barrierReset) fun _ => (flipText args go).call
  | .lockFlip go => (flipText args go).call
  | .writeFlip go => .op (.writeSynchronization args.release go) fun _ =>
      .op (.dprint .threadsReleased) fun _ => .ret 0
  | .flipped => .op (.dprint .threadsReleased) fun _ => .ret 0
  | .lockExit => (mangoExit args).call
  | .writeExit value => .op (.writeSynchronization args.event (decrement value)) fun _ => .ret 0

def op : TaskPoint ρ → Op ρ
  | .reached => .dprint (.barrierReached args.tid)
  | .lockRelease | .awaitRelease _ | .lockFlip _ => .readSynchronization args.release
  | .backRelease old => .writeSynchronization args.release old
  | .lockBarrier _ | .lockReset _ => .readSynchronization args.barrier
  | .writeBarrier _ value => .writeSynchronization args.barrier (decrement value)
  | .waiting _ => .dprint (.waitingRestart args.tid)
  | .backAwait _ value => .writeSynchronization args.release value
  | .allReached _ => .dprint .reachedByAll
  | .fifoAcquiring _ _ => .dprint .acquiringFifo
  | .fifoLock fifo _ | .fifoAwait fifo _ | .fifoRelock fifo _ => .readSynchronization fifo
  | .fifoLocked _ _ value => .dprint (.acquiredFifo value)
  | .fifoRequest fifo _ => .writeSynchronization fifo MangoEventStatus.WRITE.value
  | .fifoRequested _ _ => .dprint .waitingFifo
  | .fifoBack fifo _ value => .writeSynchronization fifo value
  | .fifoEnd fifo _ => .writeSynchronization fifo 3
  | .fifoComplete _ => .dprint .fifoComplete
  | .writeReset _ => .writeSynchronization args.barrier (uint32 (args.ntasks + 1))
  | .resetDone _ => .dprint .barrierReset
  | .writeFlip go => .writeSynchronization args.release go
  | .flipped => .dprint .threadsReleased
  | .lockExit => .readSynchronization args.event
  | .writeExit value => .writeSynchronization args.event (decrement value)

def next : TaskPoint ρ → Nat → Option (TaskPoint ρ)
  | .reached, _ => some .lockRelease
  | .lockRelease, value => retry .lockRelease (.backRelease value) value
  | .backRelease old, _ => some (.lockBarrier (toggle old))
  | .lockBarrier go, value => retry (.lockBarrier go) (.writeBarrier go value) value
  | .writeBarrier go value, _ =>
    if 1 < decrement value then some (.waiting go) else some (.allReached go)
  | .waiting go, _ => some (.awaitRelease go)
  | .awaitRelease go, value => await (.awaitRelease go) value go (.backAwait go value) none
  | .backAwait go value, _ => if value = go then none else some (.awaitRelease go)
  | .allReached go, _ =>
    match fifo with
    | none => some (.fifoComplete go)
    | some fifo => some (.fifoAcquiring fifo go)
  | .fifoAcquiring fifo go, _ => some (.fifoLock fifo go)
  | .fifoLock fifo go, value => retry (.fifoLock fifo go) (.fifoLocked fifo go value) value
  | .fifoLocked fifo go value, _ =>
    if value = MangoEventStatus.READ.value then some (.fifoEnd fifo go)
    else some (.fifoRequest fifo go)
  | .fifoRequest fifo go, _ => some (.fifoRequested fifo go)
  | .fifoRequested fifo go, _ => some (.fifoAwait fifo go)
  | .fifoAwait fifo go, value =>
    await (.fifoAwait fifo go) value MangoEventStatus.READ.value (.fifoBack fifo go value)
      (some (.fifoRelock fifo go))
  | .fifoBack fifo go value, _ =>
    if value = MangoEventStatus.READ.value then some (.fifoRelock fifo go)
    else some (.fifoAwait fifo go)
  | .fifoRelock fifo go, value => retry (.fifoRelock fifo go) (.fifoEnd fifo go) value
  | .fifoEnd _ go, _ => some (.fifoComplete go)
  | .fifoComplete go, _ => some (.lockReset go)
  | .lockReset go, value => retry (.lockReset go) (.writeReset go) value
  | .writeReset go, _ => some (.resetDone go)
  | .resetDone go, _ => some (.lockFlip go)
  | .lockFlip go, value => retry (.lockFlip go) (.writeFlip go) value
  | .writeFlip _, _ => some .flipped
  | .flipped, _ => none
  | .lockExit, value => retry .lockExit (.writeExit value) value
  | .writeExit _, _ => none

end TaskPoint

namespace TaskPoint

variable (args : TaskArgs ρ) (fifo : Option ρ) (exec : Op ρ → σ → Nat × σ) (shared : σ)

theorem prog_step (p : TaskPoint ρ) :
    (p.prog args fifo).step exec shared =
      ((next fifo p (exec (p.op args) shared).1).elim (.ret 0) (prog args fifo),
        (exec (p.op args) shared).2) := by
  cases p with
  | reached => rw [prog, mangoBarrier_eq]; rfl
  | lockRelease | lockBarrier | fifoLock | fifoRelock | lockReset | lockFlip | lockExit =>
    rw [next, retry_elim]
    exact mangoLock_step _ exec shared _
  | awaitRelease | fifoAwait =>
    rw [next, await_elim]
    exact mangoWait_step _ _ exec shared _
  | backAwait go value =>
    rw [prog, waitBack_step]
    by_cases found : value = go <;> simp only [next, found, ↓reduceIte] <;> rfl
  | fifoBack fifo go value =>
    rw [prog, waitBack_step]
    by_cases found : value = MangoEventStatus.READ.value <;>
      simp only [next, found, ↓reduceIte] <;> rfl
  | writeBarrier go value =>
    by_cases waits : 1 < decrement value <;>
      simp only [prog, next, countedText, waits, ↓reduceIte] <;> rfl
  | fifoLocked fifo go value =>
    by_cases ready : value = MangoEventStatus.READ.value <;>
      simp only [prog, next, ready, ↓reduceIte] <;> rfl
  | allReached go => cases fifo <;> rfl
  | fifoAcquiring fifo go =>
    have branch : ∀ value : Nat,
        (if value ≠ MangoEventStatus.READ.value then fifoRequestText args fifo go
          else fifoEndText args fifo go).call =
          if value = MangoEventStatus.READ.value then (fifoEndText args fifo go).call
          else (fifoRequestText args fifo go).call := by
      intro value
      by_cases ready : value = MangoEventStatus.READ.value
      · rw [if_pos ready, if_neg (not_not.mpr ready)]
      · rw [if_neg ready, if_pos ready]
    simp only [prog, next, Option.elim_some, ← branch]
    rfl
  | _ => rfl

theorem prog_nextOp (p : TaskPoint ρ) : (p.prog args fifo).nextOp = some (p.op args) := by
  cases p with
  | reached => rw [prog, mangoBarrier_eq]; rfl
  | allReached go => cases fifo <;> rfl
  | _ => rfl

end TaskPoint

def taskChart (args : TaskArgs ρ) (fifo : Option ρ) :
    Chart (Op ρ) Nat (TaskPoint ρ) TaskCall where
  prog := TaskPoint.prog args fifo
  op := TaskPoint.op args
  next := TaskPoint.next fifo
  code
    | .barrier => (mangoBarrier args fifo).call
    | .exit => (mangoExit args).call
  enter
    | .barrier => some .reached
    | .exit => some .lockExit
  code_eq c := by cases c <;> rfl
  step_eq _ exec p shared := TaskPoint.prog_step args fifo exec shared p
  nextOp_eq := TaskPoint.prog_nextOp args fifo

/-- The control points of the spawner in `mango_join`. -/
inductive JoinPoint where
  | await
  | back (value : Nat)
  | joined
  deriving DecidableEq, Repr

namespace JoinPoint

variable (e : ρ)

def prog : JoinPoint → Prog (Op ρ) Nat
  | .await => (mangoJoin e).call
  | .back value => waitBack e MangoEventStatus.READ.value value fun _ =>
      .op (.dprint .closingWorkgroup) fun _ => .ret 0
  | .joined => .op (.dprint .closingWorkgroup) fun _ => .ret 0

def op : JoinPoint → Op ρ
  | .await => .readSynchronization e
  | .back value => .writeSynchronization e value
  | .joined => .dprint .closingWorkgroup

def next : JoinPoint → Nat → Option JoinPoint
  | .await, value =>
    Device.await .await value MangoEventStatus.READ.value (.back value) (some .joined)
  | .back value, _ => if value = MangoEventStatus.READ.value then some .joined else some .await
  | .joined, _ => none

theorem prog_step (exec : Op ρ → σ → Nat × σ) (shared : σ) (p : JoinPoint) :
    (p.prog e).step exec shared =
      ((next p (exec (p.op e) shared).1).elim (.ret 0) (prog e), (exec (p.op e) shared).2) := by
  cases p with
  | await =>
    rw [next, await_elim]
    exact mangoWait_step _ _ exec shared _
  | back value =>
    rw [prog, waitBack_step]
    by_cases found : value = MangoEventStatus.READ.value <;>
      simp only [next, found, ↓reduceIte] <;> rfl
  | joined => rfl

end JoinPoint

def joinChart (e : ρ) : Chart (Op ρ) Nat JoinPoint Unit where
  prog := JoinPoint.prog e
  op := JoinPoint.op e
  next := JoinPoint.next
  code _ := (mangoJoin e).call
  enter _ := some .await
  code_eq _ := rfl
  step_eq _ exec p shared := JoinPoint.prog_step e exec shared p
  nextOp_eq p := by cases p <;> rfl

end MangoModel.Device
