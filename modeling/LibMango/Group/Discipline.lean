import LibMango.Group.Parties

namespace MangoModel

open Interleave Device Host

section Disciplined

variable {ρ P : Type} {owes : P → Option ρ} {e : ρ} {value : Nat} {here there : P}

theorem retry_disciplined (free : owes here = none) (held : owes there = none ∨ owes there = some e) :
    Custody.Disciplined (.take e) value none ((retry here there value).bind owes) := by
  refine ⟨rfl, ?_⟩
  unfold retry
  split
  · exact .inl free
  · next filled => exact held.imp id fun mine => ⟨mine, filled⟩

theorem await_disciplined {state : Nat} {back : P} {found : Option P} (free : owes here = none)
    (held : owes back = some e) (taken : found.bind owes = none ∨ found.bind owes = some e) :
    Custody.Disciplined (.take e) value none ((await here value state back found).bind owes) := by
  refine ⟨rfl, ?_⟩
  unfold await
  split
  · exact .inl free
  · next filled =>
    split
    · exact taken.imp id fun mine => ⟨mine, filled⟩
    · exact .inr ⟨held, filled⟩

end Disciplined

namespace Device

variable {ρ : Type} (args : TaskArgs ρ) (fifo : Option ρ)

def TaskPoint.owes : TaskPoint ρ → Option ρ
  | .backRelease _ | .backAwait _ _ | .writeFlip _ => some args.release
  | .writeBarrier _ _ | .writeReset _ => some args.barrier
  | .fifoLocked fifo _ _ | .fifoRequest fifo _ | .fifoBack fifo _ _ | .fifoEnd fifo _ => some fifo
  | .writeExit _ => some args.event
  | _ => none

theorem taskChart_settles : (taskChart args fifo).Settles Op.access (TaskPoint.owes args) where
  next p answer := by
    cases p with
    | lockRelease => exact retry_disciplined rfl (.inr rfl)
    | lockBarrier go => exact retry_disciplined rfl (.inr rfl)
    | fifoLock fifo go => exact retry_disciplined rfl (.inr rfl)
    | fifoRelock fifo go => exact retry_disciplined rfl (.inr rfl)
    | lockReset go => exact retry_disciplined rfl (.inr rfl)
    | lockFlip go => exact retry_disciplined rfl (.inr rfl)
    | lockExit => exact retry_disciplined rfl (.inr rfl)
    | awaitRelease go => exact await_disciplined rfl rfl (.inl rfl)
    | fifoAwait fifo go => exact await_disciplined rfl rfl (.inl rfl)
    | writeBarrier go value =>
      refine ⟨rfl, ?_⟩
      dsimp only [taskChart, TaskPoint.next]
      split <;> rfl
    | backAwait go value =>
      refine ⟨rfl, ?_⟩
      dsimp only [taskChart, TaskPoint.next]
      split <;> rfl
    | fifoBack fifo go value =>
      refine ⟨rfl, ?_⟩
      dsimp only [taskChart, TaskPoint.next]
      split <;> rfl
    | fifoLocked fifo go value =>
      dsimp only [taskChart, TaskPoint.next]
      split <;> rfl
    | allReached go => cases fifo <;> rfl
    | backRelease | fifoRequest | fifoEnd | writeReset | writeFlip | writeExit => exact ⟨rfl, rfl⟩
    | _ => rfl
  enter c := by cases c <;> rfl

theorem TaskPoint.owes_prog (p : TaskPoint ρ) :
    MangoModel.owes (p.prog args fifo) = p.owes args := by
  cases p with
  | reached => rw [prog, mangoBarrier_eq]; rfl
  | allReached go => cases fifo <;> rfl
  | fifoLocked fifo go value =>
    simp only [prog, MangoModel.owes, Prog.firstOp, Op.synchronizes]
    by_cases ready : value = MangoEventStatus.READ.value
    · subst ready; rfl
    · simp only [ready, ↓reduceIte]
      rfl
  | _ => rfl

def JoinPoint.owes (e : ρ) : JoinPoint → Option ρ
  | .back _ => some e
  | _ => none

theorem joinChart_settles (e : ρ) : (joinChart e).Settles Op.access (JoinPoint.owes e) where
  next p answer := by
    cases p with
    | await => exact await_disciplined rfl rfl (.inl rfl)
    | back value =>
      refine ⟨rfl, ?_⟩
      dsimp only [joinChart, JoinPoint.next]
      split <;> rfl
    | joined => rfl
  enter _ := rfl

theorem JoinPoint.owes_prog (e : ρ) (p : JoinPoint) :
    MangoModel.owes (p.prog e) = p.owes e := by
  cases p <;> rfl

end Device

namespace Host

variable {ρ T : Type} {ready : MangoEventStatus}

def WaitPoint.owes (e : ρ) : WaitPoint → Option ρ
  | .poll => none
  | .back _ => some e

theorem waitChart_settles (e : ρ) (state : Nat) :
    (waitChart e state).Settles Op.access (WaitPoint.owes e) where
  next p answer := by
    cases p with
    | poll => exact await_disciplined rfl rfl (.inl rfl)
    | back value =>
      refine ⟨rfl, ?_⟩
      dsimp only [waitChart, WaitPoint.next]
      split <;> rfl
  enter _ := rfl

theorem WaitPoint.owes_prog (e : ρ) (state : Nat) (p : WaitPoint) :
    MangoModel.owes (p.prog e state) = p.owes e := by
  cases p <;> rfl

def SynchPoint.owes (e : ρ) : SynchPoint ready T → Option ρ
  | .poll _ => none
  | _ => some e

theorem SynchPoint.inner_owes (e : ρ) (off : Nat) (left : Option T) :
    (SynchPoint.inner off left : SynchPoint ready T).owes e = some e := by
  cases left <;> rfl

theorem synchChart_settles (b : FifoBuffer ρ) (ready posted : MangoEventStatus)
    (transfer : Transfer ρ T) (globalSize : Nat)
    (apart : ∀ off t, (transfer.op off t).access = .none) :
    (synchChart b ready posted transfer globalSize).Settles Op.access (SynchPoint.owes b.event) where
  next p answer := by
    cases p with
    | poll off =>
      refine ⟨rfl, ?_⟩
      dsimp only [synchChart, SynchPoint.next]
      split
      · exact .inl rfl
      · next filled =>
        refine .inr ⟨?_, filled⟩
        split
        · exact SynchPoint.inner_owes b.event off transfer.first
        · rfl
    | back off value other => exact ⟨rfl, rfl⟩
    | inside off t =>
      have quiet : ((synchChart b ready posted transfer globalSize).op (.inside off t)).access = .none :=
        apart off t
      rw [quiet]
      exact SynchPoint.inner_owes b.event off (transfer.next t answer)
    | post off =>
      refine ⟨rfl, ?_⟩
      dsimp only [synchChart, SynchPoint.next]
      split <;> rfl
  enter _ := by
    dsimp only [synchChart]
    split <;> rfl

theorem storeBytes_owes (addr : Nat) (bytes : Nat → Nat) (j rest : Nat) (after : Prog (Op ρ) Nat) :
    MangoModel.owes (storeBytes addr bytes j rest fun _ => after) = MangoModel.owes after := by
  induction rest generalizing j with
  | zero => rfl
  | succ rest ih => exact ih (j + 1)

theorem SynchPoint.owes_prog (b : FifoBuffer ρ) (posted : MangoEventStatus) (transfer : Transfer ρ T)
    (globalSize : Nat)
    (passes : ∀ off after t, MangoModel.owes (transfer.prog off after t) = MangoModel.owes after)
    (p : SynchPoint ready T) :
    MangoModel.owes (p.prog b posted transfer globalSize) = p.owes b.event := by
  cases p with
  | inside off t => exact passes off _ t
  | _ => rfl

end Host

def debts {N : Nat} : ∀ i : Party N, PartyPoint i → Option GroupReg
  | .spawner => JoinPoint.owes .eventA
  | .task i => TaskPoint.owes (spawnArgs N i)
  | .host => SynchPoint.owes .fifo
  | .waiter => WaitPoint.owes .fifo

namespace Group

variable {N : Nat} (g : Group N) (combine : Nat → Nat → Nat)

theorem settles (i : Party N) : (g.charts i).Settles Op.access (debts i) := by
  cases i with
  | spawner => exact joinChart_settles _
  | task i => exact taskChart_settles _ _
  | host => exact synchChart_settles g.buffer _ _ _ _ fun _ _ => rfl
  | waiter => exact waitChart_settles _ _

theorem owes_thread (i : Party N) (l : Place (PartyPoint i) (PartyCall i)) :
    owes ((g.charts i).thread l).running = l.point.bind (debts i) := by
  obtain ⟨point, calls⟩ := l
  cases point with
  | none => rfl
  | some p =>
    cases i with
    | spawner => exact JoinPoint.owes_prog GroupReg.eventA p
    | task i => exact TaskPoint.owes_prog (spawnArgs N i) g.fifo p
    | host =>
      exact SynchPoint.owes_prog g.buffer _ _ _ (fun off after t => storeBytes_owes _ _ _ _ _) p
    | waiter => exact WaitPoint.owes_prog GroupReg.fifo _ p

theorem executes : Executes (exec (ι := Party N) (ρ := GroupReg) combine) Shared.regs Op.access combine where
  accesses _ _ _ := rfl
  answers _ a _ e taken := by
    cases a with
    | readSynchronization f => cases taken; rfl
    | _ => cases taken

variable {combine} {w : GroupPlaces N}

theorem sound (reach : World.Reachable (g.act combine) g.places w) :
    Custody.Sound (Places.debt debts w) w.shared.regs := by
  refine sound_reachable Shared.regs g.settles (executes combine) (fun i e owed => ?_) reach
  cases i <;> cases owed

theorem next_write_owed {i : Party N} {e : GroupReg} {v : Nat}
    (writes : ((w.threads g.charts).proc i).running.nextOp = some (.writeSynchronization e v)) :
    Places.debt debts w i = some e := by
  rw [World.map_proc, Chart.thread_nextOp] at writes
  obtain ⟨p, here, op⟩ := Option.map_eq_some_iff.mp writes
  have settled := (g.settles i).next p 0
  rw [op] at settled
  rw [Places.debt, here]
  exact settled.1

end Group

/-- Each write of a register is about to happen on an empty register, by the party that took
    its value, while nobody else has to write it. -/
def WritesOwed {N : Nat} (c : GroupThreads N) : Prop :=
  ∀ i e v, (c.proc i).running.nextOp = some (.writeSynchronization e v) →
    c.shared.regs.value e = 0 ∧ c.shared.regs.taker e = some i ∧
      ∀ j, j ≠ i → owes (c.proc j).running ≠ some e

theorem writesOwed_reachable {N : Nat} {g : Group N} {combine : Nat → Nat → Nat}
    {w : GroupPlaces N} (reach : World.Reachable (g.act combine) g.places w) :
    WritesOwed (w.threads g.charts) := by
  intro i e v writes
  have sound := g.sound reach
  have mine := g.next_write_owed writes
  obtain ⟨empty, taken⟩ := sound i e mine
  refine ⟨empty, taken, fun j other theirs => ?_⟩
  rw [World.map_proc, g.owes_thread j] at theirs
  exact other (sound.owner_unique mine theirs)

theorem run_overwrite_eq_accumulate {N : Nat} (g : Group N) (schedule : List (Party N)) :
    g.places.run (g.act overwrite) schedule = g.places.run (g.act accumulate) schedule := by
  refine World.run_congr (motive := fun w => World.Reachable (g.act overwrite) g.places w)
    (fun w i reach => reach.step i) (fun w i reach => ?_) (World.Reachable.refl _ _) schedule
  rcases here : w.proc i with ⟨_ | p, calls⟩
  · rfl
  · have same : exec overwrite i ((g.charts i).op p) w.shared =
        exec accumulate i ((g.charts i).op p) w.shared := by
      apply exec_overwrite_eq_accumulate i w.shared _
      intro e v writes
      have mine : Places.debt debts w i = some e := by
        apply g.next_write_owed (v := v)
        rw [World.map_proc, Chart.thread_nextOp, here, Option.map_some, writes]
      exact (g.sound reach i e mine).1
    simp only [Chart.step_at, same]

/-- The lock discipline of the device runtime makes registers that are overwritten and
    registers that accumulate interchangeable. -/
theorem device_registers_interchangeable {N : Nat} (rounds : Fin N → Nat) :
    (∀ c, (deviceGroup rounds).Reachable overwrite c → WritesOwed c) ∧
      ∀ schedule, (deviceGroup rounds).start.run (threadAct (exec overwrite)) schedule =
        (deviceGroup rounds).start.run (threadAct (exec accumulate)) schedule := by
  refine ⟨fun c reach => ?_, fun schedule => ?_⟩
  · obtain ⟨w, run, rfl⟩ := (deviceGroup rounds).reachable_places reach
    exact writesOwed_reachable run
  · rw [Group.reachable_run, Group.reachable_run, run_overwrite_eq_accumulate]

end MangoModel
