import LibMango.Group.Barrier

namespace MangoModel

open Interleave Device Host

variable {N : Nat}

/-- A group whose barriers wait for the chunks that a burst of the host writes, and `waits`
    calls of `Event::wait` on the buffer's event. -/
def burstGroup (rounds : Fin N → Nat) (chunks waits phyAddr size : Nat) (data memory : Nat → Nat) :
    Group N where
  rounds := rounds
  usesFifo := true
  joins := 1
  bursts := 1
  waits := waits
  phyAddr := phyAddr
  size := size
  data := data
  globalSize := chunks * size
  memory := memory

/-- What the last task of a round has done with the FIFO register. -/
inductive FifoPhase where
  | before
  | locked (value : Nat)
  | request
  | asked
  | back (value : Nat)
  | relock
  | ending
  | after
  deriving DecidableEq, Repr

namespace FifoPhase

variable (released posted : Nat)

/-- The values that may be in the register, or in the hands of the host, when so many rounds
    are released and so many chunks posted. -/
def Circulates : FifoPhase → Nat → Prop
  | before, value => released = 0 ∧ (value = 2 ∧ posted = 0 ∨ value = 1 ∧ posted = 1) ∨
      0 < released ∧ value = 3 ∧ posted = released
  | asked, value => value = 2 ∧ posted = released ∨ value = 1 ∧ posted = released + 1
  | after, value => value = 3 ∧ posted = released + 1
  | _, _ => False

def Counts : FifoPhase → Prop
  | before => released = 0 ∧ posted ≤ 1 ∨ 0 < released ∧ posted = released
  | locked value => value = 1 ∧ posted = released + 1 ∨ value ≠ 1 ∧ posted = released
  | request => posted = released
  | asked => posted = released ∨ posted = released + 1
  | back value => value = 2 ∧ posted = released
  | relock | ending | after => posted = released + 1

end FifoPhase

def Device.TaskPoint.phase {ρ : Type} : TaskPoint ρ → FifoPhase
  | .fifoLocked _ _ value => .locked value
  | .fifoRequest _ _ => .request
  | .fifoRequested _ _ | .fifoAwait _ _ => .asked
  | .fifoBack _ _ value => .back value
  | .fifoRelock _ _ => .relock
  | .fifoEnd _ _ => .ending
  | .fifoComplete _ | .lockReset _ | .writeReset _ | .resetDone _ | .lockFlip _ | .writeFlip _ => .after
  | _ => .before

section Carries

def hostHolds (l : Place (SynchPoint .WRITE Nat) Unit) : Option Nat :=
  match l.point with
  | some (.back _ value _) => some value
  | some (.inside _ _) | some (.post _) => some MangoEventStatus.WRITE.value
  | _ => none

def waiterHolds (l : Place WaitPoint Unit) : Option Nat :=
  match l.point with
  | some (.back value) => some value
  | _ => none

/-- The register holds the value, or a host thread took it and has not written one back. -/
def Carries (w : GroupPlaces N) (value : Nat) : Prop :=
  value ≠ 0 ∧ w.shared.regs.value .fifo = value ∨ hostHolds (w.proc .host) = some value ∨
    waiterHolds (w.proc .waiter) = some value

theorem hostHolds_owes {w : GroupPlaces N} {value : Nat} (held : hostHolds (w.proc .host) = some value) :
    Places.debt debts w .host = some .fifo := by
  unfold hostHolds at held
  unfold Places.debt
  rcases here : w.proc .host with ⟨_ | p, calls⟩
  · rw [here] at held
    cases held
  · rw [here] at held
    cases p with
    | poll off => cases held
    | _ => rfl

theorem waiterHolds_owes {w : GroupPlaces N} {value : Nat}
    (held : waiterHolds (w.proc .waiter) = some value) :
    Places.debt debts w .waiter = some .fifo := by
  unfold waiterHolds at held
  unfold Places.debt
  rcases here : w.proc .waiter with ⟨_ | p, calls⟩
  · rw [here] at held
    cases held
  · rw [here] at held
    cases p with
    | poll => cases held
    | back value => rfl

theorem not_carried {w : GroupPlaces N} (sound : Custody.Sound (Places.debt debts w) w.shared.regs)
    {j : Party N} (owed : Places.debt debts w j = some .fifo) (apart : j ≠ .host) (apart' : j ≠ .waiter)
    (value : Nat) : ¬ Carries w value := by
  rintro (⟨filled, found⟩ | held | held)
  · exact filled (found.symm.trans (sound j .fifo owed).1)
  · exact apart (sound.owner_unique (hostHolds_owes held) owed)
  · exact apart' (sound.owner_unique (waiterHolds_owes held) owed)

theorem not_held {w : GroupPlaces N} (sound : Custody.Sound (Places.debt debts w) w.shared.regs)
    (filled : w.shared.regs.value .fifo ≠ 0) (value : Nat) :
    hostHolds (w.proc .host) ≠ some value ∧ waiterHolds (w.proc .waiter) ≠ some value :=
  ⟨fun held => filled (sound .host .fifo (hostHolds_owes held)).1,
    fun held => filled (sound .waiter .fifo (waiterHolds_owes held)).1⟩

end Carries

section Posted

def Chunk (g : Group N) (posted : Nat) (memory : Nat → Nat) : Prop :=
  0 < posted → ∀ j < g.size, memory (g.phyAddr + j) = g.data ((posted - 1) * g.size + j)

/-- Where the burst thread stands after so many chunks, with the buffer and the bytes it has
    stored. -/
inductive Posted (g : Group N) (posted : Nat) :
    Place (SynchPoint .WRITE Nat) Unit → (Nat → Nat) → Nat → Prop
  | waiting {l : Place (SynchPoint .WRITE Nat) Unit} {memory : Nat → Nat}
      (waiting : SynchPoint.Waiting g.globalSize (posted * g.size) l)
      (bound : posted * g.size ≤ g.globalSize) (chunk : Chunk g posted memory) :
      Posted g posted l memory (posted * g.size)
  | back {value : Nat} {other : value ≠ MangoEventStatus.WRITE.value} {memory : Nat → Nat}
      (more : posted * g.size < g.globalSize) (chunk : Chunk g posted memory) :
      Posted g posted ⟨some (.back (posted * g.size) value other), []⟩ memory (posted * g.size)
  | storing {j : Nat} {memory : Nat → Nat} (inside : j < g.size)
      (fitting : (posted + 1) * g.size ≤ g.globalSize)
      (bytes : ∀ k < j, memory (g.phyAddr + k) = g.data (posted * g.size + k)) :
      Posted g posted ⟨some (.inside (posted * g.size) j), []⟩ memory (posted * g.size + j)
  | stored {memory : Nat → Nat} (fitting : (posted + 1) * g.size ≤ g.globalSize)
      (bytes : ∀ k < g.size, memory (g.phyAddr + k) = g.data (posted * g.size + k)) :
      Posted g posted ⟨some (.post (posted * g.size)), []⟩ memory (posted * g.size + g.size)

end Posted

def phaseOf (leader : Option (Fin N)) (w : GroupPlaces N) : FifoPhase :=
  leader.elim .before fun i => (w.proc (.task i)).point.elim .before TaskPoint.phase

/-- The burst thread, the register and the last task agree about the chunks. -/
structure Delivery (g : Group N) (released : Nat) (leader : Option (Fin N)) (posted : Nat)
    (w : GroupPlaces N) : Prop where
  host : Posted g posted (w.proc .host) w.shared.memory (w.shared.count Op.stores)
  counts : (phaseOf leader w).Counts released posted
  carried : ∀ value, Carries w value → (phaseOf leader w).Circulates released posted value

section Frame

variable {g : Group N} {released released' posted : Nat} {leader leader' : Option (Fin N)}
  {w v : GroupPlaces N}

theorem Delivery.move (d : Delivery g released leader posted w)
    (host : v.proc .host = w.proc .host) (memory : v.shared.memory = w.shared.memory)
    (stores : v.shared.count Op.stores = w.shared.count Op.stores)
    (counts : (phaseOf leader' v).Counts released' posted)
    (carried : ∀ value, Carries v value → (phaseOf leader' v).Circulates released' posted value) :
    Delivery g released' leader' posted v where
  host := by rw [host, memory, stores]; exact d.host
  counts := counts
  carried := carried

theorem carries_congr {value : Nat} (host : v.proc .host = w.proc .host)
    (waiter : v.proc .waiter = w.proc .waiter)
    (fifo : v.shared.regs.value .fifo = w.shared.regs.value .fifo) (carries : Carries v value) :
    Carries w value := by
  unfold Carries at carries ⊢
  rwa [host, waiter, fifo] at carries

theorem Delivery.congr (d : Delivery g released leader posted w)
    (host : v.proc .host = w.proc .host) (waiter : v.proc .waiter = w.proc .waiter)
    (memory : v.shared.memory = w.shared.memory)
    (stores : v.shared.count Op.stores = w.shared.count Op.stores)
    (fifo : v.shared.regs.value .fifo = w.shared.regs.value .fifo)
    (same : released' = released) (phase : phaseOf leader' v = phaseOf leader w) :
    Delivery g released' leader' posted v := by
  subst same
  apply d.move host memory stores (phase ▸ d.counts)
  intro value carries
  rw [phase]
  exact d.carried value (carries_congr host waiter fifo carries)

end Frame

section Tasks

variable {g : Group N} {r r' : Rounds (Fin N)} {leader leader' : Option (Fin N)} {posted : Nat}
  {w : GroupPlaces N} {i : Fin N} {p : TaskPoint GroupReg} {calls : List TaskCall}

theorem task_stores_nothing (combine : Nat → Nat → Nat) {j : Party N} (s : Shared (Party N) GroupReg) :
    (exec combine j (p.op (spawnArgs N i)) s).2.memory = s.memory ∧
      (exec combine j (p.op (spawnArgs N i)) s).2.count Op.stores = s.count Op.stores := by
  rw [exec_memory, exec_count]
  cases p <;> exact ⟨rfl, rfl⟩

theorem follower_leaves_fifo (follows : p.leads = none) :
    p.op (spawnArgs N i) ≠ .readSynchronization .fifo ∧
      (p.op (spawnArgs N i)).written ≠ some .fifo := by
  cases p <;> first | (cases follows; done) | simp [TaskPoint.op, spawnArgs, Op.written]

theorem released_same (m : Meeting g.rounds r leader w)
    (m' : Meeting g.rounds r' leader' (w.step (g.act overwrite) (.task i)))
    (here : w.proc (.task i) = ⟨some p, calls⟩) (stays : ∀ go, p ≠ .writeFlip go) :
    r'.released = r.released := by
  have member := m.member i
  rw [here] at member
  have own := member.fifo_own
  have trace := m'.released
  rw [step_task here] at trace
  have kept : releases ((Party.task i, p.op (spawnArgs N i)) :: w.shared.trace) =
      (r.released, releaseValue r.released) := by
    cases p with
    | backRelease old =>
      rcases member.shape with ⟨found, _⟩ | found | found
      · rw [show old = releaseValue r.released from found]
        exact releases_again m.released
      · cases found.1
      · exact absurd found id
    | backAwait go value =>
      rcases member.shape with ⟨found, _⟩ | found | found
      · exact absurd found id
      · rw [show value = releaseValue r.released from found.2.1]
        exact releases_again m.released
      · exact absurd found id
    | writeFlip go => exact absurd rfl (stays go)
    | fifoRequest | fifoBack | fifoEnd =>
      rcases own with none | fifo
      · cases none
      · cases fifo
        exact m.released
    | _ => exact m.released
  exact congrArg Prod.fst (trace.symm.trans kept)

theorem leader_same (m : Meeting g.rounds r leader w) {v : GroupPlaces N}
    (m' : Meeting g.rounds r' leader' v)
    (same : ∀ j, leading (v.proc (.task j)) = leading (w.proc (.task j))) : leader' = leader := by
  ext j
  have before := m.leads j
  have after := m'.leads j
  rw [same] at after
  exact after.symm.trans before

theorem phaseOf_some (leads : leader = some i) (here : w.proc (.task i) = ⟨some p, calls⟩) :
    phaseOf leader w = p.phase := by
  rw [leads, phaseOf, Option.elim_some, here]
  rfl

theorem follower_next {fifo : Option GroupReg} {value : Nat} (follows : p.leads = none) :
    (p.next fifo value).elim .before TaskPoint.phase = FifoPhase.before := by
  cases p with
  | lockRelease | lockBarrier | lockExit =>
    simp only [TaskPoint.next, retry]
    split <;> rfl
  | awaitRelease =>
    simp only [TaskPoint.next, await]
    split
    · rfl
    · split <;> rfl
  | writeBarrier | backAwait =>
    simp only [TaskPoint.next]
    split <;> rfl
  | reached | backRelease | waiting | flipped | writeExit => rfl
  | _ => cases follows

theorem follower_becomes (follows : leading (w.proc (.task i)) = false) :
    ((w.step (g.act overwrite) (.task i)).proc (.task i)).point.elim .before TaskPoint.phase =
      FifoPhase.before := by
  rcases here : w.proc (.task i) with ⟨_ | p, _ | ⟨call, calls⟩⟩
  · rw [Places.step_finished here, here]
    rfl
  · rw [Places.step_enter here]
    dsimp only
    rw [Function.update_self]
    cases call <;> rfl
  all_goals
    rw [here] at follows
    rw [step_task here]
    dsimp only
    rw [Function.update_self]
    exact follower_next (Option.isSome_eq_false_iff.mp follows |> Option.isNone_iff_eq_none.mp)

/-- The step of another task leaves the last one, if there is one, where it stands. -/
theorem follower_phase (m : Meeting g.rounds r leader w)
    (m' : Meeting g.rounds r' leader' (w.step (g.act overwrite) (.task i)))
    (follows : leading (w.proc (.task i)) = false) :
    phaseOf leader' (w.step (g.act overwrite) (.task i)) = phaseOf leader w := by
  have others : ∀ j, j ≠ i → (w.step (g.act overwrite) (.task i)).proc (.task j) = w.proc (.task j) :=
    fun j other => World.step_proc_other (by simpa using other) w
  have mine : leader ≠ some i := fun first => by
    have leads := (m.leads i).mpr first
    rw [follows] at leads
    cases leads
  by_cases first : leader' = some i
  · have none : leader = Option.none := by
      rcases old : leader with _ | j
      · rfl
      · have other : j ≠ i := by
          rintro rfl
          exact mine old
        have still := (m'.leads j).mp (by rw [others j other]; exact (m.leads j).mpr old)
        rw [first] at still
        exact absurd (Option.some.inj still).symm other
    rw [first, none, phaseOf, Option.elim_some, follower_becomes follows]
    rfl
  · have same : leader' = leader := by
      apply leader_same m m'
      intro j
      by_cases mine' : j = i
      · subst mine'
        rw [follows]
        refine Bool.eq_false_iff.mpr fun leads => first ((m'.leads j).mp leads)
      · rw [others j mine']
    rw [same]
    rcases leader with _ | j
    · rfl
    · have other : j ≠ i := fun same => mine (by rw [same])
      simp only [phaseOf, Option.elim_some, others j other]

theorem Delivery.step_follower (d : Delivery g r.released leader posted w)
    (m : Meeting g.rounds r leader w)
    (m' : Meeting g.rounds r' leader' (w.step (g.act overwrite) (.task i)))
    (follows : leading (w.proc (.task i)) = false) :
    Delivery g r'.released leader' posted (w.step (g.act overwrite) (.task i)) := by
  have host : (w.step (g.act overwrite) (.task i)).proc .host = w.proc .host :=
    World.step_proc_other (by simp) w
  have waiter : (w.step (g.act overwrite) (.task i)).proc .waiter = w.proc .waiter :=
    World.step_proc_other (by simp) w
  have phase := follower_phase m m' follows
  rcases here : w.proc (.task i) with ⟨_ | p, calls⟩
  · have still : (w.step (g.act overwrite) (.task i)).shared = w.shared := by
      cases calls with
      | nil => rw [Places.step_finished here]
      | cons call calls => rw [Places.step_enter here]
    have released : r'.released = r.released := by
      have after := m'.released
      rw [still, m.released] at after
      exact (congrArg Prod.fst after).symm
    exact d.congr host waiter (by rw [still]) (by rw [still]) (by rw [still]) released phase
  · have none : p.leads = Option.none := by
      rw [here] at follows
      exact Option.isNone_iff_eq_none.mp (Option.isSome_eq_false_iff.mp follows)
    have apart := follower_leaves_fifo (i := i) none
    have stays : ∀ go, p ≠ .writeFlip go := by
      rintro go rfl
      cases none
    have released := released_same m m' here stays
    have quiet := task_stores_nothing overwrite (j := .task i) (i := i) (p := p) w.shared
    refine d.congr host waiter ?_ ?_ ?_ released phase
    · rw [step_task here]
      exact quiet.1
    · rw [step_task here]
      exact quiet.2
    · rw [step_task here]
      exact exec_value_other _ _ _ _ apart.1 apart.2

theorem Delivery.lead (d : Delivery g r.released leader posted w) (m : Meeting g.rounds r leader w)
    (m' : Meeting g.rounds r' leader' (w.step (g.act overwrite) (.task i)))
    (here : w.proc (.task i) = ⟨some p, calls⟩) (q : TaskPoint GroupReg)
    (goes : p.next g.fifo ((p.op (spawnArgs N i)).answer w.shared) = some q)
    (leads : q.leads.isSome = true) (stays : ∀ go, p ≠ .writeFlip go)
    (counts : q.phase.Counts r.released posted)
    (carried : ∀ value, Carries (w.step (g.act overwrite) (.task i)) value →
      q.phase.Circulates r.released posted value) :
    Delivery g r'.released leader' posted (w.step (g.act overwrite) (.task i)) := by
  have place : (w.step (g.act overwrite) (.task i)).proc (.task i) = ⟨some q, calls⟩ := by
    rw [step_task here, goes]
    exact Function.update_self _ _ _
  have first : leader' = some i := (m'.leads i).mp (by rw [place]; exact leads)
  have phase := phaseOf_some first place
  have quiet := task_stores_nothing overwrite (j := .task i) (i := i) (p := p) w.shared
  rw [released_same m m' here stays]
  refine d.move (World.step_proc_other (by simp) w) ?_ ?_ (phase ▸ counts) (phase ▸ carried)
  · rw [step_task here]
    exact quiet.1
  · rw [step_task here]
    exact quiet.2

theorem carries_task {j : Fin N} {value : Nat}
    (fifo : (w.step (g.act overwrite) (.task j)).shared.regs.value .fifo = w.shared.regs.value .fifo)
    (carries : Carries (w.step (g.act overwrite) (.task j)) value) : Carries w value :=
  carries_congr (World.step_proc_other (by simp) w) (World.step_proc_other (by simp) w) fifo carries

theorem Delivery.lead_quiet (d : Delivery g r.released leader posted w)
    (m : Meeting g.rounds r leader w)
    (m' : Meeting g.rounds r' leader' (w.step (g.act overwrite) (.task i)))
    (first : leader = some i) (here : w.proc (.task i) = ⟨some p, calls⟩) (q : TaskPoint GroupReg)
    (goes : p.next g.fifo ((p.op (spawnArgs N i)).answer w.shared) = some q)
    (leads : q.leads.isSome = true) (stays : ∀ go, p ≠ .writeFlip go) (same : q.phase = p.phase)
    (fifo : (w.step (g.act overwrite) (.task i)).shared.regs.value .fifo = w.shared.regs.value .fifo) :
    Delivery g r'.released leader' posted (w.step (g.act overwrite) (.task i)) := by
  have counts := d.counts
  have carried := d.carried
  rw [phaseOf_some first here, ← same] at counts carried
  exact d.lead m m' here q goes leads stays counts fun value carries =>
    carried value (carries_task fifo carries)

theorem carries_taken (sound : Custody.Sound (Places.debt debts w) w.shared.regs)
    (here : w.proc (.task i) = ⟨some p, calls⟩)
    (takes : p.op (spawnArgs N i) = .readSynchronization .fifo)
    (filled : w.shared.regs.value .fifo ≠ 0) (value : Nat) :
    ¬ Carries (w.step (g.act overwrite) (.task i)) value := by
  have empty : (w.step (g.act overwrite) (.task i)).shared.regs.value .fifo = 0 := by
    rw [step_task here, takes]
    exact Custody.take_value_self _ _ _
  rintro (⟨filled', found⟩ | held | held)
  · exact filled' (found.symm.trans empty)
  · rw [World.step_proc_other (by simp) w] at held
    exact (not_held sound filled value).1 held
  · rw [World.step_proc_other (by simp) w] at held
    exact (not_held sound filled value).2 held

theorem carries_written (sound : Custody.Sound (Places.debt debts w) w.shared.regs)
    (here : w.proc (.task i) = ⟨some p, calls⟩) (written : Nat) (fits : written < 2^32)
    (puts : p.op (spawnArgs N i) = .writeSynchronization .fifo written)
    (owes : p.owes (spawnArgs N i) = some .fifo) (value : Nat)
    (carries : Carries (w.step (g.act overwrite) (.task i)) value) : value = written := by
  have owed : Places.debt debts w (.task i) = some .fifo := by
    rw [Places.debt, here]
    exact owes
  have filled : (w.step (g.act overwrite) (.task i)).shared.regs.value .fifo = written := by
    rw [step_task here, puts]
    exact put_overwrite fits
  have none := not_carried sound owed (by simp) (by simp) value
  rcases carries with ⟨_, found⟩ | held | held
  · exact found.symm.trans filled
  · rw [World.step_proc_other (by simp) w] at held
    exact absurd (.inr (.inl held)) none
  · rw [World.step_proc_other (by simp) w] at held
    exact absurd (.inr (.inr held)) none

theorem read_empty (here : w.proc (.task i) = ⟨some p, calls⟩)
    (takes : p.op (spawnArgs N i) = .readSynchronization .fifo)
    (empty : w.shared.regs.value .fifo = 0) :
    (w.step (g.act overwrite) (.task i)).shared.regs.value .fifo = w.shared.regs.value .fifo := by
  rw [step_task here, takes, empty]
  exact Custody.take_value_self _ _ _

theorem Delivery.lead_apart (d : Delivery g r.released leader posted w)
    (m : Meeting g.rounds r leader w)
    (m' : Meeting g.rounds r' leader' (w.step (g.act overwrite) (.task i)))
    (first : leader = some i) (here : w.proc (.task i) = ⟨some p, calls⟩) (q : TaskPoint GroupReg)
    (goes : p.next g.fifo ((p.op (spawnArgs N i)).answer w.shared) = some q)
    (leads : q.leads.isSome = true) (stays : ∀ go, p ≠ .writeFlip go) (same : q.phase = p.phase)
    (apart : p.op (spawnArgs N i) ≠ .readSynchronization .fifo ∧
      (p.op (spawnArgs N i)).written ≠ some .fifo) :
    Delivery g r'.released leader' posted (w.step (g.act overwrite) (.task i)) := by
  refine d.lead_quiet m m' first here q goes leads stays same ?_
  rw [step_task here]
  exact exec_value_other _ _ _ _ apart.1 apart.2

/-- The leader has taken the status of the FIFO: nobody holds one now. -/
theorem Delivery.lead_takes (d : Delivery g r.released leader posted w) (m : Meeting g.rounds r leader w)
    (m' : Meeting g.rounds r' leader' (w.step (g.act overwrite) (.task i)))
    (sound : Custody.Sound (Places.debt debts w) w.shared.regs)
    (here : w.proc (.task i) = ⟨some p, calls⟩) {q : TaskPoint GroupReg}
    (goes : p.next g.fifo ((p.op (spawnArgs N i)).answer w.shared) = some q)
    (leads : q.leads.isSome = true) (stays : ∀ go, p ≠ .writeFlip go)
    (takes : p.op (spawnArgs N i) = .readSynchronization .fifo)
    (filled : w.shared.regs.value .fifo ≠ 0) (counts : q.phase.Counts r.released posted) :
    Delivery g r'.released leader' posted (w.step (g.act overwrite) (.task i)) :=
  d.lead m m' here q goes leads stays counts fun value carries =>
    absurd carries (carries_taken sound here takes filled value)

/-- The leader has put a status back: no other one is under way. -/
theorem Delivery.lead_puts (d : Delivery g r.released leader posted w) (m : Meeting g.rounds r leader w)
    (m' : Meeting g.rounds r' leader' (w.step (g.act overwrite) (.task i)))
    (sound : Custody.Sound (Places.debt debts w) w.shared.regs)
    (here : w.proc (.task i) = ⟨some p, calls⟩) (q : TaskPoint GroupReg)
    (goes : p.next g.fifo ((p.op (spawnArgs N i)).answer w.shared) = some q)
    (leads : q.leads.isSome = true) (stays : ∀ go, p ≠ .writeFlip go) {written : Nat} (fits : written < 2^32)
    (puts : p.op (spawnArgs N i) = .writeSynchronization .fifo written)
    (owes : p.owes (spawnArgs N i) = some .fifo) (counts : q.phase.Counts r.released posted)
    (circulates : q.phase.Circulates r.released posted written) :
    Delivery g r'.released leader' posted (w.step (g.act overwrite) (.task i)) := by
  refine d.lead m m' here q goes leads stays counts fun value carries => ?_
  obtain rfl := carries_written sound here written fits puts owes value carries
  exact circulates

theorem Delivery.flip (d : Delivery g r.released leader posted w) (m : Meeting g.rounds r leader w)
    (m' : Meeting g.rounds r' leader' (w.step (g.act overwrite) (.task i)))
    (first : leader = some i) {go : Nat} (here : w.proc (.task i) = ⟨some (.writeFlip go), calls⟩) :
    Delivery g r'.released leader' posted (w.step (g.act overwrite) (.task i)) := by
  have member := m.member i
  rw [here] at member
  have go' : go = releaseValue (r.released + 1) := by
    rcases member.shape with ⟨shape, _⟩ | ⟨leads, arrived, _⟩ | shape
    · exact absurd shape id
    · rw [← arrived]
      exact Option.some.inj leads
    · exact absurd shape id
  have released : r'.released = r.released + 1 := by
    have trace := m'.released
    rw [step_task here] at trace
    have next := releases_next (i := Party.task i) m.released (releaseValue_succ_ne r.released)
    rw [← go'] at next
    exact congrArg Prod.fst (trace.symm.trans next)
  have none : leader' = Option.none := by
    rcases after : leader' with _ | j
    · rfl
    · have leads := (m'.leads j).mpr after
      by_cases same : j = i
      · subst same
        rw [step_task here] at leads
        simp [TaskPoint.next, leading, TaskPoint.leads] at leads
      · rw [World.step_proc_other (by simpa using same) w, m.leads j, first] at leads
        exact absurd (Option.some.inj leads).symm same
  have counts := d.counts
  have carried := d.carried
  rw [phaseOf_some first here] at counts carried
  have posted' : posted = r.released + 1 := counts
  rw [none]
  refine d.move (World.step_proc_other (by simp) w) ?_ ?_ (.inr ⟨by omega, by omega⟩) ?_
  · rw [step_task here]
    rfl
  · rw [step_task here]
    exact (task_stores_nothing overwrite w.shared).2
  · intro value carries
    have found := carried value (carries_task (by
      rw [step_task here]
      exact exec_value_other _ _ _ _ (by simp [TaskPoint.op]) (by simp [TaskPoint.op, Op.written, spawnArgs]))
      carries)
    exact .inr ⟨by omega, found.1, by omega⟩

theorem Delivery.step_leader (d : Delivery g r.released leader posted w)
    (m : Meeting g.rounds r leader w)
    (m' : Meeting g.rounds r' leader' (w.step (g.act overwrite) (.task i)))
    (sound : Custody.Sound (Places.debt debts w) w.shared.regs) (uses : g.usesFifo = true)
    (first : leader = some i) :
    Delivery g r'.released leader' posted (w.step (g.act overwrite) (.task i)) := by
  have leads := (m.leads i).mpr first
  have member := m.member i
  rcases here : w.proc (.task i) with ⟨_ | p, calls⟩
  · rw [here] at leads
    cases leads
  · rw [here] at leads member
    have own := member.fifo_own
    have counts := d.counts
    have carried := d.carried
    rw [phaseOf_some first here] at counts carried
    have mine : ∀ {f : GroupReg}, p.fifoOf = some f → f = .fifo := by
      rintro f found
      rcases own with none | fifo
      · rw [found] at none
        cases none
      · exact Option.some.inj (found.symm.trans fifo)
    cases p with
    | allReached go =>
      exact d.lead_apart m m' first here (.fifoAcquiring .fifo go)
        (by simp [TaskPoint.next, Group.fifo, uses]) rfl (by simp) rfl
        (by simp [TaskPoint.op, Op.written])
    | fifoAcquiring f go =>
      exact d.lead_apart m m' first here (.fifoLock f go) rfl rfl (by simp) rfl
        (by simp [TaskPoint.op, Op.written])
    | fifoLock f go =>
      obtain rfl := mine rfl
      rcases retry_cases (TaskPoint.fifoLock GroupReg.fifo go) (.fifoLocked GroupReg.fifo go (w.shared.regs.value .fifo))
        (w.shared.regs.value .fifo) with ⟨empty, goes⟩ | ⟨filled, goes⟩
      · exact d.lead_quiet m m' first here _ goes rfl (by simp) rfl (read_empty here rfl empty)
      · have found := carried _ (.inl ⟨filled, rfl⟩)
        refine d.lead_takes m m' sound here goes rfl (by simp) rfl filled ?_
        simp only [TaskPoint.phase, FifoPhase.Circulates, FifoPhase.Counts] at found ⊢
        omega
    | fifoLocked f go value =>
      obtain rfl := mine rfl
      have fifo : (w.step (g.act overwrite) (.task i)).shared.regs.value .fifo =
          w.shared.regs.value .fifo := by
        rw [step_task here]
        exact exec_value_other _ _ _ _ (by simp [TaskPoint.op]) (by simp [TaskPoint.op, Op.written])
      have owed : Places.debt debts w (.task i) = some .fifo := by
        rw [Places.debt, here]
        rfl
      have nobody := not_carried sound owed (by simp) (by simp)
      by_cases ready : value = MangoEventStatus.READ.value
      · refine d.lead m m' here (.fifoEnd .fifo go) (if_pos ready) rfl (by simp) ?_ fun other carries =>
          absurd (carries_task fifo carries) (nobody other)
        rcases counts with ⟨_, posted⟩ | ⟨other, _⟩
        · exact posted
        · exact absurd ready other
      · refine d.lead m m' here (.fifoRequest .fifo go) (if_neg ready) rfl (by simp) ?_ fun other carries =>
          absurd (carries_task fifo carries) (nobody other)
        rcases counts with ⟨found, _⟩ | ⟨_, posted⟩
        · exact absurd found ready
        · exact posted
    | fifoRequest f go =>
      obtain rfl := mine rfl
      exact d.lead_puts m m' sound here (.fifoRequested .fifo go) rfl rfl (by simp) (by decide) rfl rfl
        (.inl counts) (.inl ⟨rfl, counts⟩)
    | fifoRequested f go =>
      exact d.lead_apart m m' first here (.fifoAwait f go) rfl rfl (by simp) rfl
        (by simp [TaskPoint.op, Op.written])
    | fifoAwait f go =>
      obtain rfl := mine rfl
      rcases await_cases (TaskPoint.fifoAwait GroupReg.fifo go) (w.shared.regs.value .fifo)
        MangoEventStatus.READ.value (.fifoBack .fifo go (w.shared.regs.value .fifo))
        (some (.fifoRelock .fifo go)) with ⟨empty, goes⟩ | ⟨filled, same, goes⟩ | ⟨filled, other, goes⟩
      · exact d.lead_quiet m m' first here _ goes rfl (by simp) rfl (read_empty here rfl empty)
      · refine d.lead_takes m m' sound here goes rfl (by simp) rfl filled ?_
        rcases carried _ (.inl ⟨filled, rfl⟩) with ⟨found, _⟩ | ⟨_, posted⟩
        · rw [same] at found
          cases found
        · exact posted
      · refine d.lead_takes m m' sound here goes rfl (by simp) rfl filled ?_
        rcases carried _ (.inl ⟨filled, rfl⟩) with found | ⟨found, _⟩
        · exact found
        · exact absurd found other
    | fifoBack f go value =>
      obtain rfl := mine rfl
      obtain ⟨rfl, asked⟩ := counts
      exact d.lead_puts m m' sound here (.fifoAwait .fifo go) rfl rfl (by simp) (by decide) rfl rfl
        (.inl asked) (.inl ⟨rfl, asked⟩)
    | fifoRelock f go =>
      obtain rfl := mine rfl
      rcases retry_cases (TaskPoint.fifoRelock GroupReg.fifo go) (.fifoEnd .fifo go)
        (w.shared.regs.value .fifo) with ⟨empty, goes⟩ | ⟨filled, _⟩
      · exact d.lead_quiet m m' first here _ goes rfl (by simp) rfl (read_empty here rfl empty)
      · exact (carried _ (.inl ⟨filled, rfl⟩)).elim
    | fifoEnd f go =>
      obtain rfl := mine rfl
      exact d.lead_puts m m' sound here (.fifoComplete go) rfl rfl (by simp) (by decide) rfl rfl
        counts ⟨rfl, counts⟩
    | fifoComplete go =>
      exact d.lead_apart m m' first here (.lockReset go) rfl rfl (by simp) rfl
        (by simp [TaskPoint.op, Op.written])
    | lockReset go =>
      rcases retry_cases (TaskPoint.lockReset go) (.writeReset go) (w.shared.regs.value .eventB)
        with ⟨_, goes⟩ | ⟨_, goes⟩
      all_goals
        exact d.lead_apart m m' first here _ goes rfl (by simp) rfl
          (by simp [TaskPoint.op, Op.written, spawnArgs])
    | writeReset go =>
      exact d.lead_apart m m' first here (.resetDone go) rfl rfl (by simp) rfl
        (by simp [TaskPoint.op, Op.written, spawnArgs])
    | resetDone go =>
      exact d.lead_apart m m' first here (.lockFlip go) rfl rfl (by simp) rfl
        (by simp [TaskPoint.op, Op.written])
    | lockFlip go =>
      rcases retry_cases (TaskPoint.lockFlip go) (.writeFlip go) (w.shared.regs.value .eventR)
        with ⟨_, goes⟩ | ⟨_, goes⟩
      all_goals
        exact d.lead_apart m m' first here _ goes rfl (by simp) rfl
          (by simp [TaskPoint.op, Op.written, spawnArgs])
    | writeFlip go => exact d.flip m m' first here
    | _ => cases leads

end Tasks

end MangoModel
