import LibMango.Group.MeetingStep

namespace MangoModel

open Interleave Device

section Returns

variable {ρ : Type} {rounds released arrived : Nat} {l : Place (TaskPoint GroupReg) TaskCall}

theorem Member.returned_le (member : Member rounds released arrived l) (high : arrived ≤ released + 1)
    (args : TaskArgs GroupReg) (fifo : Option GroupReg) {k : Nat} (within : k ≤ rounds)
    (returned : k ≤ ((taskChart args fifo).thread l).returned (rounds + 1)) : k ≤ released := by
  unfold Thread.returned Thread.entered at returned
  rw [Chart.thread_calls_length, Chart.thread_idle] at returned
  cases member with
  | idle total same =>
    simp at returned
    omega
  | approaching total same shape =>
    simp at returned
    omega
  | signalled total shape =>
    simp at returned
    omega
  | exiting total same shape =>
    simp at returned
    omega
  | ended total same => omega

theorem Member.le_entered (member : Member rounds released arrived l)
    (args : TaskArgs GroupReg) (fifo : Option GroupReg) :
    arrived ≤ rounds ∧ arrived ≤ ((taskChart args fifo).thread l).entered (rounds + 1) := by
  unfold Thread.entered
  rw [Chart.thread_calls_length]
  cases member with
  | idle total same => simp; omega
  | approaching total same shape => simp; omega
  | signalled total shape => simp; omega
  | exiting total same shape => simp; omega
  | ended total same => simp; omega

end Returns

variable {N : Nat}

/-- How many barriers a task has reported to have reached. -/
def begun (i : Fin N) (trace : List (Party N × Op GroupReg)) : Nat :=
  trace.count (.task i, .dprint (.barrierReached i))

/-- The tasks that found their barrier reached by all, the latest first, with the number of
    the barrier. -/
def lastArrivals : List (Party N × Op GroupReg) → List (Fin N × Nat)
  | [] => []
  | (.task i, .dprint .reachedByAll) :: rest => (i, begun i rest) :: lastArrivals rest
  | _ :: rest => lastArrivals rest

theorem lastArrivals_other {j : Party N} {a : Op GroupReg} (other : a ≠ .dprint .reachedByAll)
    (rest : List (Party N × Op GroupReg)) : lastArrivals ((j, a) :: rest) = lastArrivals rest := by
  cases j with
  | task i =>
    cases a with
    | dprint line =>
      cases line with
      | reachedByAll => exact absurd rfl other
      | _ => rfl
    | _ => rfl
  | _ => rfl

namespace Device.TaskPoint

variable {ρ : Type}

def inBranch : TaskPoint ρ → Bool
  | .allReached _ => false
  | p => p.leads.isSome

theorem inBranch_leads {p : TaskPoint ρ} (inside : p.inBranch = true) : p.leads.isSome = true := by
  cases p <;> first | rfl | cases inside

theorem next_inBranch {p : TaskPoint ρ} {fifo : Option ρ} {value : Nat}
    (inside : p.inBranch = true) (stays : ∀ go, p ≠ .writeFlip go) :
    ((p.next fifo value).any inBranch) = true := by
  cases p with
  | writeFlip go => exact absurd rfl (stays go)
  | fifoLock | fifoRelock | lockReset | lockFlip =>
    simp only [next, retry]
    split <;> rfl
  | fifoAwait =>
    simp only [next, await]
    split
    · rfl
    · split <;> rfl
  | fifoLocked | fifoBack =>
    simp only [next]
    split <;> rfl
  | fifoAcquiring | fifoRequest | fifoRequested | fifoEnd | fifoComplete | writeReset | resetDone => rfl
  | _ => cases inside

def begins : TaskPoint ρ → Bool
  | .reached => true
  | _ => false

theorem next_begins (p : TaskPoint ρ) (fifo : Option ρ) (value : Nat) :
    ((p.next fifo value).any begins) = false := by
  cases p with
  | lockRelease | lockBarrier | fifoLock | fifoRelock | lockReset | lockFlip | lockExit =>
    simp only [next, retry]
    split <;> rfl
  | awaitRelease | fifoAwait =>
    simp only [next, await]
    split
    · rfl
    · split <;> rfl
  | writeBarrier | backAwait | fifoLocked | fifoBack =>
    simp only [next]
    split <;> rfl
  | allReached => cases fifo <;> rfl
  | _ => rfl

theorem op_of_not_begins {p : TaskPoint ρ} (other : p.begins = false) (args : TaskArgs ρ) (tid : Nat) :
    p.op args ≠ .dprint (.barrierReached tid) := by
  cases p with
  | reached => cases other
  | _ => simp [op]

end Device.TaskPoint

section Begun

variable {g : Group N} {w : GroupPlaces N}

def unreported (l : Place (TaskPoint GroupReg) TaskCall) : Nat :=
  l.calls.count .barrier + if l.point.any TaskPoint.begins then 1 else 0

theorem unreported_inside {q : Option (TaskPoint GroupReg)} (inside : q.any TaskPoint.begins = false)
    (calls : List TaskCall) : unreported ⟨q, calls⟩ = calls.count .barrier := by
  simp [unreported, inside]

def Reported (g : Group N) (w : GroupPlaces N) : Prop :=
  ∀ i, begun i w.shared.trace + unreported (w.proc (.task i)) = g.rounds i

theorem begun_other {i : Fin N} {j : Party N} {a : Op GroupReg}
    (other : j ≠ .task i ∨ a ≠ .dprint (.barrierReached i)) (rest : List (Party N × Op GroupReg)) :
    begun i ((j, a) :: rest) = begun i rest := by
  apply List.count_cons_of_ne
  rintro ⟨⟩
  rcases other with party | line
  · exact party rfl
  · exact line rfl

theorem reported_step {combine : Nat → Nat → Nat} (reported : Reported g w) (j : Party N) :
    Reported g (w.step (g.act combine) j) := by
  intro i
  have before := reported i
  by_cases mine : j = .task i
  · subst mine
    rcases here : w.proc (.task i) with ⟨_ | p, calls⟩
    · cases calls with
      | nil =>
        rw [Places.step_finished here]
        exact before
      | cons call calls =>
        rw [here] at before
        rw [Places.step_enter here]
        dsimp only
        rw [Function.update_self, ← before]
        congr 1
        cases call with
        | barrier => exact (List.count_cons_self (a := TaskCall.barrier) (l := calls)).symm
        | exit => exact (List.count_cons_of_ne (a := TaskCall.barrier) (b := .exit) (l := calls) (by decide)).symm
    · rw [here] at before
      rw [step_task here]
      dsimp only
      rw [Function.update_self, exec_trace, unreported_inside (TaskPoint.next_begins _ _ _)]
      cases first : p.begins with
      | true =>
        cases p with
        | reached =>
          have reports : begun i ((.task i, TaskPoint.reached.op (spawnArgs N i)) :: w.shared.trace) =
              begun i w.shared.trace + 1 := List.count_cons_self
          rw [reports, ← before]
          exact Nat.succ_add_eq_add_succ _ _
        | _ => cases first
      | false =>
        rw [begun_other (.inr (TaskPoint.op_of_not_begins first _ _)), ← before,
          unreported_inside (q := some p) first]
  · have still : (w.step (g.act combine) j).proc (.task i) = w.proc (.task i) :=
      World.step_proc_other (Ne.symm mine) w
    have same : begun i (w.step (g.act combine) j).shared.trace = begun i w.shared.trace := by
      rcases here : w.proc j with ⟨_ | p, _ | ⟨call, calls⟩⟩
      · rw [Places.step_finished here]
      · rw [Places.step_enter here]
      · rw [Places.step_op here]
        exact begun_other (.inl mine) _
      · rw [Places.step_op here]
        exact begun_other (.inl mine) _
    rw [still, same]
    exact before

theorem reported_start (g : Group N) : Reported g g.places := by
  intro i
  simp [Group.places, Group.shared, Shared.start, begun, unreported, List.count_append]

theorem reported_reachable {combine : Nat → Nat → Nat}
    (reach : World.Reachable (g.act combine) g.places w) : Reported g w :=
  reach.invariant (fun _ j _ reported => reported_step reported j) (reported_start g)

end Begun

section LastArrivals

variable {g : Group N} {r : Rounds (Fin N)} {leader : Option (Fin N)} {w : GroupPlaces N}

def inBranch (l : Place (TaskPoint GroupReg) TaskCall) : Bool := l.point.any TaskPoint.inBranch

theorem inBranch_leading {l : Place (TaskPoint GroupReg) TaskCall} (inside : inBranch l = true) :
    leading l = true := by
  rcases l with ⟨_ | p, calls⟩
  · cases inside
  · exact TaskPoint.inBranch_leads inside

/-- Each barrier was completed by one task; who completes the current one is still at it. -/
structure Completed (w : GroupPlaces N) : Prop where
  current : ∀ i k, (i, k) ∈ lastArrivals w.shared.trace → k ≤ (releases w.shared.trace).1 ∨
    k = (releases w.shared.trace).1 + 1 ∧ inBranch (w.proc (.task i)) = true
  once : ((lastArrivals w.shared.trace).map Prod.snd).Nodup

theorem releases_le {j : Party N} (a : Op GroupReg) (rest : List (Party N × Op GroupReg)) :
    (releases rest).1 ≤ (releases ((j, a) :: rest)).1 := by
  by_cases other : a.written = some .eventR
  · cases a with
    | writeSynchronization e v =>
      cases other
      by_cases same : v = (releases rest).2 <;> simp [releases, same]
    | _ => cases other
  · rw [releases_other other]

theorem Meeting.begun_last (m : Meeting g.rounds r leader w) (reported : Reported g w) {i : Fin N}
    {go : Nat} {calls : List TaskCall} (here : w.proc (.task i) = ⟨some (.allReached go), calls⟩) :
    begun i w.shared.trace = r.released + 1 := by
  have member := m.member i
  have before := reported i
  rw [here] at member before
  rw [unreported_inside rfl] at before
  cases member with
  | approaching total same shape => exact absurd shape id
  | signalled total shape =>
    obtain ⟨_, arrived, _⟩ := shape
    simp [List.count_append] at before
    omega
  | exiting total same shape => exact absurd shape id

theorem Completed.step_other (completed : Completed w) {j : Party N} {l : Place (PartyPoint j) (PartyCall j)}
    {a : Op GroupReg} {s : Shared (Party N) GroupReg} (trace : s.trace = (j, a) :: w.shared.trace)
    (other : a ≠ .dprint .reachedByAll)
    (stays : ∀ i, inBranch (w.proc (.task i)) = true →
      inBranch (Function.update w.proc j l (.task i)) = true ∨
        (releases s.trace).1 = (releases w.shared.trace).1 + 1) :
    Completed ⟨Function.update w.proc j l, s⟩ where
  current i k found := by
    rw [trace, lastArrivals_other other] at found
    have later := releases_le (j := j) a w.shared.trace
    rw [← trace] at later
    rcases completed.current i k found with early | ⟨now, inside⟩
    · exact .inl (Nat.le_trans early later)
    · rcases stays i inside with still | next
      · rcases Nat.lt_or_ge (releases w.shared.trace).1 (releases s.trace).1 with less | same
        · exact .inl (by dsimp only; omega)
        · exact .inr ⟨by dsimp only; omega, still⟩
      · exact .inl (by dsimp only; omega)
  once := by
    dsimp only
    rw [trace, lastArrivals_other other]
    exact completed.once

theorem Completed.step_last (completed : Completed w) (m : Meeting g.rounds r leader w)
    (reported : Reported g w) {i : Fin N} {go : Nat} {calls : List TaskCall}
    (here : w.proc (.task i) = ⟨some (.allReached go), calls⟩) :
    Completed (w.step (g.act overwrite) (.task i)) := by
  have round := m.begun_last reported here
  have released : (releases w.shared.trace).1 = r.released := by rw [m.released]
  have arrivals : lastArrivals ((.task i, .dprint .reachedByAll) :: w.shared.trace) =
      (i, r.released + 1) :: lastArrivals w.shared.trace := by rw [lastArrivals, round]
  have fresh : ∀ k, k ∈ (lastArrivals w.shared.trace).map Prod.snd → k ≤ r.released := by
    intro k found
    obtain ⟨⟨j, k⟩, member, rfl⟩ := List.mem_map.mp found
    rcases completed.current j k member with early | ⟨_, inside⟩
    · exact released ▸ early
    · have mine : leader = some i := (m.leads i).mp (by rw [here]; rfl)
      have theirs := (m.leads j).mp (inBranch_leading inside)
      rw [mine] at theirs
      cases theirs
      rw [here] at inside
      cases inside
  have enters : ((TaskPoint.allReached go).next g.fifo
      (((TaskPoint.allReached go).op (spawnArgs N i)).answer w.shared)).any TaskPoint.inBranch = true := by
    cases uses : g.usesFifo <;> simp [TaskPoint.next, Group.fifo, uses] <;> rfl
  have unwritten : (releases ((.task i, .dprint .reachedByAll) :: w.shared.trace)).1 = r.released := released
  rw [step_task here]
  constructor
  · intro j k found
    have entry : (j, k) ∈ lastArrivals ((.task i, .dprint .reachedByAll) :: w.shared.trace) := found
    rw [arrivals] at entry
    change k ≤ (releases ((.task i, .dprint .reachedByAll) :: w.shared.trace)).1 ∨
      k = (releases ((.task i, .dprint .reachedByAll) :: w.shared.trace)).1 + 1 ∧ _
    rw [unwritten]
    rcases List.mem_cons.mp entry with now | before
    · cases now
      refine .inr ⟨rfl, ?_⟩
      dsimp only
      rw [Function.update_self]
      exact enters
    · exact .inl (fresh k (List.mem_map_of_mem before))
  · change ((lastArrivals ((.task i, .dprint .reachedByAll) :: w.shared.trace)).map Prod.snd).Nodup
    rw [arrivals, List.map_cons, List.nodup_cons]
    refine ⟨fun again => ?_, completed.once⟩
    have early := fresh _ again
    omega

theorem Meeting.releases_flip (m : Meeting g.rounds r leader w) {i j : Fin N} {go : Nat}
    {calls : List TaskCall} (here : w.proc (.task i) = ⟨some (.writeFlip go), calls⟩) :
    (releases ((.task j, .writeSynchronization .eventR go) :: w.shared.trace)).1 =
      (releases w.shared.trace).1 + 1 := by
  have member := m.member i
  rw [here] at member
  have flips : go = releaseValue (r.released + 1) := by
    cases member with
    | approaching total same shape => exact absurd shape id
    | signalled total shape =>
      obtain ⟨leads, arrived, _⟩ := shape
      rw [← arrived]
      exact Option.some.inj leads
    | exiting total same shape => exact absurd shape id
  rw [flips, releases_next m.released (releaseValue_succ_ne _), m.released]

theorem Completed.step_task (completed : Completed w) (m : Meeting g.rounds r leader w) {i : Fin N}
    {p : TaskPoint GroupReg} {calls : List TaskCall} (here : w.proc (.task i) = ⟨some p, calls⟩)
    (other : ∀ go, p ≠ .allReached go) : Completed (w.step (g.act overwrite) (.task i)) := by
  have line : p.op (spawnArgs N i) ≠ .dprint .reachedByAll := by
    cases p with
    | allReached go => exact absurd rfl (other go)
    | _ => simp [TaskPoint.op]
  rw [MangoModel.step_task here]
  apply completed.step_other rfl line
  intro j inside
  by_cases same : j = i
  · subst same
    rw [here] at inside
    by_cases flips : ∃ go, p = .writeFlip go
    · obtain ⟨go, rfl⟩ := flips
      exact .inr (m.releases_flip here)
    · apply Or.inl
      rw [Function.update_self]
      exact TaskPoint.next_inBranch inside fun go same => flips ⟨go, same⟩
  · apply Or.inl
    rw [update_task, if_neg same]
    exact inside

theorem Completed.step (completed : Completed w) (m : Meeting g.rounds r leader w)
    (reported : Reported g w) (j : Party N) : Completed (w.step (g.act overwrite) j) := by
  rcases here : w.proc j with ⟨_ | p, calls⟩
  · cases calls with
    | nil =>
      rw [Places.step_finished here]
      exact completed
    | cons call calls =>
      rw [Places.step_enter here]
      refine ⟨fun i k found => (completed.current i k found).imp id fun ⟨now, inside⟩ => ⟨now, ?_⟩,
        completed.once⟩
      have other : Party.task i ≠ j := by
        rintro rfl
        rw [here] at inside
        cases inside
      dsimp only
      rw [Function.update_of_ne other]
      exact inside
  · by_cases mine : ∃ i, j = .task i
    · obtain ⟨i, rfl⟩ := mine
      by_cases last : ∃ go, p = .allReached go
      · obtain ⟨go, rfl⟩ := last
        exact completed.step_last m reported here
      · exact completed.step_task m here fun go same => last ⟨go, same⟩
    · have apart : ∀ i, Party.task i ≠ j := fun i same => mine ⟨i, same.symm⟩
      have line : (g.charts j).op p ≠ .dprint .reachedByAll := by
        cases j with
        | task i => exact absurd rfl (apart i)
        | spawner => cases p <;> simp [Group.charts, joinChart, JoinPoint.op]
        | host => cases p <;> simp [Group.charts, Host.synchChart, Host.SynchPoint.op, Host.writeTransfer]
        | waiter => cases p <;> simp [Group.charts, Host.waitChart, Host.WaitPoint.op]
      rw [Places.step_op here]
      refine completed.step_other rfl line fun i inside => .inl ?_
      rw [Function.update_of_ne (apart i)]
      exact inside

theorem completed_reachable (fits : N + 1 < 2^32)
    (reach : World.Reachable (g.act overwrite) g.places w) : Completed w := by
  have start : Completed g.places := ⟨fun _ _ found => absurd found List.not_mem_nil, List.nodup_nil⟩
  refine reach.invariant (fun w j reach completed => ?_) start
  obtain ⟨r, leader, m⟩ := meeting_reachable fits reach
  exact completed.step m (reported_reachable reach) j

end LastArrivals

/-- No task returns from a barrier that some task has not entered, and no barrier is completed
    twice. -/
theorem barrier_safe {N : Nat} (fits : N < 2^31) (rounds : Fin N → Nat) (c : GroupThreads N)
    (reach : (deviceGroup rounds).Reachable overwrite c) :
    (∀ i j k, k ≤ rounds i → k ≤ (c.proc (.task i)).returned (rounds i + 1) →
      k ≤ rounds j ∧ k ≤ (c.proc (.task j)).entered (rounds j + 1)) ∧
      ((lastArrivals c.shared.trace).map Prod.snd).Nodup := by
  obtain ⟨w, run, rfl⟩ := (deviceGroup rounds).reachable_places reach
  have range : N + 1 < 2^32 := by omega
  obtain ⟨r, leader, m⟩ := meeting_reachable range run
  refine ⟨fun i j k within returned => ?_, (completed_reachable range run).once⟩
  have released := (m.member i).returned_le (r.arrived_le i) _ _ within returned
  have arrived := Nat.le_trans released (r.released_le j)
  have entered := (m.member j).le_entered (spawnArgs N j) (deviceGroup rounds).fifo
  exact ⟨Nat.le_trans arrived entered.1, Nat.le_trans arrived entered.2⟩

theorem barrier_safe_two_tasks : ∃ c, (deviceGroup fun _ : Fin 2 => 3).Reachable overwrite c ∧
    (∀ i, (c.proc (.task i)).returned 4 = 1) ∧ lastArrivals c.shared.trace = [(1, 1)] ∧
    (∀ j, 1 ≤ (c.proc (.task j)).entered 4) ∧ ((lastArrivals c.shared.trace).map Prod.snd).Nodup := by
  let schedule : List (Party 2) :=
    List.replicate 9 (.task 0) ++ List.replicate 20 (.task 1) ++ List.replicate 1 (.task 0)
  let c := (deviceGroup fun _ : Fin 2 => 3).start.run (threadAct (exec overwrite)) schedule
  have returned : ∀ i, (c.proc (.task i)).returned 4 = 1 := by decide +kernel
  have arrivals : lastArrivals c.shared.trace = [(1, 1)] := by decide +kernel
  have reach : (deviceGroup fun _ : Fin 2 => 3).Reachable overwrite c := ⟨schedule, rfl⟩
  obtain ⟨entered, once⟩ := barrier_safe (by decide) (fun _ => 3) c reach
  exact ⟨c, reach, returned, arrivals,
    fun j => (entered 0 j 1 (by decide) (returned 0).ge).2, once⟩

end MangoModel
