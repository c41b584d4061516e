import LibMango.Group.MeetingStep

namespace MangoModel

open Interleave Device

variable {N : Nat}

def JoinPast (l : Place JoinPoint Unit) : Prop := l.point = some .joined ∨ l = ⟨none, []⟩

/-- The task event counts the tasks that have not left; who leaves arrives at `r`. -/
structure Leaving (r : Rounds (Fin N)) (w : GroupPlaces N) : Prop where
  only : r.released = 0
  absent : ∀ i, r.Absent i ↔ w.proc (.task i) ≠ ⟨none, []⟩
  exiting : ∀ i v, (w.proc (.task i)).point = some (.writeExit v) → v = r.missing + 1
  holding : ∀ v, (w.proc .spawner).point = some (.back v) → v = r.missing + 1 ∧ v ≠ MangoEventStatus.READ.value
  value : w.shared.regs.value .eventA = 0 ∨ w.shared.regs.value .eventA = r.missing + 1
  taken : w.shared.regs.value .eventA = 0 → (∃ i v, (w.proc (.task i)).point = some (.writeExit v)) ∨
    (∃ v, (w.proc .spawner).point = some (.back v)) ∨ JoinPast (w.proc .spawner)
  past : JoinPast (w.proc .spawner) → r.missing = 0
  once : w.proc .spawner = ⟨none, [()]⟩ ∨ (w.proc .spawner).calls = []

variable {r : Rounds (Fin N)} {w v : GroupPlaces N} {rounds : Fin N → Nat}

theorem Leaving.congr (leaving : Leaving r w)
    (same : v.shared.regs.value .eventA = w.shared.regs.value .eventA)
    (ended : ∀ i, v.proc (.task i) = ⟨none, []⟩ ↔ w.proc (.task i) = ⟨none, []⟩)
    (exits : ∀ i n, (v.proc (.task i)).point = some (.writeExit n) ↔
      (w.proc (.task i)).point = some (.writeExit n))
    (back : ∀ n, (v.proc .spawner).point = some (.back n) ↔ (w.proc .spawner).point = some (.back n))
    (past : JoinPast (v.proc .spawner) ↔ JoinPast (w.proc .spawner))
    (once : v.proc .spawner = ⟨none, [()]⟩ ∨ (v.proc .spawner).calls = []) : Leaving r v where
  only := leaving.only
  absent i := by rw [Ne, ended]; exact leaving.absent i
  exiting i n := by rw [exits]; exact leaving.exiting i n
  holding n := by rw [back]; exact leaving.holding n
  value := by rw [same]; exact leaving.value
  taken := by simp only [same, exits, back, past]; exact leaving.taken
  past := by rw [past]; exact leaving.past
  once := once

section Task

variable {g : Group N} {i : Fin N} {p : TaskPoint GroupReg} {calls : List TaskCall}

theorem update_task_spawner (w : GroupPlaces N) (i : Fin N) (l : Place (TaskPoint GroupReg) TaskCall) :
    Function.update w.proc (.task i) l .spawner = w.proc .spawner := by
  simp

theorem update_spawner_task (w : GroupPlaces N) (l : Place JoinPoint Unit) (i : Fin N) :
    Function.update w.proc .spawner l (.task i) = w.proc (.task i) := by
  simp

theorem Leaving.move_task (leaving : Leaving r w) {l : Place (TaskPoint GroupReg) TaskCall}
    {s : Shared (Party N) GroupReg} (same : s.regs.value .eventA = w.shared.regs.value .eventA)
    (ended : l = ⟨none, []⟩ ↔ w.proc (.task i) = ⟨none, []⟩)
    (exits : ∀ n, l.point = some (.writeExit n) ↔ (w.proc (.task i)).point = some (.writeExit n)) :
    Leaving r ⟨Function.update w.proc (.task i) l, s⟩ := by
  refine leaving.congr same (fun j => ?_) (fun j n => ?_) (fun n => ?_) ?_ ?_
  · simp only [update_task]
    split
    · next mine => rw [mine]; exact ended
    · rfl
  · simp only [update_task]
    split
    · next mine => rw [mine]; exact exits n
    · rfl
  · simp only [update_task_spawner]
  · simp only [update_task_spawner]
  · simp only [update_task_spawner]
    exact leaving.once

namespace Device.TaskPoint

theorem next_exits {p : TaskPoint GroupReg} (other : p ≠ .lockExit) (fifo : Option GroupReg)
    (value n : Nat) : p.next fifo value ≠ some (.writeExit n) := by
  cases p with
  | lockExit => exact absurd rfl other
  | lockRelease | lockBarrier | fifoLock | fifoRelock | lockReset | lockFlip =>
    simp only [next, retry]
    split <;> simp
  | awaitRelease | fifoAwait =>
    simp only [next, await]
    split
    · simp
    · split <;> simp
  | writeBarrier | backAwait | fifoLocked | fifoBack =>
    simp only [next]
    split <;> simp
  | allReached => cases fifo <;> simp [next]
  | _ => simp [next]

end Device.TaskPoint

theorem Member.calls_ne_nil {rounds released arrived : Nat}
    (member : Member rounds released arrived ⟨some p, calls⟩) (inside : ¬ p.Exits) : calls ≠ [] := by
  cases member with
  | approaching total same shape => simp
  | signalled total shape => simp
  | exiting total same shape => exact absurd shape inside

theorem exits_iff : p.Exits ↔ p = .lockExit ∨ ∃ n, p = .writeExit n := by
  cases p <;> simp [TaskPoint.Exits]

theorem barrier_keeps_event {combine : Nat → Nat → Nat} {j : Party N} (inside : ¬ p.Exits)
    (own : p.fifoOf = none ∨ p.fifoOf = some .fifo) (s : Shared (Party N) GroupReg) :
    (exec combine j (p.op (spawnArgs N i)) s).2.regs.value .eventA = s.regs.value .eventA := by
  have apart : p.op (spawnArgs N i) ≠ .readSynchronization .eventA ∧
      (p.op (spawnArgs N i)).written ≠ some .eventA := by
    cases p with
    | fifoLock | fifoAwait | fifoRelock | fifoRequest | fifoBack | fifoEnd =>
      rcases own with none | fifo
      · cases none
      · cases fifo
        simp [TaskPoint.op, Op.written]
    | lockExit | writeExit => exact absurd trivial inside
    | _ => simp [TaskPoint.op, Op.written, spawnArgs]
  exact exec_value_other _ _ _ _ apart.1 apart.2

theorem Leaving.lock_exit (leaving : Leaving r w) (here : w.proc (.task i) = ⟨some .lockExit, []⟩) :
    Leaving r (w.step (g.act overwrite) (.task i)) := by
  rcases retry_cases TaskPoint.lockExit (.writeExit (w.shared.regs.value .eventA))
    (w.shared.regs.value .eventA) with ⟨empty, goes⟩ | ⟨filled, goes⟩
  · have stays : (TaskPoint.lockExit).next g.fifo
        (((TaskPoint.lockExit).op (spawnArgs N i)).answer w.shared) = some .lockExit := goes
    rw [step_task here, stays]
    refine leaving.move_task ?_ (by simp [here]) (by simp [here])
    simp [TaskPoint.op, spawnArgs, Op.access, Custody.apply, empty]
  · have takes : (TaskPoint.lockExit).next g.fifo
        (((TaskPoint.lockExit).op (spawnArgs N i)).answer w.shared) =
          some (.writeExit (w.shared.regs.value .eventA)) := goes
    have found := leaving.value.resolve_left filled
    rw [step_task here, takes]
    exact {
      only := leaving.only
      absent := fun j => by
        rw [leaving.absent j]
        simp only [update_task]
        split
        · next same => subst same; simp [here]
        · rfl
      exiting := fun j n at_ => by
        simp only [update_task] at at_
        split at at_
        · cases at_; exact found
        · exact leaving.exiting j n at_
      holding := fun n at_ => leaving.holding n (by simpa only [update_task_spawner] using at_)
      value := .inl (by simp [TaskPoint.op, spawnArgs, Op.access, Custody.apply])
      taken := fun _ => .inl ⟨i, w.shared.regs.value .eventA, by simp only [update_task, ↓reduceIte]⟩
      past := fun at_ => leaving.past (by simpa only [update_task_spawner] using at_)
      once := by simpa only [update_task_spawner] using leaving.once }

theorem Leaving.write_exit (leaving : Leaving r w) (fits : N + 1 < 2^32)
    (sound : Custody.Sound (Places.debt debts w) w.shared.regs) {n : Nat}
    (here : w.proc (.task i) = ⟨some (.writeExit n), []⟩) :
    Leaving (r.arrive i) (w.step (g.act overwrite) (.task i)) := by
  have absent : r.Absent i := (leaving.absent i).mpr (by simp [here])
  have mine : Places.debt debts w (.task i) = some .eventA := by
    rw [Places.debt, here]
    rfl
  have left := Rounds.missing_arrive absent
  have few := r.missing_le
  rw [Fintype.card_fin] at few
  obtain rfl : n = r.missing + 1 := leaving.exiting i n (by rw [here])
  have counted : decrement (r.missing + 1) = r.missing := by
    unfold decrement uint32
    omega
  have written : (exec overwrite (Party.task i) ((TaskPoint.writeExit (r.missing + 1)).op (spawnArgs N i))
      w.shared).2.regs.value .eventA = (r.arrive i).missing + 1 := by
    simp only [TaskPoint.op, spawnArgs, exec_regs, Op.access, Custody.apply, Custody.put_value_self,
      overwrite, counted, left]
    exact uint32_of_lt (by omega)
  rw [step_task here]
  exact {
    only := leaving.only
    absent := fun j => by
      simp only [update_task]
      split
      · next same => subst same; simp [Rounds.Absent, TaskPoint.next]
      · next other =>
        rw [← leaving.absent j]
        simp only [Rounds.Absent, Rounds.arrive_arrived_other r other, Rounds.arrive_released]
    exiting := fun j n at_ => by
      simp only [update_task] at at_
      split at at_
      · cases at_
      · next other =>
        exact absurd (same_task_of_owes sound here rfl at_ rfl) other
    holding := fun n at_ => by
      simp only [update_task_spawner] at at_
      have theirs : Places.debt debts w .spawner = some .eventA := by
        rw [Places.debt, at_]
        rfl
      exact absurd (sound.owner_unique mine theirs) (by simp)
    value := .inr written
    taken := fun empty => by
      rw [written] at empty
      omega
    past := fun at_ => by
      simp only [update_task_spawner] at at_
      have none := leaving.past at_
      omega
    once := by simpa only [update_task_spawner] using leaving.once }

theorem Leaving.step_task (leaving : Leaving r w) (fits : N + 1 < 2^32) {r' : Rounds (Fin N)}
    {leader : Option (Fin N)} (m : Meeting g.rounds r' leader w)
    (sound : Custody.Sound (Places.debt debts w) w.shared.regs) (i : Fin N) :
    ∃ r', Leaving r' (w.step (g.act overwrite) (.task i)) := by
  rcases here : w.proc (.task i) with ⟨_ | p, calls⟩
  · cases calls with
    | nil =>
      rw [Places.step_finished here]
      exact ⟨r, leaving⟩
    | cons call calls =>
      rw [Places.step_enter here]
      refine ⟨r, leaving.move_task rfl ?_ ?_⟩
      · cases call <;> simp [here, Group.charts, taskChart]
      · cases call <;> simp [here, Group.charts, taskChart]
  · have member := m.member i
    rw [here] at member
    by_cases exits : p.Exits
    · obtain rfl : calls = [] := by
        cases member with
        | approaching total same shape => cases p <;> first | exact absurd shape id | exact absurd exits id
        | signalled total shape =>
          cases p <;> first | exact absurd exits id | cases shape.1
        | exiting total same shape => rfl
      rcases exits_iff.mp exits with rfl | ⟨n, rfl⟩
      · exact ⟨r, leaving.lock_exit here⟩
      · exact ⟨_, leaving.write_exit fits sound here⟩
    · have some_calls := member.calls_ne_nil exits
      rw [MangoModel.step_task here]
      refine ⟨r, leaving.move_task (barrier_keeps_event exits member.fifo_own _) ?_ fun n => ?_⟩
      · simp [here, some_calls]
      · have other : p ≠ .lockExit := fun same => exits (by rw [same]; trivial)
        have outside : ∀ n, p ≠ .writeExit n := fun n same => exits (by rw [same]; trivial)
        simp [here, TaskPoint.next_exits other, outside]

end Task

section Join

variable {g : Group N}

theorem Leaving.move_spawner (leaving : Leaving r w) {l : Place JoinPoint Unit}
    {s : Shared (Party N) GroupReg}
    (value : s.regs.value .eventA = 0 ∨ s.regs.value .eventA = r.missing + 1)
    (holding : ∀ n, l.point = some (.back n) → n = r.missing + 1 ∧ n ≠ MangoEventStatus.READ.value)
    (taken : s.regs.value .eventA = 0 → (∃ i n, (w.proc (.task i)).point = some (.writeExit n)) ∨
      (∃ n, l.point = some (.back n)) ∨ JoinPast l)
    (past : JoinPast l → r.missing = 0) (once : l = ⟨none, [()]⟩ ∨ l.calls = []) :
    Leaving r ⟨Function.update w.proc .spawner l, s⟩ where
  only := leaving.only
  absent i := by simp only [update_spawner_task]; exact leaving.absent i
  exiting i n := by simp only [update_spawner_task]; exact leaving.exiting i n
  holding n := by simp only [Function.update_self]; exact holding n
  value := value
  taken := by simp only [update_spawner_task, Function.update_self]; exact taken
  past := by simp only [Function.update_self]; exact past
  once := by simp only [Function.update_self]; exact once

theorem step_join {p : JoinPoint} {calls : List Unit} {combine : Nat → Nat → Nat}
    (here : w.proc .spawner = ⟨some p, calls⟩) :
    w.step (g.act combine) .spawner =
      ⟨Function.update w.proc .spawner ⟨p.next ((p.op .eventA).answer w.shared), calls⟩,
        (exec combine .spawner (p.op .eventA) w.shared).2⟩ :=
  Places.step_op here

theorem Leaving.step_spawner (leaving : Leaving r w) (fits : N + 1 < 2^32) :
    Leaving r (w.step (g.act overwrite) .spawner) := by
  have few := r.missing_le
  rw [Fintype.card_fin] at few
  have once := leaving.once
  rcases here : w.proc .spawner with ⟨_ | p, calls⟩
  · cases calls with
    | nil =>
      rw [Places.step_finished here]
      exact leaving
    | cons call calls =>
      rw [here] at once
      obtain rfl : calls = [] := by simpa using once
      rw [Places.step_enter here]
      refine leaving.move_spawner leaving.value (by simp [Group.charts, joinChart]) (fun empty => ?_)
        (fun past => ?_) (.inr rfl)
      · refine (leaving.taken empty).imp id (Or.imp ?_ ?_)
        · simp [here]
        · simp [here, JoinPast]
      · simp [JoinPast, Group.charts, joinChart] at past
  · have alone : calls = [] := by
      rw [here] at once
      simpa using once
    subst alone
    cases p with
    | await =>
      rcases await_cases JoinPoint.await (w.shared.regs.value .eventA) MangoEventStatus.READ.value
        (.back (w.shared.regs.value .eventA)) (some .joined)
        with ⟨empty, goes⟩ | ⟨filled, last, goes⟩ | ⟨filled, other, goes⟩
      · have stays : JoinPoint.await.next ((JoinPoint.await.op GroupReg.eventA).answer w.shared) =
            some .await := goes
        rw [step_join here, stays]
        have taken := leaving.taken empty
        simp only [here, JoinPast] at taken
        refine leaving.move_spawner ?_ (by simp) (fun _ => taken) (by simp [JoinPast]) (.inr rfl)
        exact .inl (by simp [JoinPoint.op, Op.access, Custody.apply])
      · have takes : JoinPoint.await.next ((JoinPoint.await.op GroupReg.eventA).answer w.shared) =
            some .joined := goes
        have found := leaving.value.resolve_left filled
        rw [last] at found
        rw [step_join here, takes]
        refine leaving.move_spawner ?_ (by simp) (fun _ => .inr (.inr (.inl rfl))) (fun _ => ?_) (.inr rfl)
        · exact .inl (by simp [JoinPoint.op, Op.access, Custody.apply])
        · exact (Nat.succ.inj found).symm
      · have takes : JoinPoint.await.next ((JoinPoint.await.op GroupReg.eventA).answer w.shared) =
            some (.back (w.shared.regs.value .eventA)) := goes
        have found := leaving.value.resolve_left filled
        rw [step_join here, takes]
        refine leaving.move_spawner ?_ (fun n held => ?_) (fun _ => .inr (.inl ⟨_, rfl⟩))
          (by simp [JoinPast]) (.inr rfl)
        · exact .inl (by simp [JoinPoint.op, Op.access, Custody.apply])
        · cases held
          exact ⟨found, other⟩
    | back n =>
      obtain ⟨rfl, other⟩ := leaving.holding n (by rw [here])
      have goes : (JoinPoint.back (r.missing + 1)).next
          (((JoinPoint.back (r.missing + 1)).op GroupReg.eventA).answer w.shared) = some .await :=
        if_neg other
      have written : (exec overwrite (Party.spawner (N := N)) ((JoinPoint.back (r.missing + 1)).op .eventA)
          w.shared).2.regs.value .eventA = r.missing + 1 := by
        simp only [JoinPoint.op, exec_regs, Op.access, Custody.apply, Custody.put_value_self, overwrite]
        exact uint32_of_lt (by omega)
      rw [step_join here, goes]
      refine leaving.move_spawner (.inr written) (by simp) (fun empty => ?_) (by simp [JoinPast]) (.inr rfl)
      rw [written] at empty
      omega
    | joined =>
      have past := leaving.past (by rw [here]; exact .inl rfl)
      rw [step_join here]
      exact leaving.move_spawner leaving.value (by simp [JoinPoint.next])
        (fun _ => .inr (.inr (.inr rfl))) (fun _ => past) (.inr rfl)

theorem Leaving.step_host (leaving : Leaving r w) {j : Party N} (other : ∀ i, j ≠ .task i)
    (apart : j ≠ .spawner) : Leaving r (w.step (g.act overwrite) j) := by
  have tasks : ∀ i, (w.step (g.act overwrite) j).proc (.task i) = w.proc (.task i) := fun i =>
    World.step_proc_other (Ne.symm (other i)) w
  have spawner : (w.step (g.act overwrite) j).proc .spawner = w.proc .spawner :=
    World.step_proc_other (Ne.symm apart) w
  have value : (w.step (g.act overwrite) j).shared.regs.value .eventA = w.shared.regs.value .eventA := by
    apply step_keeps_value
    intro p
    cases j with
    | task i => exact absurd rfl (other i)
    | spawner => exact absurd rfl apart
    | host =>
      cases p <;> simp [Group.charts, Host.synchChart, Host.SynchPoint.op, Host.writeTransfer,
        Group.buffer, Op.written]
    | waiter => cases p <;> simp [Group.charts, Host.waitChart, Host.WaitPoint.op, Op.written]
  refine leaving.congr value (fun i => ?_) (fun i n => ?_) (fun n => ?_) ?_ ?_
  · rw [tasks]
  · rw [tasks]
  · rw [spawner]
  · rw [spawner]
  · rw [spawner]
    exact leaving.once

end Join

theorem leaving_start {g : Group N} (once : g.joins = 1) (fits : N + 1 < 2^32) :
    Leaving Rounds.start g.places where
  only := rfl
  absent i := by simp [Rounds.Absent, Rounds.start, Group.places]
  exiting i n found := by cases found
  holding n found := by cases found
  value := by
    apply Or.inr
    rw [Rounds.missing_start, Fintype.card_fin]
    exact uint32_of_lt fits
  taken empty := by
    have value : uint32 (N + 1) = 0 := empty
    rw [uint32_of_lt fits] at value
    omega
  past found := by
    have calls : g.places.proc .spawner = ⟨none, [()]⟩ := by simp [Group.places, once]
    rw [calls] at found
    rcases found with found | found <;> cases found
  once := by simp [Group.places, once]

theorem leaving_reachable {g : Group N} (once : g.joins = 1) (fits : N + 1 < 2^32)
    (reach : World.Reachable (g.act overwrite) g.places w) : ∃ r, Leaving r w := by
  refine reach.invariant (motive := fun w => ∃ r, Leaving r w) (fun w j reach kept => ?_)
    ⟨_, leaving_start once fits⟩
  · obtain ⟨r, leaving⟩ := kept
    obtain ⟨_, _, m⟩ := meeting_reachable fits reach
    cases j with
    | task i => exact leaving.step_task fits m (Group.sound _ reach) i
    | spawner => exact ⟨r, leaving.step_spawner fits⟩
    | host => exact ⟨r, leaving.step_host (by simp) (by simp)⟩
    | waiter => exact ⟨r, leaving.step_host (by simp) (by simp)⟩

end MangoModel
