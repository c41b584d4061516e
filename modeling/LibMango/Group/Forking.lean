import LibMango.Group.Returning
import Mathlib.Algebra.Order.BigOperators.Group.Finset

namespace MangoModel

open Interleave Device

section Rank

variable {N : Nat}

/-- How many steps a task still has to take, when so many are left of its work. -/
def taskSteps (work : Nat) : KernelPlace → Nat
  | ⟨some (.inl .lockExit), _⟩ => 2
  | ⟨some (.inl _), _⟩ => 1
  | ⟨some (.inr _), _⟩ => work + 3
  | ⟨none, []⟩ => 0
  | ⟨none, [_]⟩ => 3
  | ⟨none, _⟩ => work + 4

def mainSteps : Place (JoinPoint ⊕ Unit) (Unit ⊕ Unit) → Nat
  | ⟨some (.inl (.back _)), _⟩ => 5
  | ⟨some (.inl .await), _⟩ => 4
  | ⟨some (.inl .joined), _⟩ => 3
  | ⟨some (.inr ()), _⟩ => 1
  | ⟨none, []⟩ => 0
  | ⟨none, [_]⟩ => 2
  | ⟨none, _⟩ => 6

def waiterSteps : Place (Host.WaitPoint ⊕ Host.WaitPoint) (Unit ⊕ Unit) → Nat
  | ⟨some _, _⟩ => 1
  | ⟨none, []⟩ => 0
  | ⟨none, _⟩ => 2

/-- The steps that are left for a kernel whose tasks need so many for their work. -/
def kernelSteps (total steps : Fin N → Nat) (w : KernelPlaces N) : Nat :=
  ∑ i, taskSteps (total i - steps i) (w.proc (.task i)) + mainSteps (w.proc .spawner) +
    waiterSteps (w.proc .waiter)

variable {total steps steps' : Fin N → Nat} {w v : KernelPlaces N}

theorem kernelSteps_task {i : Fin N} (main : v.proc .spawner = w.proc .spawner)
    (waiter : v.proc .waiter = w.proc .waiter)
    (others : ∀ j, j ≠ i → v.proc (.task j) = w.proc (.task j) ∧ steps' j = steps j)
    (less : taskSteps (total i - steps' i) (v.proc (.task i)) < taskSteps (total i - steps i) (w.proc (.task i))) :
    kernelSteps total steps' v < kernelSteps total steps w := by
  unfold kernelSteps
  rw [main, waiter]
  refine Nat.add_lt_add_right (Nat.add_lt_add_right
    (Finset.sum_lt_sum (fun j _ => ?_) ⟨i, Finset.mem_univ i, less⟩) _) _
  by_cases mine : j = i
  · subst mine
    exact less.le
  · rw [(others j mine).1, (others j mine).2]

theorem kernelSteps_main (task : ∀ i, v.proc (.task i) = w.proc (.task i))
    (waiter : v.proc .waiter = w.proc .waiter) (less : mainSteps (v.proc .spawner) < mainSteps (w.proc .spawner)) :
    kernelSteps total steps v < kernelSteps total steps w := by
  unfold kernelSteps
  simp only [task, waiter]
  omega

theorem kernelSteps_waiter (task : ∀ i, v.proc (.task i) = w.proc (.task i))
    (main : v.proc .spawner = w.proc .spawner)
    (less : waiterSteps (v.proc .waiter) < waiterSteps (w.proc .waiter)) :
    kernelSteps total steps v < kernelSteps total steps w := by
  unfold kernelSteps
  simp only [task, main]
  omega

end Rank

section Nearer

variable {N : Nat} {kernel : GroupKernel N} {w : KernelPlaces N} {k : Nat} {m : Nat → Nat}
  {steps total : Fin N → Nat}
  {r r' : Rounds (Fin N)} {leader leader' : Option (Fin N)} {i : Fin N}

/-- Some party's step brings the kernel nearer to its end. -/
def Nearer (kernel : GroupKernel N) (total steps : Fin N → Nat) (w : KernelPlaces N) : Prop :=
  ∃ j k m steps', Lockstep kernel k m steps' (w.step kernel.act j) ∧
    kernelSteps total steps' (w.step kernel.act j) < kernelSteps total steps w

/-- The work of a task ends when it runs alone. -/
def WorkEnds (kernel : GroupKernel N) (total : Fin N → Nat) : Prop :=
  ∀ i, ∃ v, ((kernel.work i 0).text.solo memoryExec kernel.memory (total i)).1 = .ret v

theorem nearer_task {k' : Nat} {m' : Nat → Nat} {steps' : Fin N → Nat}
    (lockstep : Lockstep kernel k' m' steps' (w.step kernel.act (.task i)))
    (others : ∀ j, j ≠ i → steps' j = steps j)
    (less : taskSteps (total i - steps' i) ((w.step kernel.act (.task i)).proc (.task i)) <
      taskSteps (total i - steps i) (w.proc (.task i))) : Nearer kernel total steps w :=
  ⟨.task i, k', m', steps', lockstep, kernelSteps_task (World.step_proc_other (by simp) w)
    (World.step_proc_other (by simp) w)
    (fun j other => ⟨World.step_proc_other (by simpa using other) w, others j other⟩) less⟩

theorem nearer_main (lockstep : Lockstep kernel k m steps w)
    (meeting : Meeting kernel.group.rounds r leader (BesidePlaces.first w))
    (less : mainSteps ((w.step kernel.act .spawner).proc .spawner) < mainSteps (w.proc .spawner)) :
    Nearer kernel total steps w :=
  ⟨.spawner, k, m, steps, lockstep.step_other meeting (by simp), kernelSteps_main
    (fun i => World.step_proc_other (by simp) w) (World.step_proc_other (by simp) w) less⟩

theorem nearer_waiter (lockstep : Lockstep kernel k m steps w)
    (meeting : Meeting kernel.group.rounds r leader (BesidePlaces.first w))
    (less : waiterSteps ((w.step kernel.act .waiter).proc .waiter) < waiterSteps (w.proc .waiter)) :
    Nearer kernel total steps w :=
  ⟨.waiter, k, m, steps, lockstep.step_other meeting (by simp), kernelSteps_waiter
    (fun i => World.step_proc_other (by simp) w) (World.step_proc_other (by simp) w) less⟩

/-- Nobody is at a barrier of a kernel that has none. -/
theorem Lockstep.flat (lockstep : Lockstep kernel k m steps w) (flat : kernel.barriers = 0) (i : Fin N) :
    k = 0 ∧ m = kernel.memory := by
  have zero : k = 0 := by
    have early := (lockstep.course i).le
    omega
  obtain ⟨fuel, ran⟩ := lockstep.serial
  rw [zero] at ran
  exact ⟨zero, (Option.some.inj ran).symm⟩

theorem taskSteps_resume (work : Nat) (q : Work MemoryOp Nat) (c : TaskCall ⊕ Work MemoryOp Nat) :
    taskSteps work ⟨q.running.map .inr, [c]⟩ ≤ work + 3 := by
  cases q.running with
  | none => exact Nat.le_add_left 3 work
  | some q => exact Nat.le_refl (work + 3)

theorem WorkEnds.busy (ends : WorkEnds kernel total) {n : Nat}
    (busy : ((kernel.work i 0).text.solo memoryExec kernel.memory n).1.nextOp.isSome = true) : n < total i := by
  by_contra late
  obtain ⟨v, ended⟩ := ends i
  obtain ⟨more, rfl⟩ := Nat.exists_eq_add_of_le (Nat.le_of_not_lt late)
  rw [Prog.solo_ended ended, ended] at busy
  cases busy

/-- A task that has work to do, or has done it, can go on. -/
theorem Lockstep.nearer_work (lockstep : Lockstep kernel k m steps w) (flat : kernel.barriers = 0)
    (ends : WorkEnds kernel total) (free : kernel.RaceFree)
    (outside : ∀ p, (w.proc (.task i)).point ≠ some (.inl p))
    (inside : w.proc (.task i) ≠ ⟨none, []⟩) : Nearer kernel total steps w := by
  obtain ⟨rfl, rfl⟩ := lockstep.flat flat i
  have course := lockstep.course i
  generalize now : ((kernel.work i 0).text.solo memoryExec kernel.memory (steps i)).1 = q at course
  generalize here : w.proc (.task i) = l at course outside inside
  cases course with
  | @fresh left sum =>
    obtain rfl : left = 0 := by omega
    refine nearer_task (lockstep.enters here) (fun _ _ => rfl) ?_
    rw [Places.step_enter here, here]
    simp only [Function.update_self]
    exact Nat.lt_succ_of_le (taskSteps_resume _ (kernel.work i 0) (.inl .exit))
  | @working left sum q =>
    obtain rfl : left = 0 := by omega
    have more : steps i < total i := ends.busy (by rw [now]; exact q.busy)
    refine nearer_task (lockstep.works free here) (fun j other => Function.update_of_ne other _ _) ?_
    rw [Places.step_op here, here]
    simp only [Function.update_self]
    refine Nat.lt_of_le_of_lt (taskSteps_resume _ (q.toWork.resumed _) (.inl .exit)) ?_
    change total i - (steps i + 1) + 3 < total i - steps i + 3
    omega
  | @done left sum =>
    obtain rfl : left = 0 := by omega
    refine nearer_task (lockstep.enters here) (fun _ _ => rfl) ?_
    rw [Places.step_enter here, here]
    simp only [Function.update_self]
    exact Nat.lt_succ_self 2
  | arriving sum p => exact absurd rfl (outside p)
  | waking later sum p => exact absurd rfl (outside p)
  | exiting sum p => exact absurd rfl (outside p)
  | ended sum => exact absurd rfl inside

/-- Nor is a task that has done its work anywhere but on its way out. -/
theorem Lockstep.leaves (lockstep : Lockstep kernel k m steps w) (flat : kernel.barriers = 0)
    (meeting : Meeting kernel.group.rounds r leader (BesidePlaces.first w)) {p : TaskPoint GroupReg}
    {calls : List (TaskCall ⊕ Work MemoryOp Nat)} (here : w.proc (.task i) = ⟨some (.inl p), calls⟩) :
    calls = [] ∧ p.Exits := by
  obtain ⟨rfl, rfl⟩ := lockstep.flat flat i
  have course := lockstep.course i
  have member := meeting.member i
  rw [here] at course
  rw [first_here here] at member
  generalize ((kernel.work i 0).text.solo memoryExec kernel.memory (steps i)).1 = q at course
  cases course with
  | arriving sum p => omega
  | waking later sum p => omega
  | exiting sum p =>
    refine ⟨rfl, ?_⟩
    by_contra inside
    exact member.calls_ne_nil inside rfl

theorem Lockstep.nearer_exit (lockstep : Lockstep kernel k m steps w)
    (meeting : Meeting kernel.group.rounds r leader (BesidePlaces.first w))
    (meeting' : Meeting kernel.group.rounds r' leader' (BesidePlaces.first (w.step kernel.act (.task i))))
    {p : TaskPoint GroupReg} (here : w.proc (.task i) = ⟨some (.inl p), []⟩)
    (goes : p = .lockExit ∧ w.shared.1.regs.value .eventA ≠ 0 ∨ ∃ v, p = .writeExit v) :
    Nearer kernel total steps w := by
  have stays : ∀ go, p ≠ .writeFlip go := by
    rintro go rfl
    rcases goes with ⟨same, _⟩ | ⟨v, same⟩ <;> cases same
  refine nearer_task (lockstep.protocol meeting meeting' here stays) (fun _ _ => rfl) ?_
  rw [step_protocol here, here]
  simp only [Function.update_self]
  rcases goes with ⟨rfl, filled⟩ | ⟨v, rfl⟩
  · have next : (TaskPoint.lockExit : TaskPoint GroupReg).next none
        ((TaskPoint.lockExit.op (spawnArgs N i)).answer w.shared.1) =
          some (.writeExit (w.shared.1.regs.value GroupReg.eventA)) := if_neg filled
    rw [next]
    exact Nat.lt_succ_self 1
  · exact Nat.lt_succ_self 0

theorem main_step {p : JoinPoint} {calls : List (Unit ⊕ Unit)} (here : w.proc .spawner = ⟨some (.inl p), calls⟩) :
    (w.step kernel.act .spawner).proc .spawner =
      ⟨(p.next ((p.op GroupReg.eventA).answer w.shared.1)).map .inl, calls⟩ := by
  rw [Places.step_op here]
  simp only [Function.update_self]
  rfl

theorem back_less (v answer : Nat) (calls : List (Unit ⊕ Unit)) :
    mainSteps ⟨((JoinPoint.back v).next answer).map .inl, calls⟩ < mainSteps ⟨some (.inl (.back v)), calls⟩ := by
  by_cases last : v = MangoEventStatus.READ.value
  · have next : (JoinPoint.back v).next answer = some .joined := if_pos last
    rw [next]
    change 3 < 5
    omega
  · have next : (JoinPoint.back v).next answer = some .await := if_neg last
    rw [next]
    change 4 < 5
    omega

/-- Once everybody has left, the kernel's own thread and then the host can end. -/
theorem Lockstep.nearer_close (lockstep : Lockstep kernel k m steps w)
    (meeting : Meeting kernel.group.rounds r leader (BesidePlaces.first w)) {left : Rounds (Fin N)}
    (leaving : Leaving left (BesidePlaces.first w)) (closing : Closing w)
    (ended : ∀ i, w.proc (.task i) = ⟨none, []⟩) (waiting : w.proc .waiter ≠ ⟨none, []⟩) :
    Nearer kernel total steps w := by
  have none_left : left.missing = 0 := Rounds.missing_eq_zero.mpr fun i absent =>
    (leaving.absent i).mp absent (by simp [BesidePlaces.first, ended])
  have main := closing.main
  generalize here : w.proc .spawner = l at main
  cases main with
  | before =>
    refine nearer_main lockstep meeting ?_
    rw [Places.step_enter here, here]
    simp only [Function.update_self]
    change 4 < 6
    omega
  | joining p =>
    refine nearer_main lockstep meeting ?_
    rw [main_step here, here]
    cases p with
    | await =>
      have one : w.shared.1.regs.value .eventA = MangoEventStatus.READ.value := by
        rcases leaving.value with empty | counted
        · rcases leaving.taken empty with ⟨i, n, there⟩ | ⟨n, holds⟩ | past
          · simp [BesidePlaces.first, ended] at there
          · simp [BesidePlaces.first, here] at holds
          · simp [BesidePlaces.first, here, JoinPast] at past
        · rw [none_left] at counted
          exact counted
      have next : JoinPoint.await.next ((JoinPoint.await.op GroupReg.eventA).answer w.shared.1) =
          some .joined := by
        change await _ (w.shared.1.regs.value .eventA) _ _ _ = _
        rw [one]
        rfl
      rw [next]
      change 3 < 4
      omega
    | back v => exact back_less v _ _
    | joined =>
      change 2 < 3
      omega
  | joined =>
    refine nearer_main lockstep meeting ?_
    rw [Places.step_enter here, here]
    simp only [Function.update_self]
    change 1 < 2
    omega
  | closing =>
    refine nearer_main lockstep meeting ?_
    rw [Places.step_op here, here]
    simp only [Function.update_self]
    change 0 < 1
    omega
  | closed =>
    refine nearer_waiter lockstep meeting ?_
    have set := (closing.closed.mp here).resolve_right waiting
    have waiter := closing.waiter
    generalize there : w.proc .waiter = l at waiter waiting
    cases waiter with
    | before =>
      rw [Places.step_enter there]
      simp only [Function.update_self]
      change 1 < 2
      omega
    | polling =>
      rw [Places.step_op there]
      simp only [Function.update_self]
      change waiterSteps ⟨(Host.WaitPoint.poll.next 1 (exitValue w)).map .inr, []⟩ < _
      rw [set]
      change 0 < 1
      omega
    | returned => exact absurd rfl waiting

theorem first_point {j : Party N} {p : PartyPoint j} (at_ : ((BesidePlaces.first w).proc j).point = some p) :
    ∃ calls, w.proc j = ⟨some (.inl p), calls⟩ := by
  rcases here : w.proc j with ⟨_ | q | q, calls⟩
  · simp [BesidePlaces.first, here] at at_
  · simp only [BesidePlaces.first, here, Place.first_mk, Option.bind_some, Sum.getLeft?_inl,
      Option.some.injEq] at at_
    exact ⟨calls, by rw [at_]⟩
  · simp [BesidePlaces.first, here] at at_

/-- As long as the host waits somebody can bring the kernel nearer to its end. -/
theorem Lockstep.nearer (lockstep : Lockstep kernel k m steps w) (fits : N + 1 < 2^32)
    (flat : kernel.barriers = 0) (ends : WorkEnds kernel total) (free : kernel.RaceFree)
    (reach : World.Reachable kernel.act kernel.places w) (waiting : w.proc .waiter ≠ ⟨none, []⟩) :
    Nearer kernel total steps w := by
  obtain ⟨_, _, meeting⟩ := meeting_reachable fits (kernel.reachable_first reach)
  obtain ⟨left, leaving⟩ := leaving_reachable (g := kernel.group) rfl fits (kernel.reachable_first reach)
  by_cases ended : ∀ i, w.proc (.task i) = ⟨none, []⟩
  · exact lockstep.nearer_close meeting leaving (closing_reachable reach) ended waiting
  obtain ⟨i, inside⟩ := not_forall.mp ended
  by_cases outside : ∀ p, (w.proc (.task i)).point ≠ some (.inl p)
  · exact lockstep.nearer_work flat ends free outside inside
  obtain ⟨p, at_⟩ := not_forall.mp outside
  have here : w.proc (.task i) = ⟨some (.inl p), (w.proc (.task i)).calls⟩ := by
    rw [← not_not.mp at_]
  obtain ⟨none, exits⟩ := lockstep.leaves flat meeting here
  rw [none] at here
  have exit : ∀ {j p}, w.proc (.task j) = ⟨some (.inl p), []⟩ →
      (p = .lockExit ∧ w.shared.1.regs.value .eventA ≠ 0 ∨ ∃ v, p = .writeExit v) →
        Nearer kernel total steps w := by
    intro j p here goes
    obtain ⟨_, _, meeting'⟩ := meeting_reachable fits (kernel.reachable_first (reach.step (.task j)))
    exact lockstep.nearer_exit meeting meeting' here goes
  rcases exits_iff.mp exits with rfl | writes
  · by_cases empty : w.shared.1.regs.value .eventA = 0
    · rcases leaving.taken empty with ⟨j, v, there⟩ | ⟨v, holds⟩ | past
      · obtain ⟨calls, there⟩ := first_point there
        obtain ⟨rfl, _⟩ := lockstep.leaves flat meeting there
        exact exit there (.inr ⟨v, rfl⟩)
      · obtain ⟨calls, there⟩ := first_point holds
        refine nearer_main lockstep meeting ?_
        rw [main_step there, there]
        exact back_less v _ calls
      · have present := Rounds.missing_eq_zero.mp (leaving.past past) i
        exact absurd ((leaving.absent i).mpr (by simp [BesidePlaces.first, here])) present
    · exact exit here (.inl ⟨rfl, empty⟩)
  · exact exit here (.inr writes)

end Nearer

theorem GroupKernel.run_threads {N : Nat} (kernel : GroupKernel N) (w : KernelPlaces N)
    (schedule : List (Party N)) :
    World.run (threadAct partyExec) (w.threads kernel.charts) schedule =
      Places.threads kernel.charts (w.run kernel.act schedule) :=
  World.map_run (fun i l s => (kernel.charts i).thread_step (partyExec i) l s) w schedule

/-- A kernel that spawns tasks, joins them and closes can do so from whatever state it is in, if the work of
    each task ends when nobody else is at work. -/
theorem fork_join_returns {N : Nat} (fits : N < 2^31) (kernel : GroupKernel N) (flat : kernel.barriers = 0)
    (free : kernel.RaceFree)
    (ends : ∀ i, ∃ fuel after, (kernel.work i 0).text.alone memoryExec fuel kernel.memory = some after)
    (c : KernelThreads N) (reach : kernel.Reachable c) :
    ∃ schedule, ((c.run (threadAct partyExec) schedule).proc .waiter).finished = true := by
  obtain ⟨w, run, rfl⟩ := kernel.reachable_places reach
  have stops : ∀ i, ∃ n v, ((kernel.work i 0).text.solo memoryExec kernel.memory n).1 = .ret v := fun i => by
    obtain ⟨fuel, after, ended⟩ := ends i
    obtain ⟨v, last⟩ := Prog.solo_alone ended
    exact ⟨fuel, v, congrArg Prod.fst last⟩
  choose total ended using stops
  obtain ⟨k, m, steps, lockstep⟩ := lockstep_reachable (by omega) free run
  obtain ⟨schedule, returned⟩ := World.reaches_of_rank
    (fun n w => World.Reachable kernel.act kernel.places w ∧
      ∃ k m steps, Lockstep kernel k m steps w ∧ kernelSteps total steps w = n)
    (fun w => w.proc .waiter = ⟨none, []⟩) (fun n w rank waiting => by
      obtain ⟨run, k, m, steps, lockstep, rfl⟩ := rank
      obtain ⟨j, k', m', steps', lockstep', less⟩ := lockstep.nearer (by omega) flat ended free run waiting
      exact ⟨[j], _, less, run.step j, k', m', steps', lockstep', rfl⟩) ⟨run, k, m, steps, lockstep, rfl⟩
  refine ⟨schedule, ?_⟩
  rw [kernel.run_threads, World.map_proc, Chart.thread_finished]
  exact returned

/-- Three tasks, each with a cell of its own. -/
theorem storeByte_formed (addr byte : Nat) :
    (Prog.op (MemoryOp.storeByte addr byte) fun _ => .ret 0).Formed (· = (default : Nat)) := fun _ => rfl

def threeTasks : GroupKernel 3 where
  barriers := 0
  work i _ := ⟨.op (.storeByte i.val (7 * i.val)) fun _ => .ret 0, storeByte_formed i.val (7 * i.val)⟩
  memory := fun _ => 0

theorem threeTasks_raceFree : threeTasks.RaceFree := by
  intro k _ m _
  refine Footprint.RaceFree.of_owned (fun _ => ∅) (fun i => {i.val}) (fun i => ?_)
    (fun i j other x mine => ⟨?_, id⟩) m
  · simp [threeTasks, Prog.Only, memoryFootprint]
  · rw [Set.mem_singleton_iff] at mine ⊢
    rintro rfl
    exact other (Fin.ext mine.symm)

/-- From where one task holds the group's event and the others have not begun. -/
theorem fork_join_returns_three_tasks : ∃ schedule,
    (((threeTasks.start.run (threadAct partyExec) (List.replicate 4 (.task 1))).run (threadAct partyExec)
      schedule).proc .waiter).finished = true :=
  fork_join_returns (by decide) threeTasks rfl threeTasks_raceFree
    (fun _ => ⟨1, _, rfl⟩) _ ⟨List.replicate 4 (.task 1), rfl⟩

end MangoModel
