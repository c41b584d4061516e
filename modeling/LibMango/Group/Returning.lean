import LibMango.Group.Lockstep

namespace MangoModel

open Interleave Device

variable {N : Nat} {kernel : GroupKernel N} {w : KernelPlaces N}

/-- Where the kernel's own thread may stand. -/
inductive MainAt : Place (JoinPoint ⊕ Unit) (Unit ⊕ Unit) → Prop
  | before : MainAt ⟨none, [.inl (), .inr ()]⟩
  | joining (p : JoinPoint) : MainAt ⟨some (.inl p), [.inr ()]⟩
  | joined : MainAt ⟨none, [.inr ()]⟩
  | closing : MainAt ⟨some (.inr ()), []⟩
  | closed : MainAt ⟨none, []⟩

/-- Where the host thread may stand that waits for the kernel. -/
inductive WaiterAt : Place (Host.WaitPoint ⊕ Host.WaitPoint) (Unit ⊕ Unit) → Prop
  | before : WaiterAt ⟨none, [.inr ()]⟩
  | polling : WaiterAt ⟨some (.inr .poll), []⟩
  | returned : WaiterAt ⟨none, []⟩

abbrev exitValue (w : KernelPlaces N) : Nat := w.shared.2.exit.regs.value ()

/-- The termination event is set or has been taken exactly when the kernel has closed. -/
structure Closing (w : KernelPlaces N) : Prop where
  main : MainAt (w.proc .spawner)
  waiter : WaiterAt (w.proc .waiter)
  value : exitValue w = 0 ∨ exitValue w = 1
  closed : w.proc .spawner = ⟨none, []⟩ ↔ exitValue w = 1 ∨ w.proc .waiter = ⟨none, []⟩

theorem closing_start (kernel : GroupKernel N) : Closing kernel.places where
  main := .before
  waiter := .before
  value := .inl rfl
  closed := by simp [GroupKernel.places, exitValue, GroupKernel.shared, Shared.start]

theorem Closing.congr (closing : Closing w) {v : KernelPlaces N} (main : v.proc .spawner = w.proc .spawner)
    (waiter : v.proc .waiter = w.proc .waiter) (value : exitValue v = exitValue w) : Closing v where
  main := main ▸ closing.main
  waiter := waiter ▸ closing.waiter
  value := value ▸ closing.value
  closed := by rw [main, waiter, value]; exact closing.closed

theorem exitValue_other {j : Party N} (main : j ≠ .spawner) (waiter : j ≠ .waiter) :
    exitValue (w.step kernel.act j) = exitValue w := by
  rcases here : w.proc j with ⟨_ | p | p, _ | ⟨call, calls⟩⟩
  · rw [Places.step_finished here]
  · rw [Places.step_enter here]
  all_goals rw [Places.step_op here]
  · rfl
  · rfl
  all_goals
    cases j with
    | task i => rfl
    | host => cases p
    | spawner => exact absurd rfl main
    | waiter => exact absurd rfl waiter

theorem Closing.move_main (closing : Closing w) {l : Place (JoinPoint ⊕ Unit) (Unit ⊕ Unit)}
    {s : Shared (Party N) GroupReg} (before : w.proc .spawner ≠ ⟨none, []⟩) (place : MainAt l)
    (later : l ≠ ⟨none, []⟩) : Closing ⟨Function.update w.proc .spawner l, (s, w.shared.2)⟩ := by
  have waiting : ¬ (exitValue w = 1 ∨ w.proc .waiter = ⟨none, []⟩) := fun set => before (closing.closed.mpr set)
  exact {
    main := by simpa using place
    waiter := by simpa using closing.waiter
    value := closing.value
    closed := by simpa [later, exitValue] using waiting }

theorem Closing.step_main (closing : Closing w) : Closing (w.step kernel.act .spawner) := by
  have main := closing.main
  generalize here : w.proc .spawner = l at main
  cases main with
  | before =>
    rw [Places.step_enter here]
    exact closing.move_main (by simp [here]) (.joining .await) nofun
  | joining p =>
    rw [Places.step_op here]
    change Closing ⟨Function.update w.proc .spawner ⟨(p.next ((p.op .eventA).answer w.shared.1)).map .inl, _⟩, _⟩
    rcases p.next ((p.op GroupReg.eventA).answer w.shared.1) with _ | next
    · exact closing.move_main (by simp [here]) .joined nofun
    · exact closing.move_main (by simp [here]) (.joining next) nofun
  | joined =>
    rw [Places.step_enter here]
    exact closing.move_main (by simp [here]) .closing nofun
  | closing =>
    rw [Places.step_op here]
    exact {
      main := by
        simp only [Function.update_self]
        exact .closed
      waiter := by simpa using closing.waiter
      value := .inr rfl
      closed := by
        simp only [Function.update_self]
        exact iff_of_true rfl (.inl rfl) }
  | closed =>
    rw [Places.step_finished here]
    exact closing

theorem Closing.move_waiter (closing : Closing w) {l : Place (Host.WaitPoint ⊕ Host.WaitPoint) (Unit ⊕ Unit)}
    {b : Beyond (Party N)} (place : WaiterAt l) (value : b.exit.regs.value () = 0 ∨ b.exit.regs.value () = 1)
    (closed : w.proc .spawner = ⟨none, []⟩ ↔ b.exit.regs.value () = 1 ∨ l = ⟨none, []⟩) :
    Closing ⟨Function.update w.proc .waiter l, (w.shared.1, b)⟩ where
  main := by simpa using closing.main
  waiter := by simpa using place
  value := value
  closed := by simpa using closed

theorem Closing.step_waiter (closing : Closing w) : Closing (w.step kernel.act .waiter) := by
  have waiter := closing.waiter
  have closed := closing.closed
  generalize here : w.proc .waiter = l at waiter closed
  cases waiter with
  | before =>
    rw [Places.step_enter here]
    refine closing.move_waiter (b := w.shared.2) .polling closing.value (closed.trans (or_congr Iff.rfl ?_))
    exact iff_of_false nofun nofun
  | polling =>
    rw [Places.step_op here]
    have emptied : (exec overwrite (Party.waiter (N := N)) (.readSynchronization ())
        w.shared.2.exit).2.regs.value () = 0 := by simp [Op.access, Custody.apply]
    let taken : Beyond (Party N) :=
      { w.shared.2 with exit := (exec overwrite .waiter (.readSynchronization ()) w.shared.2.exit).2 }
    change Closing ⟨Function.update w.proc .waiter ⟨(Host.WaitPoint.poll.next 1 (exitValue w)).map .inr, []⟩,
      (w.shared.1, taken)⟩
    rcases closing.value with empty | set
    · rw [empty]
      refine closing.move_waiter .polling (.inl emptied) (closed.trans (iff_of_false ?_ ?_))
      · simp [empty]
      · rintro (one | ended)
        · cases emptied.symm.trans one
        · cases ended
    · rw [set]
      exact closing.move_waiter .returned (.inl emptied) (closed.trans (iff_of_true (.inl set) (.inr rfl)))
  | returned =>
    rw [Places.step_finished here]
    exact closing

theorem closing_reachable (reach : World.Reachable kernel.act kernel.places w) : Closing w := by
  refine reach.invariant (motive := Closing) (fun w j _ closing => ?_) (closing_start kernel)
  have other : ∀ {j : Party N}, j ≠ .spawner → j ≠ .waiter → Closing (w.step kernel.act j) :=
    fun main waiter => closing.congr (World.step_proc_other (Ne.symm main) w)
      (World.step_proc_other (Ne.symm waiter) w) (exitValue_other main waiter)
  cases j with
  | task i => exact other (by simp) (by simp)
  | host => exact other (by simp) (by simp)
  | spawner => exact closing.step_main
  | waiter => exact closing.step_waiter

/-- Once the host has returned all tasks have left, with all of their work done. -/
theorem returned_ended (fits : N + 1 < 2^32) (reach : World.Reachable kernel.act kernel.places w)
    (returned : w.proc .waiter = ⟨none, []⟩) (i : Fin N) : (w.proc (.task i)).first = ⟨none, []⟩ := by
  have closed := (closing_reachable reach).closed.mpr (.inr returned)
  obtain ⟨r, leaving⟩ := leaving_reachable (g := kernel.group) rfl fits (kernel.reachable_first reach)
  have past : JoinPast ((BesidePlaces.first w).proc .spawner) := by
    simp [BesidePlaces.first, closed, JoinPast]
  have present := Rounds.missing_eq_zero.mp (leaving.past past) i
  exact not_not.mp fun inside => present ((leaving.absent i).mpr inside)

theorem Course.past {i : Fin N} {k : Nat} {q : Prog MemoryOp Nat} {l : KernelPlace}
    (course : Course kernel i k q l) (left : l.first = ⟨none, []⟩) :
    q = .ret 0 ∧ k = kernel.barriers ∧ l = ⟨none, []⟩ := by
  obtain ⟨point, calls⟩ := Place.mk.inj left
  cases course with
  | ended total => exact ⟨rfl, total, rfl⟩
  | fresh total =>
    dsimp only at calls
    rw [GroupKernel.taskCalls_first] at calls
    simp at calls
  | working total q =>
    dsimp only at calls
    rw [taskCalls_tail_first] at calls
    simp at calls
  | done total =>
    dsimp only at calls
    rw [taskCalls_tail_first] at calls
    simp at calls
  | arriving total p => cases point
  | waking later total p => cases point
  | exiting total p => cases point

/-- A kernel without tasks leaves the memory as it is. -/
theorem serial_idle (kernel : GroupKernel 0) (fuel k : Nat) : kernel.serial fuel k = some kernel.memory := by
  induction k with
  | zero => rfl
  | succ k ih =>
    simp only [GroupKernel.serial, ih]
    rfl

/-- Tasks that are at work are at the same piece of work, and each of them does what it would do alone with
    what the pieces before have left in the memory. -/
def GroupKernel.InStep (kernel : GroupKernel N) (c : KernelThreads N) : Prop :=
  ∃ k m steps, (∃ fuel, kernel.serial fuel k = some m) ∧
    memoryFootprint.Together (fun i => (kernel.work i k).text) m steps c.shared.2.memory ∧
      ∀ i a, (c.proc (.task i)).running.nextOp = some (.inr a) →
        (c.proc (.task i)).running = GroupKernel.onCells ((kernel.work i k).text.solo memoryExec m (steps i)).1

theorem Course.at_work {i : Fin N} {k : Nat} {q : Prog MemoryOp Nat} {l : KernelPlace}
    (course : Course kernel i k q l) {a : KernelOp}
    (next : ((kernel.charts (.task i)).thread l).running.nextOp = some (.inr a)) :
    ((kernel.charts (.task i)).thread l).running = GroupKernel.onCells q := by
  rw [Chart.thread_nextOp] at next
  cases course with
  | working total q => rfl
  | fresh total => cases next
  | done total => cases next
  | ended total => cases next
  | arriving total p => cases next
  | waking later total p => cases next
  | exiting total p => cases next

theorem GroupKernel.lockstep (fits : N < 2^31) (free : kernel.RaceFree) {c : KernelThreads N}
    (reach : kernel.Reachable c) : ∃ (w : KernelPlaces N) (k : Nat) (m : Nat → Nat) (steps : Fin N → Nat),
      World.Reachable kernel.act kernel.places w ∧
      Lockstep kernel k m steps w ∧ c = w.threads kernel.charts := by
  obtain ⟨w, run, rfl⟩ := kernel.reachable_places reach
  obtain ⟨k, m, steps, lockstep⟩ := lockstep_reachable (by omega) free run
  exact ⟨w, k, m, steps, run, lockstep, rfl⟩

theorem GroupKernel.inStep_reachable (fits : N < 2^31) (free : kernel.RaceFree) {c : KernelThreads N}
    (reach : kernel.Reachable c) : kernel.InStep c := by
  obtain ⟨w, k, m, steps, _, lockstep, rfl⟩ := GroupKernel.lockstep fits free reach
  exact ⟨k, m, steps, lockstep.serial, lockstep.together, fun i a next => (lockstep.course i).at_work next⟩

theorem GroupKernel.serial_returned (fits : N < 2^31) (free : kernel.RaceFree) {c : KernelThreads N}
    (reach : kernel.Reachable c) (returned : (c.proc .waiter).finished = true) :
    (∀ i, (c.proc (.task i)).finished = true) ∧
      ∃ fuel, kernel.serial fuel (kernel.barriers + 1) = some c.shared.2.memory := by
  obtain ⟨w, k, m, steps, run, lockstep, rfl⟩ := GroupKernel.lockstep fits free reach
  have returned' : w.proc .waiter = ⟨none, []⟩ := by
    rw [World.map_proc, Chart.thread_finished] at returned
    exact returned
  have past := fun i => (lockstep.course i).past (returned_ended (by omega) run returned' i)
  refine ⟨fun i => ?_, ?_⟩
  · rw [World.map_proc, Chart.thread_finished]
    exact (past i).2.2
  · rcases N with _ | N
    · obtain ⟨fuel, ran⟩ := lockstep.serial
      rw [serial_idle] at ran
      cases ran
      have same : w.shared.2.memory = kernel.memory :=
        funext fun x => lockstep.together.untouched x fun j => j.elim0
      exact ⟨fuel, (serial_idle kernel fuel _).trans (congrArg some same.symm)⟩
    · obtain rfl := (past 0).2.1
      exact kernel.serial_next lockstep.serial (lockstep.together.serial (free _ le_rfl m lockstep.serial)
        (fun i => ⟨0, (past i).1⟩) (List.nodup_finRange _) List.mem_finRange)

/-- A group of tasks without races works as one task after the other would, from barrier to barrier, and the
    host finds what they leave behind when its wait for the kernel has returned. -/
theorem group_works_in_step {N : Nat} (fits : N < 2^31) (kernel : GroupKernel N) (free : kernel.RaceFree)
    (c : KernelThreads N) (reach : kernel.Reachable c) :
    kernel.InStep c ∧ ((c.proc .waiter).finished = true →
      (∀ i, (c.proc (.task i)).finished = true) ∧
        ∃ fuel, kernel.serial fuel (kernel.barriers + 1) = some c.shared.2.memory) :=
  ⟨GroupKernel.inStep_reachable fits free reach, GroupKernel.serial_returned fits free reach⟩

/-- Two tasks of which each takes, after the barrier, what the other one has put before it. -/
def exchange : GroupKernel 2 where
  barriers := 1
  work i k :=
    if k = 0 then ⟨.op (.storeByte i (i + 1)) fun _ => .ret 0, fun _ => rfl⟩
    else ⟨.op (.loadByte (1 - i)) fun value => .op (.storeByte (2 + i) value) fun _ => .ret 0, fun _ _ => rfl⟩
  memory := fun _ => 0

theorem exchange_raceFree : exchange.RaceFree := by
  intro k _ m _
  let reads : Fin 2 → Set Nat := fun i => if k = 0 then ∅ else {1 - i.val}
  let writes : Fin 2 → Set Nat := fun i => if k = 0 then {i.val} else {2 + i.val}
  refine Footprint.RaceFree.of_owned reads writes (fun i => ?_) (fun i j other x => ?_) m
  · by_cases first : k = 0 <;>
      simp [exchange, reads, writes, first, Prog.Only, memoryFootprint]
  · have apart : i.val ≠ j.val := fun same => other (Fin.ext same)
    by_cases first : k = 0
    · simp only [reads, writes, first, ↓reduceIte, Set.mem_singleton_iff]
      rintro rfl
      exact ⟨apart, id⟩
    · simp only [reads, writes, first, ↓reduceIte, Set.mem_singleton_iff]
      omega

theorem group_works_in_step_exchange : ∃ c, exchange.Reachable c ∧ (c.proc .waiter).finished = true ∧
    ∃ fuel, exchange.serial fuel 2 = some c.shared.2.memory := by
  let schedule : List (Party 2) := List.replicate 9 (.task 0) ++ List.replicate 22 (.task 1) ++
    List.replicate 7 (.task 0) ++ List.replicate 5 .spawner ++ List.replicate 2 .waiter
  have reach : exchange.Reachable (exchange.start.run (threadAct partyExec) schedule) := ⟨schedule, rfl⟩
  have returned : ((exchange.start.run (threadAct partyExec) schedule).proc .waiter).finished = true := by
    decide +kernel
  obtain ⟨_, past⟩ := group_works_in_step (by decide) exchange exchange_raceFree _ reach
  exact ⟨_, reach, returned, (past returned).2⟩

end MangoModel
