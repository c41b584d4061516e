import LibMango.Group.Arrival
import LibMango.Group.Joining

namespace MangoModel

open Interleave Device

section Live

variable {N : Nat}

/-- In every state of a group of `N` tasks with `R` barriers each, the tasks can still finish,
    and a register of the group is empty only while somebody has to write it. -/
def GroupLive (N R : Nat) : Prop :=
  ∀ c, (deviceGroup fun _ : Fin N => R).Reachable overwrite c →
    (∃ schedule, TasksDone (c.run (threadAct (exec overwrite)) schedule)) ∧
      ∀ e, e ≠ .fifo → (e = .eventA → ¬ Joined c) → c.shared.regs.value e = 0 → Held c e

end Live

section Lost

variable {N : Nat} {g : Group N} {w : GroupPlaces N} {i : Fin N} {rest : List TaskCall}

theorem run_branch (plain : g.usesFifo = false) {go : Nat} (written : go = 1)
    (here : w.proc (.task i) = ⟨some (.allReached go), rest⟩)
    (release : w.shared.regs.value .eventR = 2) (counter : w.shared.regs.value .eventB = 1) :
    let v := w.run (g.act overwrite) (List.replicate 7 (.task i))
    v.proc = Function.update w.proc (.task i) ⟨some .flipped, rest⟩ ∧
      v.shared.regs.value .eventR = 1 := by
  subst written
  simp [World.run, World.step, here, Chart.step, Group.charts, taskChart, TaskPoint.next,
    TaskPoint.op, retry, Op.answer, release, counter, Op.access, Custody.apply, Custody.take,
    Custody.put, overwrite, Function.update, spawnArgs, uint32, Group.fifo, plain]

theorem run_consume {go : Nat} (filled : go ≠ 0)
    (here : w.proc (.task i) = ⟨some (.awaitRelease go), rest⟩)
    (release : w.shared.regs.value .eventR = go) :
    (w.step (g.act overwrite) (.task i)).proc = Function.update w.proc (.task i) ⟨none, rest⟩ ∧
      (w.step (g.act overwrite) (.task i)).shared.regs.value .eventR = 0 := by
  simp [World.step, here, Chart.step, Group.charts, taskChart, TaskPoint.next, TaskPoint.op,
    await, Op.answer, release, Op.access, Custody.apply, spawnArgs, filled]

/-- With two tasks or more the first one to leave the first barrier takes the release value
    away. -/
theorem release_lost (plain : g.usesFifo = false) (fits : N + 1 < 2^32) (two : 1 < N)
    (rounds : ∀ i, 0 < g.rounds i) : ∃ schedule,
      Custody.Lost (Places.debt debts (g.places.run (g.act overwrite) schedule))
        (g.places.run (g.act overwrite) schedule).shared.regs .eventR ∧
      (g.places.run (g.act overwrite) schedule).proc (.task ⟨0, by omega⟩) =
        ⟨none, List.replicate (g.rounds ⟨0, by omega⟩ - 1) .barrier ++ [.exit]⟩ ∧
      ∀ i : Fin N, 0 < i.val → i.val < N - 1 →
        ((g.places.run (g.act overwrite) schedule).proc (.task i)).point = some (.awaitRelease 1) := by
  obtain ⟨first, all⟩ := allArrived_run g fits rounds (by omega)
  have release : (g.places.run (g.act overwrite) first).shared.regs.value .eventR = 2 := by
    rw [all.values]; rfl
  have counter : (g.places.run (g.act overwrite) first).shared.regs.value .eventB = 1 := by
    rw [all.values, Function.update_self]
  obtain ⟨proc, flipped⟩ := run_branch plain rfl all.last release counter
  have zero : (⟨0, by omega⟩ : Fin N) ≠ ⟨N - 1, by omega⟩ := by
    simp only [ne_eq, Fin.mk.injEq]
    omega
  have waits : (((g.places.run (g.act overwrite) first).run (g.act overwrite)
      (List.replicate 7 (.task ⟨N - 1, by omega⟩))).proc (.task ⟨0, by omega⟩)) =
        ⟨some (.awaitRelease 1), List.replicate (g.rounds ⟨0, by omega⟩ - 1) .barrier ++ [.exit]⟩ := by
    rw [proc, update_task, if_neg zero]
    exact all.waiting _ zero
  obtain ⟨proc', empty⟩ := run_consume (g := g) (by decide) waits flipped
  refine ⟨first ++ (List.replicate 7 (.task ⟨N - 1, by omega⟩) ++ [.task ⟨0, by omega⟩]), ?_⟩
  rw [World.run_append, World.run_append, World.run_cons, World.run_nil]
  refine ⟨⟨empty, fun j owed => ?_⟩, ?_, fun i later less => ?_⟩
  · rw [Places.debt] at owed
    by_cases task : ∃ i, j = .task i
    · obtain ⟨i, rfl⟩ := task
      rw [proc', update_task] at owed
      split at owed
      · cases owed
      · rw [proc, update_task] at owed
        split at owed
        · cases owed
        · next other =>
          rw [all.waiting i other] at owed
          cases owed
    · have apart : ∀ i, j ≠ .task i := fun i same => task ⟨i, same⟩
      rw [proc', Function.update_of_ne (apart _), proc, Function.update_of_ne (apart _),
        all.others j apart] at owed
      cases j with
      | task i => exact apart i rfl
      | _ => cases owed
  · rw [proc', Function.update_self]
  · have first' : i ≠ ⟨0, by omega⟩ := by
      intro same
      have value := congrArg Fin.val same
      dsimp only at value
      omega
    have last' : i ≠ ⟨N - 1, by omega⟩ := by
      intro same
      have value := congrArg Fin.val same
      dsimp only at value
      omega
    rw [proc', update_task, if_neg first', proc, update_task, if_neg last', all.waiting i last']

def NeedsRelease (l : Place (TaskPoint GroupReg) TaskCall) : Prop :=
  (∃ go, l.point = some (.awaitRelease go)) ∨ l.point = some .lockRelease ∨
    l.point = some .reached ∨ ∃ rest, l = ⟨none, .barrier :: rest⟩

theorem needs_release_step (needs : NeedsRelease (w.proc (.task i)))
    (empty : w.shared.regs.value .eventR = 0) (j : Party N) :
    NeedsRelease ((w.step (g.act overwrite) j).proc (.task i)) := by
  by_cases mine : j = .task i
  · subst mine
    rcases here : w.proc (.task i) with ⟨point, calls⟩
    rw [here] at needs
    rcases needs with ⟨go, point⟩ | point | point | ⟨rest, idle⟩
    · obtain rfl : _ = some (TaskPoint.awaitRelease go) := point
      rw [step_task here]
      refine .inl ⟨go, ?_⟩
      simp [TaskPoint.next, TaskPoint.op, spawnArgs, Op.answer, await, empty]
    · obtain rfl : _ = some TaskPoint.lockRelease := point
      rw [step_task here]
      refine .inr (.inl ?_)
      simp [TaskPoint.next, TaskPoint.op, spawnArgs, Op.answer, retry, empty]
    · obtain rfl : _ = some TaskPoint.reached := point
      rw [step_task here]
      refine .inr (.inl ?_)
      simp [TaskPoint.next]
    · cases idle
      rw [Places.step_enter here]
      refine .inr (.inr (.inl ?_))
      simp [Group.charts, taskChart]
  · rw [World.step_proc_other (Ne.symm mine)]
    exact needs

theorem never_finishes (lost : Custody.Lost (Places.debt debts w) w.shared.regs .eventR)
    (needs : NeedsRelease (w.proc (.task i))) (schedule : List (Party N)) :
    (w.run (g.act overwrite) schedule).proc (.task i) ≠ ⟨none, []⟩ := by
  have kept := World.invariant_run
    (motive := fun w : GroupPlaces N => Custody.Lost (Places.debt debts w) w.shared.regs .eventR ∧
      NeedsRelease (w.proc (.task i)))
    (fun w j kept => ⟨lost_step Shared.regs g.settles (Group.executes overwrite) j kept.1,
      needs_release_step kept.2 kept.1.1 j⟩) ⟨lost, needs⟩ schedule
  intro ended
  have still := kept.2
  rw [ended] at still
  rcases still with ⟨go, point⟩ | point | point | ⟨rest, idle⟩
  · cases point
  · cases point
  · cases point
  · cases idle

end Lost

section Negative

variable {N R : Nat}

theorem held_debt {g : Group N} {w : GroupPlaces N} {e : GroupReg}
    (held : Held (w.threads g.charts) e) : ∃ i, Places.debt debts w i = some e := by
  obtain ⟨i, _, owed⟩ := held
  rw [World.map_proc, g.owes_thread i] at owed
  exact ⟨i, owed⟩

theorem not_group_live (fits : N < 2^31) (two : 1 < N) (some : 0 < R) : ¬ GroupLive N R := by
  intro live
  obtain ⟨schedule, lost, _⟩ := release_lost (g := deviceGroup fun _ : Fin N => R) rfl (by omega) two
    fun _ => some
  have reach : (deviceGroup fun _ : Fin N => R).Reachable overwrite _ := ⟨schedule, rfl⟩
  rw [Group.reachable_run] at reach
  obtain ⟨_, registers⟩ := live _ reach
  obtain ⟨i, owed⟩ := held_debt (registers .eventR (by decide) (by simp) lost.1)
  exact lost.2 i owed

/-- With two tasks and two barriers, or with three tasks, a group can get stuck for good. -/
theorem group_stuck (fits : N < 2^31) (two : 1 < N) (some : 0 < R) (more : 1 < R ∨ 2 < N) :
    ∃ c, (deviceGroup fun _ : Fin N => R).Reachable overwrite c ∧
      ∀ schedule, ¬ TasksDone (c.run (threadAct (exec overwrite)) schedule) := by
  obtain ⟨first, lost, left, waits⟩ := release_lost (g := deviceGroup fun _ : Fin N => R) rfl
    (by omega) two fun _ => some
  refine ⟨_, ⟨first, rfl⟩, fun schedule done => ?_⟩
  rw [← World.run_append, Group.reachable_run, World.run_append] at done
  have needs : ∃ i, NeedsRelease (((deviceGroup fun _ : Fin N => R).places.run
      ((deviceGroup fun _ : Fin N => R).act overwrite) first).proc (.task i)) := by
    rcases more with rounds | tasks
    · refine ⟨⟨0, by omega⟩, .inr (.inr (.inr ?_))⟩
      obtain ⟨n, rfl⟩ := Nat.exists_eq_add_of_lt rounds
      rw [left]
      exact ⟨List.replicate n .barrier ++ [.exit], by simp [deviceGroup, Nat.add_comm 1 n, List.replicate_succ]⟩
    · exact ⟨⟨1, two⟩, .inl ⟨1, waits ⟨1, two⟩ Nat.one_pos (by dsimp only; omega)⟩⟩
  obtain ⟨i, needs⟩ := needs
  exact never_finishes lost needs schedule
    (((deviceGroup fun _ : Fin N => R).charts (.task i)).thread_finished _ |>.mp (done i))

end Negative

section Alone

variable {R : Nat} {r : Rounds (Fin 1)} {leader : Option (Fin 1)} {w : GroupPlaces 1}

def NeverWaits : TaskPoint GroupReg → Prop
  | .waiting _ | .awaitRelease _ | .backAwait _ _ => False
  | p => p.fifoOf = none

/-- The only task has what it needs: a register of its barrier is empty only while it has to
    write it. -/
structure Alone (w : GroupPlaces 1) : Prop where
  point : ∀ p, (w.proc (.task 0)).point = some p → NeverWaits p
  registers : ∀ e, e = .eventB ∨ e = .eventR → w.shared.regs.value e = 0 →
    Places.debt debts w (.task 0) = some e

def stepsLeft : TaskPoint GroupReg → Nat
  | .reached => 14
  | .lockRelease => 13
  | .backRelease _ => 12
  | .lockBarrier _ => 11
  | .writeBarrier _ _ => 10
  | .allReached _ => 9
  | .fifoComplete _ => 8
  | .lockReset _ => 7
  | .writeReset _ => 6
  | .resetDone _ => 5
  | .lockFlip _ => 4
  | .writeFlip _ => 3
  | .flipped => 2
  | .lockExit => 2
  | _ => 1

def taskLeft (l : Place (TaskPoint GroupReg) TaskCall) : Nat :=
  20 * l.calls.length + l.point.elim 0 stepsLeft

abbrev soloGroup (R : Nat) : Group 1 := deviceGroup fun _ : Fin 1 => R

theorem alone_step {p : TaskPoint GroupReg} {calls : List TaskCall}
    (here : w.proc (.task 0) = ⟨some p, calls⟩) (goal : Option (TaskPoint GroupReg))
    (goes : p.next none ((p.op (spawnArgs 1 0)).answer w.shared) = goal)
    (waits : ∀ q, goal = some q → NeverWaits q)
    (registers : ∀ e, e = .eventB ∨ e = .eventR →
      (exec overwrite (.task 0) (p.op (spawnArgs 1 0)) w.shared).2.regs.value e = 0 →
        goal.bind (TaskPoint.owes (spawnArgs 1 0)) = some e)
    (less : goal.elim 0 stepsLeft < stepsLeft p) :
    Alone (w.step ((soloGroup R).act overwrite) (.task 0)) ∧
      taskLeft ((w.step ((soloGroup R).act overwrite) (.task 0)).proc (.task 0)) <
        taskLeft (w.proc (.task 0)) := by
  have stepped : w.step ((soloGroup R).act overwrite) (.task 0) =
      ⟨Function.update w.proc (.task 0) ⟨goal, calls⟩,
        (exec overwrite (.task 0) (p.op (spawnArgs 1 0)) w.shared).2⟩ := by
    rw [step_task here, ← goes]
    rfl
  rw [stepped]
  refine ⟨⟨fun q found => ?_, fun e barrier empty => ?_⟩, ?_⟩
  · dsimp only at found
    rw [Function.update_self] at found
    exact waits q found
  · rw [Places.debt_update, Function.update_self]
    exact registers e barrier empty
  · dsimp only
    rw [Function.update_self, here]
    simpa [taskLeft] using less

theorem alone_enter {call : TaskCall} {calls : List TaskCall} (alone : Alone w)
    (here : w.proc (.task 0) = ⟨none, call :: calls⟩) :
    Alone (w.step ((soloGroup R).act overwrite) (.task 0)) ∧
      taskLeft ((w.step ((soloGroup R).act overwrite) (.task 0)).proc (.task 0)) <
        taskLeft (w.proc (.task 0)) := by
  have free : Places.debt debts w (.task 0) = none := by rw [Places.debt, here]; rfl
  have full := alone.registers
  simp only [free, reduceCtorEq, imp_false] at full
  rw [Places.step_enter here]
  refine ⟨⟨fun q found => ?_, fun e barrier empty => absurd empty (full e barrier)⟩, ?_⟩
  · cases call with
    | barrier =>
      obtain rfl : q = .reached := by simpa [Group.charts, taskChart] using found.symm
      rfl
    | exit =>
      obtain rfl : q = .lockExit := by simpa [Group.charts, taskChart] using found.symm
      rfl
  · dsimp only
    rw [Function.update_self, here]
    cases call <;> simp [taskLeft, Group.charts, taskChart, stepsLeft, Nat.mul_add]

/-- A register that the step neither reads nor writes is empty only while the task owes it. -/
theorem Alone.owes_of_empty (alone : Alone w) {p : TaskPoint GroupReg} {calls : List TaskCall}
    (here : w.proc (.task 0) = ⟨some p, calls⟩) {e : GroupReg} (barrier : e = .eventB ∨ e = .eventR)
    (unread : p.op (spawnArgs 1 0) ≠ .readSynchronization e)
    (unwritten : (p.op (spawnArgs 1 0)).written ≠ some e)
    (empty : (exec overwrite (.task 0) (p.op (spawnArgs 1 0)) w.shared).2.regs.value e = 0) :
    p.owes (spawnArgs 1 0) = some e := by
  have full := alone.registers e barrier ((exec_value_other _ _ _ _ unread unwritten).symm.trans empty)
  rwa [Places.debt, here] at full

section Moves

variable {p : TaskPoint GroupReg} {calls : List TaskCall} {e : GroupReg}

theorem alone_quiet (alone : Alone w) (here : w.proc (.task 0) = ⟨some p, calls⟩)
    (goal : Option (TaskPoint GroupReg))
    (goes : p.next none ((p.op (spawnArgs 1 0)).answer w.shared) = goal)
    (waits : ∀ q, goal = some q → NeverWaits q)
    (untouched : ∀ e, e = .eventB ∨ e = .eventR → p.op (spawnArgs 1 0) ≠ .readSynchronization e ∧
      (p.op (spawnArgs 1 0)).written ≠ some e ∧ p.owes (spawnArgs 1 0) ≠ some e)
    (less : goal.elim 0 stepsLeft < stepsLeft p) :
    Alone (w.step ((soloGroup R).act overwrite) (.task 0)) ∧
      taskLeft ((w.step ((soloGroup R).act overwrite) (.task 0)).proc (.task 0)) <
        taskLeft (w.proc (.task 0)) := by
  refine alone_step here goal goes waits (fun e barrier empty => ?_) less
  obtain ⟨unread, unwritten, free⟩ := untouched e barrier
  exact absurd (alone.owes_of_empty here barrier unread unwritten empty) free

theorem alone_takes (alone : Alone w) (here : w.proc (.task 0) = ⟨some p, calls⟩)
    (goal : Option (TaskPoint GroupReg))
    (goes : p.next none ((p.op (spawnArgs 1 0)).answer w.shared) = goal)
    (waits : ∀ q, goal = some q → NeverWaits q) (free : p.owes (spawnArgs 1 0) = none)
    (takes : p.op (spawnArgs 1 0) = .readSynchronization e)
    (owes : goal.bind (TaskPoint.owes (spawnArgs 1 0)) = some e)
    (less : goal.elim 0 stepsLeft < stepsLeft p) :
    Alone (w.step ((soloGroup R).act overwrite) (.task 0)) ∧
      taskLeft ((w.step ((soloGroup R).act overwrite) (.task 0)).proc (.task 0)) <
        taskLeft (w.proc (.task 0)) := by
  refine alone_step here goal goes waits (fun other barrier empty => ?_) less
  by_cases same : other = e
  · rwa [same]
  · have unread : p.op (spawnArgs 1 0) ≠ .readSynchronization other := by
      rw [takes]
      simpa using Ne.symm same
    have owed := alone.owes_of_empty here barrier unread (by simp [takes, Op.written]) empty
    rw [free] at owed
    cases owed

theorem alone_puts (alone : Alone w) (here : w.proc (.task 0) = ⟨some p, calls⟩)
    (goal : Option (TaskPoint GroupReg))
    (goes : p.next none ((p.op (spawnArgs 1 0)).answer w.shared) = goal)
    (waits : ∀ q, goal = some q → NeverWaits q) (owed : p.owes (spawnArgs 1 0) = some e)
    {value : Nat} (puts : p.op (spawnArgs 1 0) = .writeSynchronization e value) (set : uint32 value ≠ 0)
    (less : goal.elim 0 stepsLeft < stepsLeft p) :
    Alone (w.step ((soloGroup R).act overwrite) (.task 0)) ∧
      taskLeft ((w.step ((soloGroup R).act overwrite) (.task 0)).proc (.task 0)) <
        taskLeft (w.proc (.task 0)) := by
  refine alone_step here goal goes waits (fun other barrier empty => ?_) less
  by_cases same : other = e
  · subst same
    rw [exec_regs, puts] at empty
    exact absurd ((Custody.put_value_self _ _ _ _).symm.trans empty) set
  · have unwritten : (p.op (spawnArgs 1 0)).written ≠ some other := by
      simpa [puts, Op.written] using Ne.symm same
    have owes := alone.owes_of_empty here barrier (by simp [puts]) unwritten empty
    exact absurd (Option.some.inj (owes.symm.trans owed)) same

end Moves

theorem releaseValue_set (n : Nat) : uint32 (releaseValue n) ≠ 0 := by
  rw [uint32_of_lt (releaseValue_lt n)]
  exact releaseValue_ne_zero n

/-- Each step of the only task keeps it so, and brings it forward unless it waits for the
    task event. -/
theorem Alone.forward (alone : Alone w) (m : Meeting (soloGroup R).rounds r leader w)
    (unfinished : w.proc (.task 0) ≠ ⟨none, []⟩)
    (event : (w.proc (.task 0)).point = some .lockExit → w.shared.regs.value .eventA ≠ 0) :
    Alone (w.step ((soloGroup R).act overwrite) (.task 0)) ∧
      taskLeft ((w.step ((soloGroup R).act overwrite) (.task 0)).proc (.task 0)) <
        taskLeft (w.proc (.task 0)) := by
  have member := m.member 0
  have never := alone.point
  have full := alone.registers
  rcases here : w.proc (.task 0) with ⟨_ | p, calls⟩
  · cases calls with
    | nil => exact absurd here unfinished
    | cons call calls => exact here ▸ alone_enter alone here
  · rw [Places.debt, here] at full
    rw [here] at member never
    rw [← here]
    have filled : ∀ {e : GroupReg}, e = .eventB ∨ e = .eventR → p.owes (spawnArgs 1 0) = none →
        w.shared.regs.value e ≠ 0 := by
      intro e barrier free empty
      have owed : p.owes (spawnArgs 1 0) = some e := full e barrier empty
      rw [free] at owed
      cases owed
    have waits := never p rfl
    have shape := member.shape
    cases p with
    | reached =>
      exact alone_quiet alone here (some .lockRelease) rfl (by rintro _ ⟨⟩; rfl)
        (by simp [TaskPoint.op, TaskPoint.owes, Op.written]) (by decide)
    | lockRelease =>
      exact alone_takes alone here (some (.backRelease (w.shared.regs.value .eventR)))
        (retry_filled _ _ (filled (.inr rfl) rfl)) (by rintro _ ⟨⟩; rfl) rfl rfl rfl (by simp [stepsLeft])
    | backRelease old =>
      have found : old = releaseValue r.released := by
        rcases shape with ⟨approaches, _⟩ | signalled | exits
        · exact approaches
        · cases signalled.1
        · exact absurd exits id
      exact alone_puts alone here (some (.lockBarrier (toggle old))) rfl (by rintro _ ⟨⟩; rfl) rfl rfl
        (found ▸ releaseValue_set _) (by simp [stepsLeft])
    | lockBarrier go =>
      exact alone_takes alone here (some (.writeBarrier go (w.shared.regs.value .eventB)))
        (retry_filled _ _ (filled (.inl rfl) rfl)) (by rintro _ ⟨⟩; rfl) rfl rfl rfl (by simp [stepsLeft])
    | writeBarrier go v =>
      have same : r.Absent 0 := member.same_of_counting rfl
      have some := Rounds.missing_pos same
      have few := r.missing_le
      rw [Fintype.card_fin] at few
      have found : v = 2 := by
        have counted := m.counting 0 go v (by rw [here])
        omega
      subst found
      exact alone_puts alone here (Option.some (.allReached go)) rfl (by rintro _ ⟨⟩; rfl) rfl rfl
        (by decide) (by simp [stepsLeft])
    | allReached go =>
      exact alone_quiet alone here (some (.fifoComplete go)) rfl (by rintro _ ⟨⟩; rfl)
        (by simp [TaskPoint.op, TaskPoint.owes, Op.written]) (by simp [stepsLeft])
    | fifoComplete go =>
      exact alone_quiet alone here (some (.lockReset go)) rfl (by rintro _ ⟨⟩; rfl)
        (by simp [TaskPoint.op, TaskPoint.owes, Op.written]) (by simp [stepsLeft])
    | lockReset go =>
      exact alone_takes alone here (some (.writeReset go)) (retry_filled _ _ (filled (.inl rfl) rfl))
        (by rintro _ ⟨⟩; rfl) rfl rfl rfl (by simp [stepsLeft])
    | writeReset go =>
      exact alone_puts alone here (some (.resetDone go)) rfl (by rintro _ ⟨⟩; rfl) rfl rfl (by decide)
        (by simp [stepsLeft])
    | resetDone go =>
      exact alone_quiet alone here (some (.lockFlip go)) rfl (by rintro _ ⟨⟩; rfl)
        (by simp [TaskPoint.op, TaskPoint.owes, Op.written]) (by simp [stepsLeft])
    | lockFlip go =>
      exact alone_takes alone here (some (.writeFlip go)) (retry_filled _ _ (filled (.inr rfl) rfl))
        (by rintro _ ⟨⟩; rfl) rfl rfl rfl (by simp [stepsLeft])
    | writeFlip go =>
      have found : go = releaseValue (r.arrived 0) := by
        rcases shape with ⟨approaches, _⟩ | signalled | exits
        · exact absurd approaches id
        · exact Option.some.inj signalled.1
        · exact absurd exits id
      exact alone_puts alone here (some .flipped) rfl (by rintro _ ⟨⟩; rfl) rfl rfl
        (found ▸ releaseValue_set _) (by simp [stepsLeft])
    | flipped =>
      exact alone_quiet alone here none rfl (by rintro _ ⟨⟩)
        (by simp [TaskPoint.op, TaskPoint.owes, Op.written]) (by simp [stepsLeft])
    | lockExit =>
      exact alone_quiet alone here (some (.writeExit (w.shared.regs.value .eventA)))
        (retry_filled _ _ (event (by rw [here]))) (by rintro _ ⟨⟩; rfl)
        (by simp [TaskPoint.op, TaskPoint.owes, Op.written, spawnArgs]) (by simp [stepsLeft])
    | writeExit v =>
      exact alone_quiet alone here none rfl (by rintro _ ⟨⟩)
        (by simp [TaskPoint.op, TaskPoint.owes, Op.written, spawnArgs]) (by simp [stepsLeft])
    | waiting | awaitRelease | backAwait => exact absurd waits id
    | _ => cases waits

theorem barrier_apart {j : Party 1} (other : ∀ i, j ≠ .task i) {e : GroupReg}
    (barrier : e = .eventB ∨ e = .eventR) (p : PartyPoint j) :
    ((soloGroup R).charts j).op p ≠ .readSynchronization e ∧
      (((soloGroup R).charts j).op p).written ≠ some e := by
  cases j with
  | task i => exact absurd rfl (other i)
  | spawner =>
    rcases barrier with rfl | rfl <;> cases p <;> simp [Group.charts, joinChart, JoinPoint.op, Op.written]
  | host =>
    rcases barrier with rfl | rfl <;> cases p <;>
      simp [Group.charts, Host.synchChart, Host.SynchPoint.op, Host.writeTransfer, Group.buffer, Op.written]
  | waiter =>
    rcases barrier with rfl | rfl <;> cases p <;>
      simp [Group.charts, Host.waitChart, Host.WaitPoint.op, Op.written]

theorem Alone.congr (alone : Alone w) {v : GroupPlaces 1} (place : v.proc (.task 0) = w.proc (.task 0))
    (values : ∀ e, e = .eventB ∨ e = .eventR → v.shared.regs.value e = w.shared.regs.value e) :
    Alone v where
  point := by rw [place]; exact alone.point
  registers e barrier empty := by
    rw [values e barrier] at empty
    rw [Places.debt, place]
    exact alone.registers e barrier empty

theorem Alone.step (alone : Alone w) (m : Meeting (soloGroup R).rounds r leader w) (j : Party 1) :
    Alone (w.step ((soloGroup R).act overwrite) j) := by
  by_cases task : ∃ i, j = .task i
  · obtain ⟨i, rfl⟩ := task
    obtain rfl : i = 0 := Subsingleton.elim _ _
    by_cases ended : w.proc (.task 0) = ⟨none, []⟩
    · rw [Places.step_finished ended]
      exact alone
    · by_cases spins : (w.proc (.task 0)).point = some .lockExit ∧ w.shared.regs.value .eventA = 0
      · rcases here : w.proc (.task 0) with ⟨point, calls⟩
        rw [here] at spins
        obtain ⟨rfl, empty⟩ := spins
        refine alone.congr ?_ fun e barrier => ?_
        · rw [step_task here, here]
          simp [TaskPoint.next, TaskPoint.op, spawnArgs, Op.answer, retry, empty]
        · rw [step_task here]
          refine exec_value_other _ _ _ _ ?_ (by simp [TaskPoint.op, Op.written])
          rcases barrier with rfl | rfl <;> simp [TaskPoint.op, spawnArgs]
      · exact (alone.forward m ended fun point empty => spins ⟨point, empty⟩).1
  · have other : ∀ i, j ≠ .task i := fun i same => task ⟨i, same⟩
    exact alone.congr (World.step_proc_other (Ne.symm (other 0)) w)
      fun e barrier => step_keeps_value fun p => barrier_apart other barrier p

theorem alone_reachable
    (reach : World.Reachable ((soloGroup R).act overwrite) (soloGroup R).places w) : Alone w := by
  refine reach.invariant (motive := Alone) (fun w j reach alone => ?_)
    ⟨fun p found => absurd found (by simp [Group.places]), fun e barrier empty => ?_⟩
  · obtain ⟨_, _, m⟩ := meeting_reachable (by decide) reach
    exact alone.step m j
  · rcases barrier with rfl | rfl
    · cases empty
    · cases empty

/-- The steps left to the group: a spawner that holds the task event has to write it back. -/
def groupLeft (w : GroupPlaces 1) : Nat :=
  2 * taskLeft (w.proc (.task 0)) +
    match (w.proc .spawner).point with
    | some (.back _) => 1
    | _ => 0

theorem solo_nearer
    (reach : World.Reachable ((soloGroup R).act overwrite) (soloGroup R).places w)
    (unfinished : w.proc (.task 0) ≠ ⟨none, []⟩) :
    ∃ j, groupLeft (w.step ((soloGroup R).act overwrite) j) < groupLeft w := by
  have alone := alone_reachable reach
  obtain ⟨_, _, m⟩ := meeting_reachable (by decide) reach
  obtain ⟨r, leaving⟩ := leaving_reachable rfl (by decide) reach
  by_cases spins : (w.proc (.task 0)).point = some .lockExit ∧ w.shared.regs.value .eventA = 0
  · -- the spawner holds the task event, since nobody else can
    refine ⟨.spawner, ?_⟩
    have absent := (leaving.absent 0).mpr unfinished
    have holds : ∃ n, (w.proc .spawner).point = some (.back n) := by
      rcases leaving.taken spins.2 with ⟨i, n, exits⟩ | holds | past
      · obtain rfl : i = 0 := Subsingleton.elim _ _
        rw [spins.1] at exits
        cases exits
      · exact holds
      · have none := leaving.past past
        have some := Rounds.missing_pos absent
        omega
    obtain ⟨n, holds⟩ := holds
    rcases here : w.proc .spawner with ⟨point, calls⟩
    rw [here] at holds
    obtain rfl : point = some (.back n) := holds
    have still : (w.step ((soloGroup R).act overwrite) .spawner).proc (.task 0) = w.proc (.task 0) :=
      World.step_proc_other (by simp) w
    have other : n ≠ MangoEventStatus.READ.value := (leaving.holding n (by rw [here])).2
    have goes : (JoinPoint.back n).next (((JoinPoint.back n).op GroupReg.eventA).answer w.shared) =
        some .await := if_neg other
    unfold groupLeft
    rw [still, step_join here, goes]
    simp [here]
  · refine ⟨.task 0, ?_⟩
    have less := (alone.forward m unfinished fun point empty => spins ⟨point, empty⟩).2
    have still : (w.step ((soloGroup R).act overwrite) (.task 0)).proc .spawner = w.proc .spawner :=
      World.step_proc_other (by simp) w
    unfold groupLeft
    rw [still]
    omega

theorem solo_finishes
    (reach : World.Reachable ((soloGroup R).act overwrite) (soloGroup R).places w) :
    ∃ schedule, (w.run ((soloGroup R).act overwrite) schedule).proc (.task 0) = ⟨none, []⟩ := by
  refine World.reaches_of_rank
    (fun n w => World.Reachable ((soloGroup R).act overwrite) (soloGroup R).places w ∧ groupLeft w = n)
    (fun w => w.proc (.task 0) = ⟨none, []⟩) (fun n w rank unfinished => ?_) ⟨reach, rfl⟩
  obtain ⟨reach, rfl⟩ := rank
  obtain ⟨j, less⟩ := solo_nearer reach unfinished
  exact ⟨[j], _, less, reach.step j, rfl⟩

theorem solo_live (R : Nat) : GroupLive 1 R := by
  intro c reach
  obtain ⟨w, run, rfl⟩ := Group.reachable_places _ reach
  refine ⟨?_, fun e barrier joined empty => ?_⟩
  · obtain ⟨schedule, ended⟩ := solo_finishes run
    refine ⟨schedule, fun i => ?_⟩
    obtain rfl : i = 0 := Subsingleton.elim _ _
    rw [World.map_run fun i l s => ((soloGroup R).charts i).thread_step (exec overwrite i) l s]
    exact (((soloGroup R).charts (.task 0)).thread_finished _).mpr ended
  · have owed : ∃ i, Places.debt debts w i = some e := by
      have alone := alone_reachable run
      obtain ⟨r, leaving⟩ := leaving_reachable rfl (by decide) run
      cases e with
      | eventB => exact ⟨_, alone.registers _ (.inl rfl) empty⟩
      | eventR => exact ⟨_, alone.registers _ (.inr rfl) empty⟩
      | fifo => exact absurd rfl barrier
      | eventA =>
        rcases leaving.taken empty with ⟨i, n, exits⟩ | ⟨n, holds⟩ | past
        · exact ⟨.task i, by rw [Places.debt, exits]; rfl⟩
        · exact ⟨.spawner, by rw [Places.debt, holds]; rfl⟩
        · exact absurd (leaving.joined_iff.mpr past) (joined rfl)
    obtain ⟨i, owed⟩ := owed
    refine ⟨i, (Group.sound _ run i e owed).2, ?_⟩
    rw [World.map_proc, Group.owes_thread]
    exact owed

end Alone

/-- Exactly the groups of one task keep their registers and can always finish. -/
theorem group_live_iff {N R : Nat} (some : 1 ≤ N) (fits : N < 2^31) (rounds : 1 ≤ R) :
    GroupLive N R ↔ N = 1 := by
  constructor
  · intro live
    by_contra other
    exact not_group_live fits (by omega) rounds live
  · rintro rfl
    exact solo_live R

theorem group_live_one_task : GroupLive 1 3 :=
  (group_live_iff (by decide) (by decide) (by decide)).mpr rfl

theorem two_tasks_not_live : ¬ GroupLive 2 2 := not_group_live (by decide) (by decide) (by decide)

end MangoModel
