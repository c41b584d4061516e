import LibMango.Group.Meeting

namespace MangoModel

open Interleave Device

variable {N : Nat} {g : Group N} {r : Rounds (Fin N)} {leader : Option (Fin N)}
  {w : GroupPlaces N} {i : Fin N} {p : TaskPoint GroupReg} {calls : List TaskCall}

theorem retry_cases {P : Type} (here there : P) (value : Nat) :
    value = 0 ∧ retry here there value = some here ∨
      value ≠ 0 ∧ retry here there value = some there := by
  by_cases empty : value = 0 <;> simp [retry, empty]

theorem await_cases {P : Type} (here : P) (value state : Nat) (back : P) (found : Option P) :
    value = 0 ∧ await here value state back found = some here ∨
      value ≠ 0 ∧ value = state ∧ await here value state back found = found ∨
      value ≠ 0 ∧ value ≠ state ∧ await here value state back found = some back := by
  by_cases empty : value = 0
  · simp [await, empty]
  · by_cases same : value = state
    · exact .inr (.inl ⟨empty, same, by rw [await, if_neg empty, if_pos same]⟩)
    · exact .inr (.inr ⟨empty, same, by rw [await, if_neg empty, if_neg same]⟩)

/-- Only one task has to write a register. -/
theorem same_task_of_owes (sound : Custody.Sound (Places.debt debts w) w.shared.regs) {e : GroupReg}
    (here : w.proc (.task i) = ⟨some p, calls⟩) (mine : p.owes (spawnArgs N i) = some e)
    {j : Fin N} {q : TaskPoint GroupReg} (there : (w.proc (.task j)).point = some q)
    (theirs : q.owes (spawnArgs N j) = some e) : j = i := by
  have owed : Places.debt debts w (.task i) = some e := by
    rw [Places.debt, here]
    exact mine
  have owed' : Places.debt debts w (.task j) = some e := by
    rw [Places.debt, there]
    exact theirs
  exact Party.task.inj (sound.owner_unique owed owed')

section Quiet

theorem step_task {combine : Nat → Nat → Nat} (here : w.proc (.task i) = ⟨some p, calls⟩) :
    w.step (g.act combine) (.task i) =
      ⟨Function.update w.proc (.task i)
          ⟨p.next g.fifo ((p.op (spawnArgs N i)).answer w.shared), calls⟩,
        (exec combine (.task i) (p.op (spawnArgs N i)) w.shared).2⟩ :=
  Places.step_op here

theorem Meeting.quiet_step (m : Meeting g.rounds r leader w) (goal : Option (TaskPoint GroupReg))
    (here : w.proc (.task i) = ⟨some p, calls⟩)
    (goes : p.next g.fifo ((p.op (spawnArgs N i)).answer w.shared) = goal)
    (quiet : Quiet r.released (p.op (spawnArgs N i)))
    (member : Member (g.rounds i) r.released (r.arrived i) ⟨goal, calls⟩)
    (leads : leading ⟨goal, calls⟩ = leading ⟨some p, calls⟩)
    (reset : resetBy ⟨goal, calls⟩ = resetBy ⟨some p, calls⟩)
    (counting : ∀ go v, goal = some (.writeBarrier go v) → v = r.missing + 1) :
    Meeting g.rounds r leader (w.step (g.act overwrite) (.task i)) := by
  have moved := m.move member (here ▸ leads) (here ▸ reset) counting
  rw [step_task here, goes]
  exact moved.op quiet (.task i)

theorem Meeting.idle_step (m : Meeting g.rounds r leader w)
    (here : w.proc (.task i) = ⟨some p, calls⟩)
    (stays : p.next g.fifo ((p.op (spawnArgs N i)).answer w.shared) = some p)
    (quiet : Quiet r.released (p.op (spawnArgs N i))) :
    Meeting g.rounds r leader (w.step (g.act overwrite) (.task i)) :=
  m.quiet_step (some p) here stays quiet (here ▸ m.member i) rfl rfl fun go v found =>
    m.counting i go v (here ▸ found)

theorem Meeting.enter_step (m : Meeting g.rounds r leader w) {call : TaskCall}
    (here : w.proc (.task i) = ⟨none, call :: calls⟩)
    (member : Member (g.rounds i) r.released (r.arrived i)
      ⟨(taskChart (spawnArgs N i) g.fifo).enter call, calls⟩) :
    Meeting g.rounds r leader (w.step (g.act overwrite) (.task i)) := by
  rw [Places.step_enter here]
  apply m.move member
  · rw [here]
    cases call <;> rfl
  · rw [here]
    cases call <;> rfl
  · intro go v found
    cases call <;> cases found

end Quiet

theorem Meeting.step_outside (m : Meeting g.rounds r leader w)
    (here : w.proc (.task i) = ⟨none, calls⟩) :
    Meeting g.rounds r leader (w.step (g.act overwrite) (.task i)) := by
  have member := m.member i
  rw [here] at member
  cases member with
  | @idle left total same =>
    cases left with
    | zero => exact m.enter_step here (.exiting (by omega) same trivial)
    | succ left => exact m.enter_step here (.approaching total same trivial)
  | ended total same =>
    rw [Places.step_finished here]
    exact m

theorem Meeting.step_exiting (m : Meeting g.rounds r leader w)
    (here : w.proc (.task i) = ⟨some p, []⟩) (total : r.arrived i = g.rounds i)
    (same : r.arrived i = r.released) (shape : p.Exits) :
    Meeting g.rounds r leader (w.step (g.act overwrite) (.task i)) := by
  cases p with
  | lockExit =>
    rcases retry_cases TaskPoint.lockExit (.writeExit (w.shared.regs.value .eventA))
      (w.shared.regs.value .eventA) with ⟨_, goes⟩ | ⟨_, goes⟩
    · exact m.idle_step here goes trivial
    · exact m.quiet_step (some (.writeExit _)) here goes trivial (.exiting total same trivial) rfl rfl (by simp)
  | writeExit value => exact m.quiet_step none here rfl trivial (.ended total same) rfl rfl (by simp)
  | _ => exact absurd shape id

theorem Meeting.step_approaching (m : Meeting g.rounds r leader w) (fits : N + 1 < 2^32)
    (sound : Custody.Sound (Places.debt debts w) w.shared.regs) {left : Nat}
    (here : w.proc (.task i) = ⟨some p, List.replicate left .barrier ++ [.exit]⟩)
    (total : r.arrived i + (left + 1) = g.rounds i) (same : r.arrived i = r.released)
    (shape : p.Approaches r.released) :
    ∃ r' leader', Meeting g.rounds r' leader' (w.step (g.act overwrite) (.task i)) := by
  cases p with
  | reached =>
    exact ⟨r, leader, m.quiet_step (some .lockRelease) here rfl trivial
      (.approaching total same trivial) rfl rfl (by simp)⟩
  | lockRelease =>
    rcases retry_cases TaskPoint.lockRelease (.backRelease (w.shared.regs.value .eventR))
      (w.shared.regs.value .eventR) with ⟨_, goes⟩ | ⟨filled, goes⟩
    · exact ⟨r, leader, m.idle_step here goes trivial⟩
    · have found := m.release.resolve_left filled
      exact ⟨r, leader, m.quiet_step (some (.backRelease _)) here goes trivial
        (.approaching total same found) rfl rfl (by simp)⟩
  | backRelease old =>
    have go : toggle old = releaseValue (r.released + 1) := by
      rw [show old = releaseValue r.released from shape, toggle_releaseValue]
    exact ⟨r, leader, m.quiet_step (some (.lockBarrier (toggle old))) here rfl shape
      (.approaching total same go) rfl rfl (by simp)⟩
  | lockBarrier go =>
    rcases retry_cases (TaskPoint.lockBarrier go) (.writeBarrier go (w.shared.regs.value .eventB))
      (w.shared.regs.value .eventB) with ⟨_, goes⟩ | ⟨filled, goes⟩
    · exact ⟨r, leader, m.idle_step here goes trivial⟩
    · have found := (m.counter (m.absent_present same).2).resolve_left filled
      refine ⟨r, leader, m.quiet_step (some (.writeBarrier go _)) here goes trivial
        (.approaching total same shape) rfl rfl ?_⟩
      intro go' v writes
      cases writes
      exact found
  | writeBarrier go v =>
    obtain rfl : v = r.missing + 1 := m.counting i go v (by rw [here])
    have some := Rounds.missing_pos (r := r) (i := i) same
    have few := r.missing_le
    rw [Fintype.card_fin] at few
    have counted : decrement (r.missing + 1) = r.missing := by
      unfold decrement uint32
      omega
    have alone : ∀ j, j ≠ i → ∀ go v,
        (w.proc (.task j)).point ≠ Option.some (.writeBarrier go v) := by
      intro j other go v found
      exact other (same_task_of_owes sound here rfl found rfl)
    have go' : go = releaseValue (r.released + 1) := shape
    have goes : TaskPoint.next g.fifo (.writeBarrier go (r.missing + 1))
        (((TaskPoint.writeBarrier go (r.missing + 1)).op (spawnArgs N i)).answer w.shared) =
        if r.missing = 1 then Option.some (.allReached go) else Option.some (.waiting go) := by
      rw [TaskPoint.next, counted]
      by_cases last : r.missing = 1
      · rw [if_neg (by omega), if_pos last]
      · rw [if_pos (by omega), if_neg last]
    rw [step_task here, goes]
    refine ⟨_, _, m.arrive fits same ?_ ?_ ?_ ?_ alone⟩
    · split
      · exact .signalled (by omega) ⟨by rw [go']; rfl, rfl, .inl rfl⟩
      · exact .signalled (by omega) go'
    · by_cases last : r.missing = 1 <;> simp [last, leading, TaskPoint.leads]
    · by_cases last : r.missing = 1 <;> simp [last, resetBy, TaskPoint.afterReset]
    · intro go'' v
      by_cases last : r.missing = 1 <;> simp [last]
  | _ => exact absurd shape id

theorem releaseValue_arrived {released arrived : Nat} (low : released ≤ arrived)
    (high : arrived ≤ released + 1) (same : releaseValue released = releaseValue arrived) :
    arrived = released := by
  by_contra other
  have next : arrived = released + 1 := by omega
  rw [next] at same
  exact releaseValue_succ_ne released same.symm

theorem Meeting.step_waiting (m : Meeting g.rounds r leader w) {left : Nat}
    (here : w.proc (.task i) = ⟨some p, List.replicate left .barrier ++ [.exit]⟩)
    (total : r.arrived i + left = g.rounds i) (shape : p.Signalled r.released (r.arrived i))
    (follows : p.leads = none) :
    Meeting g.rounds r leader (w.step (g.act overwrite) (.task i)) := by
  cases p with
  | waiting go =>
    exact m.quiet_step (some (.awaitRelease go)) here rfl trivial (.signalled total shape) rfl rfl (by simp)
  | awaitRelease go =>
    rcases await_cases (TaskPoint.awaitRelease go) (w.shared.regs.value .eventR) go
      (.backAwait go (w.shared.regs.value .eventR)) none with ⟨_, goes⟩ | ⟨filled, same, goes⟩ | ⟨filled, other, goes⟩
    · exact m.idle_step here goes trivial
    · have found := m.release.resolve_left filled
      have go' : go = releaseValue (r.arrived i) := shape
      have released := releaseValue_arrived (r.released_le i) (r.arrived_le i)
        (found.symm.trans (same.trans go'))
      exact m.quiet_step none here goes trivial (.idle total released) rfl rfl (by simp)
    · have found := m.release.resolve_left filled
      exact m.quiet_step (some (.backAwait go _)) here goes trivial
        (.signalled total ⟨shape, found, other⟩) rfl rfl (by simp)
  | backAwait go value =>
    obtain ⟨go', found, other⟩ := shape
    have goes : TaskPoint.next g.fifo (.backAwait go value)
        (((TaskPoint.backAwait go value).op (spawnArgs N i)).answer w.shared) =
          some (.awaitRelease go) := if_neg other
    exact m.quiet_step (some (.awaitRelease go)) here goes found (.signalled total go') rfl rfl (by simp)
  | flipped => exact m.quiet_step none here rfl trivial (.idle total shape) rfl rfl (by simp)
  | reached | lockRelease | backRelease | lockBarrier | writeBarrier | lockExit | writeExit =>
    exact absurd shape.1 (by simp [TaskPoint.leads])
  | _ => cases follows

theorem fifo_quiet {e : GroupReg} (own : some e = none ∨ some e = some GroupReg.fifo)
    (released value : Nat) : Quiet released (.writeSynchronization e value) := by
  rcases own with none | same
  · cases none
  · cases same
    trivial

theorem Meeting.step_leading (m : Meeting g.rounds r leader w) {left go : Nat}
    {q : TaskPoint GroupReg}
    (here : w.proc (.task i) = ⟨some p, List.replicate left .barrier ++ [.exit]⟩)
    (total : r.arrived i + left = g.rounds i)
    (arrived : r.arrived i = r.released + 1) (go' : go = releaseValue (r.arrived i))
    (leads : p.leads = some go)
    (goes : p.next g.fifo ((p.op (spawnArgs N i)).answer w.shared) = some q)
    (quiet : Quiet r.released (p.op (spawnArgs N i))) (leads' : q.leads = some go)
    (reset : q.afterReset = p.afterReset) (fifo : q.fifoOf = none ∨ q.fifoOf = some .fifo) :
    Meeting g.rounds r leader (w.step (g.act overwrite) (.task i)) := by
  have shape : q.Signalled r.released (r.arrived i) := by
    have branch : q.leads = some (releaseValue (r.arrived i)) ∧ r.arrived i = r.released + 1 ∧
        (q.fifoOf = none ∨ q.fifoOf = some .fifo) := ⟨go' ▸ leads', arrived, fifo⟩
    cases q with
    | waiting | awaitRelease | backAwait | flipped => cases leads'
    | _ => exact branch
  apply m.quiet_step (some q) here goes quiet (.signalled total shape)
  · simp [leading, leads, leads']
  · simp [resetBy, reset]
  · rintro _ _ ⟨⟩
    cases leads'

theorem Meeting.step_last (m : Meeting g.rounds r leader w) (fits : N + 1 < 2^32)
    (sound : Custody.Sound (Places.debt debts w) w.shared.regs) {left go : Nat}
    (here : w.proc (.task i) = ⟨some p, List.replicate left .barrier ++ [.exit]⟩)
    (total : r.arrived i + left = g.rounds i)
    (arrived : r.arrived i = r.released + 1) (go' : go = releaseValue (r.arrived i))
    (leads : p.leads = some go) (fifo : p.fifoOf = none ∨ p.fifoOf = some .fifo) :
    ∃ r' leader', Meeting g.rounds r' leader' (w.step (g.act overwrite) (.task i)) := by
  have stays : ∀ q, p.next g.fifo ((p.op (spawnArgs N i)).answer w.shared) = some q →
      Quiet r.released (p.op (spawnArgs N i)) → q.leads = some go → q.afterReset = p.afterReset →
      (q.fifoOf = none ∨ q.fifoOf = some .fifo) →
      ∃ r' leader', Meeting g.rounds r' leader' (w.step (g.act overwrite) (.task i)) :=
    fun q goes quiet leads' reset fifo' =>
      ⟨r, leader, m.step_leading here total arrived go' leads goes quiet leads' reset fifo'⟩
  cases p with
  | allReached go =>
    rcases uses : g.usesFifo with _ | _
    · exact stays (.fifoComplete go) (by simp [TaskPoint.next, Group.fifo, uses]) trivial leads rfl (.inl rfl)
    · exact stays (.fifoAcquiring .fifo go) (by simp [TaskPoint.next, Group.fifo, uses]) trivial leads rfl (.inr rfl)
  | fifoAcquiring f go => exact stays (.fifoLock f go) rfl trivial leads rfl fifo
  | fifoLock f go =>
    rcases retry_cases (TaskPoint.fifoLock f go) (.fifoLocked f go (w.shared.regs.value f))
      (w.shared.regs.value f) with ⟨_, goes⟩ | ⟨_, goes⟩
    · exact stays _ goes trivial leads rfl fifo
    · exact stays _ goes trivial leads rfl fifo
  | fifoLocked f go value =>
    by_cases ready : value = MangoEventStatus.READ.value
    · exact stays (.fifoEnd f go) (if_pos ready) trivial leads rfl fifo
    · exact stays (.fifoRequest f go) (if_neg ready) trivial leads rfl fifo
  | fifoRequest f go => exact stays (.fifoRequested f go) rfl (fifo_quiet fifo _ _) leads rfl fifo
  | fifoRequested f go => exact stays (.fifoAwait f go) rfl trivial leads rfl fifo
  | fifoAwait f go =>
    rcases await_cases (TaskPoint.fifoAwait f go) (w.shared.regs.value f) MangoEventStatus.READ.value
      (.fifoBack f go (w.shared.regs.value f)) (some (.fifoRelock f go))
      with ⟨_, goes⟩ | ⟨_, _, goes⟩ | ⟨_, _, goes⟩
    · exact stays _ goes trivial leads rfl fifo
    · exact stays _ goes trivial leads rfl fifo
    · exact stays _ goes trivial leads rfl fifo
  | fifoBack f go value =>
    by_cases ready : value = MangoEventStatus.READ.value
    · exact stays (.fifoRelock f go) (if_pos ready) (fifo_quiet fifo _ _) leads rfl fifo
    · exact stays (.fifoAwait f go) (if_neg ready) (fifo_quiet fifo _ _) leads rfl fifo
  | fifoRelock f go =>
    rcases retry_cases (TaskPoint.fifoRelock f go) (.fifoEnd f go)
      (w.shared.regs.value f) with ⟨_, goes⟩ | ⟨_, goes⟩
    · exact stays _ goes trivial leads rfl fifo
    · exact stays _ goes trivial leads rfl fifo
  | fifoEnd f go => exact stays (.fifoComplete go) rfl (fifo_quiet fifo _ _) leads rfl (.inl rfl)
  | fifoComplete go => exact stays (.lockReset go) rfl trivial leads rfl (.inl rfl)
  | lockReset go =>
    rcases retry_cases (TaskPoint.lockReset go) (.writeReset go) (w.shared.regs.value .eventB)
      with ⟨_, goes⟩ | ⟨_, goes⟩
    · exact stays _ goes trivial leads rfl (.inl rfl)
    · exact stays _ goes trivial leads rfl (.inl rfl)
  | writeReset go =>
    cases leads
    have first : leader = some i := (m.leads i).mp (by rw [here]; rfl)
    rw [step_task here]
    exact ⟨r, leader, m.reset fits first (.signalled total ⟨congrArg some go', arrived, .inl rfl⟩)⟩
  | resetDone go => exact stays (.lockFlip go) rfl trivial leads rfl (.inl rfl)
  | lockFlip go =>
    rcases retry_cases (TaskPoint.lockFlip go) (.writeFlip go) (w.shared.regs.value .eventR)
      with ⟨_, goes⟩ | ⟨_, goes⟩
    · exact stays _ goes trivial leads rfl (.inl rfl)
    · exact stays _ goes trivial leads rfl (.inl rfl)
  | writeFlip go =>
    cases leads
    have first : leader = some i := (m.leads i).mp (by rw [here]; rfl)
    have all := Rounds.missing_eq_zero.mp (m.complete (by rw [first]; simp))
    have alone : ∀ j, j ≠ i → ∀ go v, (w.proc (.task j)).point ≠ some (.backAwait go v) := by
      intro j other go v found
      exact other (same_task_of_owes sound here rfl found rfl)
    rw [arrived] at go'
    rw [step_task here]
    subst go'
    exact ⟨_, none, m.flip first (by rw [here]; rfl) all (.signalled total arrived) alone⟩
  | _ => cases leads

theorem Meeting.step_task (m : Meeting g.rounds r leader w) (fits : N + 1 < 2^32)
    (sound : Custody.Sound (Places.debt debts w) w.shared.regs) (i : Fin N) :
    ∃ r' leader', Meeting g.rounds r' leader' (w.step (g.act overwrite) (.task i)) := by
  rcases here : w.proc (.task i) with ⟨_ | p, calls⟩
  · exact ⟨r, leader, m.step_outside here⟩
  · have member := m.member i
    rw [here] at member
    cases member with
    | approaching total same shape => exact m.step_approaching fits sound here total same shape
    | signalled total shape =>
      rcases branch : p.leads with _ | go
      · exact ⟨r, leader, m.step_waiting here total shape branch⟩
      · have last : p.leads = some (releaseValue (r.arrived i)) ∧ r.arrived i = r.released + 1 ∧
            (p.fifoOf = none ∨ p.fifoOf = some .fifo) := by
          cases p with
          | waiting | awaitRelease | backAwait | flipped => cases branch
          | _ => exact shape
        obtain ⟨leads, arrived, fifo⟩ := last
        exact m.step_last fits sound here total arrived rfl leads fifo
    | exiting total same shape => exact ⟨r, leader, m.step_exiting here total same shape⟩

theorem quiet_other {j : Party N} (other : ∀ i, j ≠ .task i) (n : Nat) (p : PartyPoint j) :
    Quiet n ((g.charts j).op p) := by
  cases j with
  | task i => exact absurd rfl (other i)
  | spawner => cases p <;> trivial
  | host => cases p <;> trivial
  | waiter => cases p <;> trivial

theorem Meeting.step_other (m : Meeting g.rounds r leader w) {j : Party N}
    (other : ∀ i, j ≠ .task i) : Meeting g.rounds r leader (w.step (g.act overwrite) j) := by
  have still : ∀ l, Meeting g.rounds r leader ⟨Function.update w.proc j l, w.shared⟩ := by
    intro l
    have same : ∀ i, Function.update w.proc j l (.task i) = w.proc (.task i) := fun i =>
      Function.update_of_ne (Ne.symm (other i)) _ _
    exact {
      member := fun i => by simp only [same]; exact m.member i
      leads := fun i => by simp only [same]; exact m.leads i
      complete := m.complete
      counting := fun i => by simp only [same]; exact m.counting i
      counter := fun none => m.counter fun i => by simpa only [same] using none i
      counterReset := fun i reset => m.counterReset i (by simpa only [same] using reset)
      release := m.release
      released := m.released }
  rcases here : w.proc j with ⟨_ | p, _ | ⟨first, rest⟩⟩
  · rw [Places.step_finished here]
    exact m
  · rw [Places.step_enter here]
    exact still _
  · rw [Places.step_op here]
    exact (still _).op (quiet_other other _ p) j
  · rw [Places.step_op here]
    exact (still _).op (quiet_other other _ p) j

theorem Meeting.step (m : Meeting g.rounds r leader w) (fits : N + 1 < 2^32)
    (sound : Custody.Sound (Places.debt debts w) w.shared.regs) (j : Party N) :
    ∃ r' leader', Meeting g.rounds r' leader' (w.step (g.act overwrite) j) := by
  cases j with
  | task i => exact m.step_task fits sound i
  | spawner => exact ⟨r, leader, m.step_other (by simp)⟩
  | host => exact ⟨r, leader, m.step_other (by simp)⟩
  | waiter => exact ⟨r, leader, m.step_other (by simp)⟩

theorem meeting_start (g : Group N) (fits : N + 1 < 2^32) :
    Meeting g.rounds Rounds.start none g.places where
  member i := .idle (Nat.zero_add _) rfl
  leads i := by simp [Group.places, leading]
  complete some := absurd rfl some
  counting i go v here := by cases here
  counter _ := by
    apply Or.inr
    rw [Rounds.missing_start, Fintype.card_fin]
    exact uint32_of_lt fits
  counterReset i reset := by cases reset
  release := .inr rfl
  released := rfl

theorem meeting_reachable (fits : N + 1 < 2^32)
    (reach : World.Reachable (g.act overwrite) g.places w) :
    ∃ r leader, Meeting g.rounds r leader w := by
  refine reach.invariant (motive := fun w => ∃ r leader, Meeting g.rounds r leader w)
    (fun w j reach kept => ?_) ⟨_, _, meeting_start g fits⟩
  obtain ⟨r, leader, m⟩ := kept
  exact m.step fits (g.sound reach) j

end MangoModel
