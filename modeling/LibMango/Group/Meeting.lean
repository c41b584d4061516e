import LibMango.Group.Discipline
import LibMango.Interleave.Rounds

namespace MangoModel

open Interleave Device

section Release

def releaseValue (released : Nat) : Nat := if released % 2 = 0 then 2 else 1

theorem toggle_releaseValue (n : Nat) : toggle (releaseValue n) = releaseValue (n + 1) := by
  rcases Nat.mod_two_eq_zero_or_one n with even | odd
  · simp [releaseValue, toggle, even, Nat.add_mod]
  · simp [releaseValue, toggle, odd, Nat.add_mod]

theorem releaseValue_ne_zero (n : Nat) : releaseValue n ≠ 0 := by
  unfold releaseValue
  split <;> decide

theorem releaseValue_lt (n : Nat) : releaseValue n < 2^32 := by
  unfold releaseValue
  split <;> decide

theorem releaseValue_succ_ne (n : Nat) : releaseValue (n + 1) ≠ releaseValue n := by
  rcases Nat.mod_two_eq_zero_or_one n with even | odd
  · simp [releaseValue, even, Nat.add_mod]
  · simp [releaseValue, odd, Nat.add_mod]

/-- How often the value that is written to the release register has changed, and the value
    it had last. -/
def releases {ι : Type} : List (ι × Op GroupReg) → Nat × Nat
  | [] => (0, 2)
  | (_, .writeSynchronization .eventR value) :: rest =>
    if value = (releases rest).2 then releases rest else ((releases rest).1 + 1, value)
  | _ :: rest => releases rest

theorem releases_other {ι : Type} {i : ι} {a : Op GroupReg} (other : a.written ≠ some .eventR)
    (rest : List (ι × Op GroupReg)) : releases ((i, a) :: rest) = releases rest := by
  cases a with
  | writeSynchronization e v =>
    cases e with
    | eventR => exact absurd rfl other
    | _ => rfl
  | _ => rfl

theorem releases_again {ι : Type} {i : ι} {rest : List (ι × Op GroupReg)} {n v : Nat}
    (last : releases rest = (n, v)) :
    releases ((i, .writeSynchronization .eventR v) :: rest) = (n, v) := by
  simp [releases, last]

theorem releases_next {ι : Type} {i : ι} {rest : List (ι × Op GroupReg)} {n v w : Nat}
    (last : releases rest = (n, v)) (other : w ≠ v) :
    releases ((i, .writeSynchronization .eventR w) :: rest) = (n + 1, w) := by
  simp [releases, last, other]

end Release

namespace Device.TaskPoint

variable {ρ : Type}

/-- The value the last task to arrive is going to write to the release register, at the points
    of the branch it takes. -/
def leads : TaskPoint ρ → Option Nat
  | .allReached go | .fifoAcquiring _ go | .fifoLock _ go | .fifoLocked _ go _
  | .fifoRequest _ go | .fifoRequested _ go | .fifoAwait _ go | .fifoBack _ go _
  | .fifoRelock _ go | .fifoEnd _ go | .fifoComplete go | .lockReset go | .writeReset go
  | .resetDone go | .lockFlip go | .writeFlip go => some go
  | _ => none

def afterReset : TaskPoint ρ → Bool
  | .resetDone _ | .lockFlip _ | .writeFlip _ => true
  | _ => false

def fifoOf : TaskPoint ρ → Option ρ
  | .fifoAcquiring fifo _ | .fifoLock fifo _ | .fifoLocked fifo _ _ | .fifoRequest fifo _
  | .fifoRequested fifo _ | .fifoAwait fifo _ | .fifoBack fifo _ _ | .fifoRelock fifo _
  | .fifoEnd fifo _ => some fifo
  | _ => none

def Approaches (released : Nat) : TaskPoint ρ → Prop
  | .reached | .lockRelease => True
  | .backRelease old => old = releaseValue released
  | .lockBarrier go | .writeBarrier go _ => go = releaseValue (released + 1)
  | _ => False

def Signalled (released arrived : Nat) : TaskPoint GroupReg → Prop
  | .waiting go | .awaitRelease go => go = releaseValue arrived
  | .backAwait go value => go = releaseValue arrived ∧ value = releaseValue released ∧ value ≠ go
  | .flipped => arrived = released
  | p => p.leads = some (releaseValue arrived) ∧ arrived = released + 1 ∧
      (p.fifoOf = none ∨ p.fifoOf = some .fifo)

def Exits : TaskPoint ρ → Prop
  | .lockExit | .writeExit _ => True
  | _ => False

end Device.TaskPoint

section Member

/-- Where a task may stand that has arrived at so many of its barriers, when so many have
    been released. -/
inductive Member (rounds released arrived : Nat) : Place (TaskPoint GroupReg) TaskCall → Prop
  | idle {left : Nat} (total : arrived + left = rounds) (same : arrived = released) :
      Member rounds released arrived ⟨none, List.replicate left .barrier ++ [.exit]⟩
  | approaching {p : TaskPoint GroupReg} {left : Nat} (total : arrived + (left + 1) = rounds)
      (same : arrived = released) (shape : p.Approaches released) :
      Member rounds released arrived ⟨some p, List.replicate left .barrier ++ [.exit]⟩
  | signalled {p : TaskPoint GroupReg} {left : Nat} (total : arrived + left = rounds)
      (shape : p.Signalled released arrived) :
      Member rounds released arrived ⟨some p, List.replicate left .barrier ++ [.exit]⟩
  | exiting {p : TaskPoint GroupReg} (total : arrived = rounds) (same : arrived = released)
      (shape : p.Exits) : Member rounds released arrived ⟨some p, []⟩
  | ended (total : arrived = rounds) (same : arrived = released) :
      Member rounds released arrived ⟨none, []⟩

def leading (l : Place (TaskPoint GroupReg) TaskCall) : Bool := (l.point.bind TaskPoint.leads).isSome

def resetBy (l : Place (TaskPoint GroupReg) TaskCall) : Bool := l.point.any TaskPoint.afterReset

theorem resetBy_leading {l : Place (TaskPoint GroupReg) TaskCall} (reset : resetBy l = true) :
    leading l = true := by
  rcases l with ⟨_ | p, calls⟩
  · cases reset
  · cases p <;> first | rfl | cases reset

variable {rounds released arrived : Nat} {l : Place (TaskPoint GroupReg) TaskCall}

theorem Member.shape {p : TaskPoint GroupReg} {calls : List TaskCall}
    (member : Member rounds released arrived ⟨some p, calls⟩) :
    p.Approaches released ∧ arrived = released ∨ p.Signalled released arrived ∨ p.Exits := by
  cases member with
  | approaching total same shape => exact .inl ⟨shape, same⟩
  | signalled total shape => exact .inr (.inl shape)
  | exiting total same shape => exact .inr (.inr shape)

theorem Member.fifo_own {p : TaskPoint GroupReg} {calls : List TaskCall}
    (member : Member rounds released arrived ⟨some p, calls⟩) :
    p.fifoOf = none ∨ p.fifoOf = some .fifo := by
  cases member with
  | approaching total same shape => cases p <;> first | exact .inl rfl | exact absurd shape id
  | signalled total shape =>
    cases p with
    | waiting | awaitRelease | backAwait | flipped => exact .inl rfl
    | _ => exact shape.2.2
  | exiting total same shape => cases p <;> first | exact .inl rfl | exact absurd shape id

theorem Member.same_of_counting (member : Member rounds released arrived l) {go v : Nat}
    (here : l.point = some (.writeBarrier go v)) : arrived = released := by
  cases member with
  | idle total same => cases here
  | approaching total same shape => exact same
  | signalled total shape =>
    cases here
    cases shape.1
  | exiting total same shape =>
    cases here
    cases shape
  | ended total same => cases here

theorem Member.release (member : Member rounds released (released + 1) l)
    (follows : leading l = false)
    (free : ∀ go value, l.point ≠ some (.backAwait go value)) :
    Member rounds (released + 1) (released + 1) l := by
  cases member with
  | idle total same => omega
  | approaching total same shape => omega
  | exiting total same shape => omega
  | ended total same => omega
  | @signalled p left total shape =>
    refine .signalled total ?_
    cases p with
    | waiting go => exact shape
    | awaitRelease go => exact shape
    | backAwait go value => exact absurd rfl (free go value)
    | flipped => rfl
    | reached | lockRelease | backRelease | lockBarrier | writeBarrier | lockExit | writeExit =>
      cases shape.1
    | _ => cases follows

end Member

section Meeting

variable {N : Nat}

/-- The invariant of the barrier: the tasks, the counter and the release register agree about
    the rounds of the group and about the task that completes the current one. -/
structure Meeting (rounds : Fin N → Nat) (r : Rounds (Fin N)) (leader : Option (Fin N))
    (w : GroupPlaces N) : Prop where
  member : ∀ i, Member (rounds i) r.released (r.arrived i) (w.proc (.task i))
  leads : ∀ i, leading (w.proc (.task i)) = true ↔ leader = some i
  complete : leader ≠ none → r.missing = 0
  counting : ∀ i go v, (w.proc (.task i)).point = some (.writeBarrier go v) → v = r.missing + 1
  counter : (∀ i, resetBy (w.proc (.task i)) = false) →
    w.shared.regs.value .eventB = 0 ∨ w.shared.regs.value .eventB = r.missing + 1
  counterReset : ∀ i, resetBy (w.proc (.task i)) = true →
    w.shared.regs.value .eventB = 0 ∨ w.shared.regs.value .eventB = N + 1
  release : w.shared.regs.value .eventR = 0 ∨
    w.shared.regs.value .eventR = releaseValue r.released
  released : releases w.shared.trace = (r.released, releaseValue r.released)

/-- An operation that leaves the counter and the release value as they are. -/
def Quiet (released : Nat) : Op GroupReg → Prop
  | .writeSynchronization .eventB _ => False
  | .writeSynchronization .eventR v => v = releaseValue released
  | _ => True

variable {rounds : Fin N → Nat} {r : Rounds (Fin N)} {leader : Option (Fin N)} {w : GroupPlaces N}

theorem Quiet.value {a : Op GroupReg} {n : Nat} (quiet : Quiet n a) (i : Party N)
    {s : Shared (Party N) GroupReg} :
    ((exec overwrite i a s).2.regs.value .eventB = 0 ∨
        (exec overwrite i a s).2.regs.value .eventB = s.regs.value .eventB) ∧
      ((exec overwrite i a s).2.regs.value .eventR = 0 ∨
        (exec overwrite i a s).2.regs.value .eventR = s.regs.value .eventR ∨
        (exec overwrite i a s).2.regs.value .eventR = releaseValue n) := by
  cases a with
  | readSynchronization e =>
    simp only [exec_regs, Op.access, Custody.apply]
    cases e <;> simp [Custody.take]
  | writeSynchronization e v =>
    simp only [exec_regs, Op.access, Custody.apply]
    cases e with
    | eventB => exact absurd quiet id
    | eventR =>
      obtain rfl : v = releaseValue n := quiet
      simp [Custody.put, overwrite, uint32_of_lt (releaseValue_lt n)]
    | eventA => simp [Custody.put]
    | fifo => simp [Custody.put]
  | _ => simp [Op.access, Custody.apply]

theorem Quiet.releases {a : Op GroupReg} {n : Nat} (quiet : Quiet n a) (i : Party N)
    {trace : List (Party N × Op GroupReg)} (last : releases trace = (n, releaseValue n)) :
    MangoModel.releases ((i, a) :: trace) = (n, releaseValue n) := by
  cases a with
  | writeSynchronization e v =>
    cases e with
    | eventR =>
      obtain rfl : v = releaseValue n := quiet
      exact releases_again last
    | _ => exact last
  | _ => exact last

theorem Meeting.op (m : Meeting rounds r leader w) {a : Op GroupReg}
    (quiet : Quiet r.released a) (i : Party N) :
    Meeting rounds r leader ⟨w.proc, (exec overwrite i a w.shared).2⟩ := by
  obtain ⟨counter, release⟩ := quiet.value i (s := w.shared)
  refine { m with
    counter := fun none => ?_
    counterReset := fun j reset => ?_
    release := ?_
    released := quiet.releases i m.released }
  · rcases counter with empty | same
    · exact .inl empty
    · exact same ▸ m.counter none
  · rcases counter with empty | same
    · exact .inl empty
    · exact same ▸ m.counterReset j reset
  · rcases release with empty | same | written
    · exact .inl empty
    · exact same ▸ m.release
    · exact .inr written

theorem update_task (w : GroupPlaces N) (i : Fin N) (l : Place (TaskPoint GroupReg) TaskCall)
    (j : Fin N) : Function.update w.proc (.task i) l (.task j) =
      if j = i then l else w.proc (.task j) := by
  by_cases same : j = i
  · subst same; simp
  · simp [same]

theorem Meeting.move (m : Meeting rounds r leader w) {i : Fin N}
    {l : Place (TaskPoint GroupReg) TaskCall}
    (member : Member (rounds i) r.released (r.arrived i) l)
    (leads : leading l = leading (w.proc (.task i)))
    (reset : resetBy l = resetBy (w.proc (.task i)))
    (counting : ∀ go v, l.point = some (.writeBarrier go v) → v = r.missing + 1) :
    Meeting rounds r leader ⟨Function.update w.proc (.task i) l, w.shared⟩ := by
  have place := update_task w i l
  have resets : ∀ j, resetBy (Function.update w.proc (.task i) l (.task j)) =
      resetBy (w.proc (.task j)) := by
    intro j
    rw [place]
    split
    · next same => rw [same, reset]
    · rfl
  exact {
    member := fun j => by
      simp only [place]
      split
      · next same => subst same; exact member
      · exact m.member j
    leads := fun j => by
      simp only [place]
      split
      · next same => subst same; rw [leads]; exact m.leads j
      · exact m.leads j
    complete := m.complete
    counting := fun j go v => by
      simp only [place]
      split
      · exact counting go v
      · exact m.counting j go v
    counter := fun none => m.counter fun j => (resets j).symm.trans (none j)
    counterReset := fun j reset => m.counterReset j ((resets j).symm.trans reset)
    release := m.release
    released := m.released }

theorem Meeting.absent_present (m : Meeting rounds r leader w) {i : Fin N} (absent : r.Absent i) :
    leader = none ∧ ∀ j, resetBy (w.proc (.task j)) = false := by
  have some := Rounds.missing_pos absent
  have none : leader = none := by
    by_contra other
    have complete := m.complete other
    omega
  refine ⟨none, fun j => ?_⟩
  by_contra reset
  have leads := (m.leads j).mp (resetBy_leading (Bool.eq_true_of_not_eq_false reset))
  rw [none] at leads
  cases leads

theorem Meeting.arrive (m : Meeting rounds r leader w) (fits : N + 1 < 2^32) {i : Fin N}
    (absent : r.Absent i) {l : Place (TaskPoint GroupReg) TaskCall}
    (member : Member (rounds i) r.released (r.released + 1) l)
    (leads : leading l = decide (r.missing = 1)) (reset : resetBy l = false)
    (past : ∀ go v, l.point ≠ some (.writeBarrier go v))
    (alone : ∀ j, j ≠ i → ∀ go v, (w.proc (.task j)).point ≠ some (.writeBarrier go v)) :
    Meeting rounds (r.arrive i) (if r.missing = 1 then some i else none)
      ⟨Function.update w.proc (.task i) l, (exec overwrite (.task i)
        (.writeSynchronization .eventB (decrement (r.missing + 1))) w.shared).2⟩ := by
  obtain ⟨none, resets⟩ := m.absent_present absent
  have place := update_task w i l
  have left := Rounds.missing_arrive absent
  have few := r.missing_le
  rw [Fintype.card_fin] at few
  have counted : decrement (r.missing + 1) = r.missing := by
    unfold decrement uint32
    omega
  exact {
    member := fun j => by
      simp only [place]
      split
      · next same => subst same; simpa using member
      · next other =>
        rw [Rounds.arrive_arrived_other r other]
        exact m.member j
    leads := fun j => by
      simp only [place]
      split
      · next same =>
        subst same
        rw [leads]
        by_cases last : r.missing = 1 <;> simp [last]
      · next other =>
        have follows := m.leads j
        rw [none] at follows
        rw [follows]
        split
        · simpa using Ne.symm other
        · rfl
    complete := fun some => by
      by_cases last : r.missing = 1
      · omega
      · exact absurd (if_neg last) some
    counting := fun j go v => by
      simp only [place]
      split
      · exact fun here => absurd here (past go v)
      · next other => exact fun here => absurd here (alone j other go v)
    counter := fun _ => by
      apply Or.inr
      rw [counted]
      simp only [exec_regs, Op.access, Custody.apply, Custody.put_value_self, overwrite]
      rw [uint32_of_lt (by omega)]
      omega
    counterReset := fun j found => by
      simp only [place] at found
      split at found
      · rw [reset] at found; cases found
      · rw [resets j] at found; cases found
    release := by simpa [Op.access, Custody.apply, Custody.put] using m.release
    released := m.released }

theorem Meeting.reset (m : Meeting rounds r leader w) (fits : N + 1 < 2^32) {i : Fin N}
    (leads : leader = some i) {go : Nat} {calls : List TaskCall}
    (member : Member (rounds i) r.released (r.arrived i) ⟨some (.resetDone go), calls⟩) :
    Meeting rounds r leader
      ⟨Function.update w.proc (.task i) ⟨some (.resetDone go), calls⟩,
        (exec overwrite (.task i)
          (.writeSynchronization .eventB (uint32 (N + 1))) w.shared).2⟩ := by
  have place := update_task w i ⟨some (.resetDone go), calls⟩
  exact {
    member := fun j => by
      simp only [place]
      split
      · next same => subst same; exact member
      · exact m.member j
    leads := fun j => by
      simp only [place]
      split
      · next same => subst same; simp [leads, leading, TaskPoint.leads]
      · exact m.leads j
    complete := m.complete
    counting := fun j go' v => by
      simp only [place]
      split
      · exact fun here => by cases here
      · exact m.counting j go' v
    counter := fun none => by
      have found := none i
      simp [resetBy, TaskPoint.afterReset] at found
    counterReset := fun _ _ => by
      apply Or.inr
      simp only [exec_regs, Op.access, Custody.apply, Custody.put_value_self, overwrite]
      rw [uint32_of_lt fits, uint32_of_lt fits]
    release := by simpa [Op.access, Custody.apply, Custody.put] using m.release
    released := m.released }

theorem Meeting.flip (m : Meeting rounds r leader w) {i : Fin N} (leads : leader = some i)
    (reset : resetBy (w.proc (.task i)) = true) (all : ∀ j, ¬ r.Absent j) {calls : List TaskCall}
    (member : Member (rounds i) (r.released + 1) (r.arrived i) ⟨some .flipped, calls⟩)
    (alone : ∀ j, j ≠ i → ∀ go v, (w.proc (.task j)).point ≠ some (.backAwait go v)) :
    Meeting rounds (r.release all) none
      ⟨Function.update w.proc (.task i) ⟨some .flipped, calls⟩,
        (exec overwrite (.task i)
          (.writeSynchronization .eventR (releaseValue (r.released + 1))) w.shared).2⟩ := by
  have place := update_task w i ⟨some .flipped, calls⟩
  have follows : ∀ j, j ≠ i → leading (w.proc (.task j)) = false := by
    intro j other
    by_contra found
    have same := (m.leads j).mp (Bool.eq_true_of_not_eq_false found)
    rw [leads] at same
    exact other (Option.some.inj same).symm
  have members : ∀ j, j ≠ i → Member (rounds j) (r.released + 1) (r.arrived j) (w.proc (.task j)) := by
    intro j other
    have old := m.member j
    rw [Rounds.arrived_of_not_absent (all j)] at old ⊢
    exact old.release (follows j other) (alone j other)
  exact {
    member := fun j => by
      simp only [place]
      split
      · next same => subst same; exact member
      · next other => exact members j other
    leads := fun j => by
      simp only [place]
      split
      · simp [leading, TaskPoint.leads]
      · next other => simp [follows j other]
    complete := fun some => absurd rfl some
    counting := fun j go v => by
      simp only [place]
      split
      · exact fun here => by cases here
      · next other =>
        exact fun here => absurd ((m.member j).same_of_counting here) (all j)
    counter := fun _ => by
      rw [Rounds.missing_release all, Fintype.card_fin]
      have value := m.counterReset i reset
      simpa [Op.access, Custody.apply, Custody.put] using value
    counterReset := fun j found => by
      simp only [place] at found
      split at found
      · cases found
      · next other =>
        have leads' := resetBy_leading found
        rw [follows j other] at leads'
        cases leads'
    release := by
      apply Or.inr
      simp only [exec_regs, Op.access, Custody.apply, Custody.put_value_self, overwrite]
      exact uint32_of_lt (releaseValue_lt _)
    released := releases_next m.released (releaseValue_succ_ne _) }

end Meeting

end MangoModel
