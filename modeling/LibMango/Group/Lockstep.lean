import LibMango.Group.Fifo
import LibMango.Group.Kernel

namespace MangoModel

open Interleave Device

variable {N : Nat} {kernel : GroupKernel N} {i : Fin N} {k left : Nat}

abbrev KernelPlace : Type := Place (TaskPoint GroupReg ⊕ Work.Running MemoryOp Nat) (TaskCall ⊕ Work MemoryOp Nat)

/-- Where a task may stand when so many barriers have been released and `q` is left of the work that comes
    next: it has it before it, is at it, has done it, or is on its way into or out of a barrier. -/
inductive Course (kernel : GroupKernel N) (i : Fin N) (k : Nat) : Prog MemoryOp Nat → KernelPlace → Prop
  | fresh {left : Nat} (total : k + left = kernel.barriers) :
      Course kernel i k (kernel.work i k).text ⟨none, kernel.taskCalls i k left⟩
  | working {left : Nat} (total : k + left = kernel.barriers) (q : Work.Running MemoryOp Nat) :
      Course kernel i k q.text ⟨some (.inr q), (kernel.taskCalls i k left).tail⟩
  | done {left : Nat} (total : k + left = kernel.barriers) :
      Course kernel i k (.ret 0) ⟨none, (kernel.taskCalls i k left).tail⟩
  | arriving {left : Nat} (total : k + (left + 1) = kernel.barriers) (p : TaskPoint GroupReg) :
      Course kernel i k (.ret 0) ⟨some (.inl p), kernel.taskCalls i (k + 1) left⟩
  | waking {left : Nat} (later : 0 < k) (total : k + left = kernel.barriers) (p : TaskPoint GroupReg) :
      Course kernel i k (kernel.work i k).text ⟨some (.inl p), kernel.taskCalls i k left⟩
  | exiting (total : k = kernel.barriers) (p : TaskPoint GroupReg) :
      Course kernel i k (.ret 0) ⟨some (.inl p), []⟩
  | ended (total : k = kernel.barriers) : Course kernel i k (.ret 0) ⟨none, []⟩

theorem Course.le {q : Prog MemoryOp Nat} {l : KernelPlace} (course : Course kernel i k q l) :
    k ≤ kernel.barriers := by
  cases course <;> omega

theorem taskCalls_cons (kernel : GroupKernel N) (i : Fin N) (k left : Nat) :
    kernel.taskCalls i k left = .inr (kernel.work i k) :: (kernel.taskCalls i k left).tail := by
  cases left <;> rfl

/-- At its work, or past it if nothing of it is left. -/
theorem Course.resume (total : k + left = kernel.barriers) (q : Work MemoryOp Nat) :
    Course kernel i k q.text ⟨q.running.map .inr, (kernel.taskCalls i k left).tail⟩ := by
  have text := q.running_text
  rcases now : q.running with _ | running
  · rw [now] at text
    rw [← text]
    exact .done total
  · rw [now] at text
    rw [← text]
    exact .working total running

theorem replicate_left {a b : Nat}
    (same : List.replicate a TaskCall.barrier ++ [.exit] = List.replicate b .barrier ++ [.exit]) : a = b := by
  have lengths := congrArg List.length same
  simpa using lengths

theorem taskCalls_tail_first (kernel : GroupKernel N) (i : Fin N) (k left : Nat) :
    (kernel.taskCalls i k left).tail.filterMap Sum.getLeft? = List.replicate left .barrier ++ [.exit] := by
  rw [← kernel.taskCalls_first i k left, taskCalls_cons kernel i k left]
  rfl

theorem Member.unreleased {rounds : Nat} {l : Place (TaskPoint GroupReg) TaskCall}
    (member : Member rounds k (k + 1) l) :
    ∃ p left, l = ⟨some p, List.replicate left .barrier ++ [.exit]⟩ ∧ k + 1 + left = rounds := by
  cases member with
  | idle total same => omega
  | approaching total same shape => omega
  | signalled total shape => exact ⟨_, _, rfl, total⟩
  | exiting total same shape => omega
  | ended total same => omega

/-- A task that has arrived and has not been released has done its work. -/
theorem Course.arrived {q : Prog MemoryOp Nat} {l : KernelPlace} (course : Course kernel i k q l)
    (member : Member kernel.barriers k (k + 1) l.first) :
    q = .ret 0 ∧ ∃ left p, l = ⟨some (.inl p), kernel.taskCalls i (k + 1) left⟩ ∧
      k + (left + 1) = kernel.barriers := by
  obtain ⟨p, rest, first, remain⟩ := member.unreleased
  obtain ⟨point, calls⟩ := Place.mk.inj first
  cases course with
  | arriving total p => exact ⟨rfl, _, p, rfl, total⟩
  | fresh total => cases point
  | working total q => cases point
  | done total => cases point
  | waking later total p =>
    dsimp only at calls
    rw [GroupKernel.taskCalls_first] at calls
    have same := replicate_left calls
    omega
  | exiting total p => simp at calls
  | ended total => cases point

/-- The kernel's tasks are all at the same piece of work, which they began with `m` in the memory, and each
    of them has come as far as it would have come alone. -/
structure Lockstep (kernel : GroupKernel N) (k : Nat) (m : Nat → Nat) (steps : Fin N → Nat) (w : KernelPlaces N) :
    Prop where
  round : (releases w.shared.1.trace).1 = k
  serial : ∃ fuel, kernel.serial fuel k = some m
  together : memoryFootprint.Together (fun i => (kernel.work i k).text) m steps w.shared.2.memory
  course : ∀ i, Course kernel i k ((kernel.work i k).text.solo memoryExec m (steps i)).1 (w.proc (.task i))

theorem lockstep_start (kernel : GroupKernel N) :
    Lockstep kernel 0 kernel.memory (fun _ => 0) kernel.places where
  round := rfl
  serial := ⟨0, rfl⟩
  together := .start _ _ _
  course _ := .fresh (Nat.zero_add _)

section Steps

variable {m : Nat → Nat} {steps : Fin N → Nat} {w : KernelPlaces N} {r r' : Rounds (Fin N)}
  {leader leader' : Option (Fin N)}

/-- A task goes on, without work being done or a barrier being released. -/
theorem Lockstep.move (lockstep : Lockstep kernel k m steps w) {l : KernelPlace}
    {s : Shared (Party N) GroupReg} (round : (releases s.trace).1 = k)
    (course : Course kernel i k ((kernel.work i k).text.solo memoryExec m (steps i)).1 l) :
    Lockstep kernel k m steps ⟨Function.update w.proc (.task i) l, (s, w.shared.2)⟩ where
  round := round
  serial := lockstep.serial
  together := lockstep.together
  course j := by
    by_cases mine : j = i
    · subst mine
      simpa using course
    · simpa [mine] using lockstep.course j

theorem Lockstep.works (lockstep : Lockstep kernel k m steps w) (free : kernel.RaceFree)
    {q : Work.Running MemoryOp Nat} {calls : List (TaskCall ⊕ Work MemoryOp Nat)}
    (here : w.proc (.task i) = ⟨some (.inr q), calls⟩) :
    Lockstep kernel k m (Function.update steps i (steps i + 1)) (w.step kernel.act (.task i)) := by
  have course := lockstep.course i
  rw [here] at course
  generalize now : ((kernel.work i k).text.solo memoryExec m (steps i)).1 = p at course
  cases course with
  | working total q =>
    obtain ⟨next, together⟩ := lockstep.together.step (free k (lockstep.course i).le m lockstep.serial) (i := i)
    rw [now, Prog.step_resumed (Option.some_get q.busy).symm] at next together
    rw [Places.step_op here]
    exact {
      round := lockstep.round
      serial := lockstep.serial
      together := together
      course := fun j => by
        by_cases mine : j = i
        · subst mine
          dsimp only
          rw [Function.update_self, Function.update_self, ← next]
          exact Course.resume total (q.toWork.resumed _)
        · simpa [mine] using lockstep.course j }

theorem Lockstep.enters (lockstep : Lockstep kernel k m steps w)
    {calls : List (TaskCall ⊕ Work MemoryOp Nat)} (here : w.proc (.task i) = ⟨none, calls⟩) :
    Lockstep kernel k m steps (w.step kernel.act (.task i)) := by
  have course := lockstep.course i
  rw [here] at course
  generalize now : ((kernel.work i k).text.solo memoryExec m (steps i)).1 = p at course
  have begins : ∀ {q : Work MemoryOp Nat} {rest : List (TaskCall ⊕ Work MemoryOp Nat)},
      w.proc (.task i) = ⟨none, .inr q :: rest⟩ →
      Course kernel i k ((kernel.work i k).text.solo memoryExec m (steps i)).1 ⟨q.running.map .inr, rest⟩ →
      Lockstep kernel k m steps (w.step kernel.act (.task i)) := by
    intro q rest here course
    rw [Places.step_enter here]
    exact lockstep.move lockstep.round course
  have meets : ∀ {c : TaskCall} {rest : List (TaskCall ⊕ Work MemoryOp Nat)},
      w.proc (.task i) = ⟨none, .inl c :: rest⟩ →
      (∀ p, Course kernel i k ((kernel.work i k).text.solo memoryExec m (steps i)).1 ⟨some (.inl p), rest⟩) →
      Lockstep kernel k m steps (w.step kernel.act (.task i)) := by
    intro c rest here course
    rw [Places.step_enter here]
    cases c with
    | barrier => exact lockstep.move lockstep.round (course .reached)
    | exit => exact lockstep.move lockstep.round (course .lockExit)
  cases course with
  | fresh total =>
    rw [taskCalls_cons] at here
    refine begins here ?_
    rw [now]
    exact Course.resume total (kernel.work i k)
  | @done left total =>
    rw [now] at meets
    cases left with
    | zero => exact meets here (.exiting total)
    | succ left => exact meets here (.arriving total)
  | ended total =>
    rw [Places.step_finished here]
    exact lockstep

/-- At the last barrier operation that releases the others, everybody has done its work. -/
theorem Lockstep.all_done (lockstep : Lockstep kernel k m steps w)
    (meeting : Meeting kernel.group.rounds r leader (BesidePlaces.first w)) (last : leader ≠ none) (j : Fin N) :
    ((kernel.work j k).text.solo memoryExec m (steps j)).1 = .ret 0 ∧ ∃ left p,
      w.proc (.task j) = ⟨some (.inl p), kernel.taskCalls j (k + 1) left⟩ ∧ k + (left + 1) = kernel.barriers := by
  have round : r.released = k := by
    rw [← lockstep.round]
    exact (congrArg Prod.fst meeting.released).symm
  have all := Rounds.missing_eq_zero.mp (meeting.complete last) j
  have member := meeting.member j
  rw [Rounds.arrived_of_not_absent all, round] at member
  exact (lockstep.course j).arrived member

section Protocol

variable {p : TaskPoint GroupReg} {calls : List (TaskCall ⊕ Work MemoryOp Nat)}

theorem step_protocol (here : w.proc (.task i) = ⟨some (.inl p), calls⟩) :
    w.step kernel.act (.task i) =
      ⟨Function.update w.proc (.task i)
          ⟨(p.next none ((p.op (spawnArgs N i)).answer w.shared.1)).map .inl, calls⟩,
        ((exec overwrite (.task i) (p.op (spawnArgs N i)) w.shared.1).2, w.shared.2)⟩ :=
  Places.step_op here

theorem first_here (here : w.proc (.task i) = ⟨some (.inl p), calls⟩) :
    (BesidePlaces.first w).proc (.task i) = ⟨some p, calls.filterMap Sum.getLeft?⟩ := by
  simp [BesidePlaces.first, here]

/-- The next piece of work is begun with what they leave behind one after the other. -/
theorem Lockstep.flips (lockstep : Lockstep kernel k m steps w) (free : kernel.RaceFree)
    (meeting : Meeting kernel.group.rounds r leader (BesidePlaces.first w)) {go : Nat}
    (here : w.proc (.task i) = ⟨some (.inl (.writeFlip go)), calls⟩) :
    Lockstep kernel (k + 1) w.shared.2.memory (fun _ => 0) (w.step kernel.act (.task i)) := by
  have leads : leader = some i := (meeting.leads i).mp (by rw [first_here here]; rfl)
  have done := lockstep.all_done meeting (by rw [leads]; simp)
  have ran := lockstep.together.serial (free k (lockstep.course i).le m lockstep.serial) (fun j => ⟨0, (done j).1⟩)
    (List.nodup_finRange N) List.mem_finRange
  have next : ((TaskPoint.writeFlip go).next none
      (((TaskPoint.writeFlip go).op (spawnArgs N i)).answer w.shared.1)).map
        (Sum.inl : _ → TaskPoint GroupReg ⊕ Work.Running MemoryOp Nat) = some (.inl .flipped) := rfl
  rw [step_protocol here, next]
  exact {
    round := by
      rw [← lockstep.round]
      exact meeting.releases_flip (first_here here)
    serial := kernel.serial_next lockstep.serial ran
    together := .start _ _ _
    course := fun j => by
      obtain ⟨_, left, q, place, total⟩ := done j
      by_cases mine : j = i
      · subst mine
        rw [here] at place
        cases place
        dsimp only
        rw [Function.update_self]
        exact .waking (Nat.succ_pos k) (by omega) .flipped
      · dsimp only
        rw [Function.update_of_ne (by simpa using mine), place]
        exact .waking (Nat.succ_pos k) (by omega) q }

theorem Lockstep.protocol (lockstep : Lockstep kernel k m steps w)
    (meeting : Meeting kernel.group.rounds r leader (BesidePlaces.first w))
    (meeting' : Meeting kernel.group.rounds r' leader' (BesidePlaces.first (w.step kernel.act (.task i))))
    (here : w.proc (.task i) = ⟨some (.inl p), calls⟩) (stays : ∀ go, p ≠ .writeFlip go) :
    Lockstep kernel k m steps (w.step kernel.act (.task i)) := by
  have round := (congrArg Prod.fst meeting'.released).symm
  have member : Member kernel.barriers _ _ _ := meeting'.member i
  rw [first_step_inl here] at meeting'
  have same := released_same meeting meeting' (first_here here) stays
  have before : r.released = k := by
    rw [← lockstep.round]
    exact (congrArg Prod.fst meeting.released).symm
  rw [same, before] at round member
  have course := lockstep.course i
  rw [here] at course
  generalize now : ((kernel.work i k).text.solo memoryExec m (steps i)).1 = q at course
  rw [step_protocol here] at round member ⊢
  simp only [BesidePlaces.first, Function.update_self, Place.first_mk, map_inl_left] at member
  refine lockstep.move round.symm ?_
  rw [now]
  generalize p.next none ((p.op (spawnArgs N i)).answer w.shared.1) = next at member ⊢
  rcases next with _ | next
  · cases course with
    | arriving total p =>
      rw [GroupKernel.taskCalls_first] at member
      generalize rest : List.replicate _ _ ++ [TaskCall.exit] = after at member
      cases member with
      | idle remain same =>
        have left := replicate_left rest
        omega
      | ended => simp at rest
    | waking later total p => exact .fresh total
    | exiting total p => exact .ended total
  · cases course with
    | arriving total p => exact .arriving total next
    | waking later total p => exact .waking later total next
    | exiting total p => exact .exiting total next

end Protocol

theorem Lockstep.step_task (lockstep : Lockstep kernel k m steps w) (free : kernel.RaceFree)
    (meeting : Meeting kernel.group.rounds r leader (BesidePlaces.first w))
    (meeting' : Meeting kernel.group.rounds r' leader' (BesidePlaces.first (w.step kernel.act (.task i)))) :
    ∃ k m steps, Lockstep kernel k m steps (w.step kernel.act (.task i)) := by
  rcases here : w.proc (.task i) with ⟨_ | p | q, calls⟩
  · exact ⟨_, _, _, lockstep.enters here⟩
  · by_cases flips : ∃ go, p = .writeFlip go
    · obtain ⟨go, rfl⟩ := flips
      exact ⟨_, _, _, lockstep.flips free meeting here⟩
    · exact ⟨_, _, _, lockstep.protocol meeting meeting' here fun go found => flips ⟨go, found⟩⟩
  · exact ⟨_, _, _, lockstep.works free here⟩

/-- What is not a task neither touches the memory nor releases a barrier. -/
theorem step_beyond (meeting : Meeting kernel.group.rounds r leader (BesidePlaces.first w)) {j : Party N}
    (other : ∀ i, j ≠ .task i) :
    (w.step kernel.act j).shared.2.memory = w.shared.2.memory ∧
      releases (w.step kernel.act j).shared.1.trace = releases w.shared.1.trace := by
  rcases here : w.proc j with ⟨_ | p | p, _ | ⟨call, calls⟩⟩
  · rw [Places.step_finished here]
    exact ⟨rfl, rfl⟩
  · rw [Places.step_enter here]
    exact ⟨rfl, rfl⟩
  all_goals rw [Places.step_op here]
  · exact ⟨rfl, (quiet_other other _ p).releases j meeting.released |>.trans meeting.released.symm⟩
  · exact ⟨rfl, (quiet_other other _ p).releases j meeting.released |>.trans meeting.released.symm⟩
  all_goals
    cases j with
    | task i => exact absurd rfl (other i)
    | host => cases p
    | spawner => exact ⟨rfl, rfl⟩
    | waiter => exact ⟨rfl, rfl⟩

theorem Lockstep.step_other (lockstep : Lockstep kernel k m steps w)
    (meeting : Meeting kernel.group.rounds r leader (BesidePlaces.first w)) {j : Party N}
    (other : ∀ i, j ≠ .task i) : Lockstep kernel k m steps (w.step kernel.act j) := by
  obtain ⟨memory, round⟩ := step_beyond meeting other
  exact {
    round := by rw [round, lockstep.round]
    serial := lockstep.serial
    together := by rw [memory]; exact lockstep.together
    course := fun i => by
      rw [World.step_proc_other (Ne.symm (other i))]
      exact lockstep.course i }

end Steps

theorem lockstep_reachable {w : KernelPlaces N} (fits : N + 1 < 2^32) (free : kernel.RaceFree)
    (reach : World.Reachable kernel.act kernel.places w) : ∃ k m steps, Lockstep kernel k m steps w := by
  refine reach.invariant (motive := fun w => ∃ k m steps, Lockstep kernel k m steps w)
    (fun w j reach kept => ?_) ⟨_, _, _, lockstep_start kernel⟩
  obtain ⟨k, m, steps, lockstep⟩ := kept
  obtain ⟨r, leader, meeting⟩ := meeting_reachable fits (kernel.reachable_first reach)
  obtain ⟨r', leader', meeting'⟩ := meeting_reachable fits (kernel.reachable_first (reach.step j))
  cases j with
  | task i => exact lockstep.step_task free meeting meeting'
  | spawner => exact ⟨k, m, steps, lockstep.step_other meeting (by simp)⟩
  | host => exact ⟨k, m, steps, lockstep.step_other meeting (by simp)⟩
  | waiter => exact ⟨k, m, steps, lockstep.step_other meeting (by simp)⟩

end MangoModel
