import LibMango.Group.Leaving

namespace MangoModel

open Interleave Device

variable {N : Nat}

/-- Some party took the register's value and has to write the register next. -/
def Held (c : GroupThreads N) (e : GroupReg) : Prop :=
  ∃ i, c.shared.regs.taker e = some i ∧ owes (c.proc i).running = some e

/-- `mango_join` has no register left to read or write. -/
def Joined (c : GroupThreads N) : Prop :=
  (c.proc .spawner).calls = [] ∧ (c.proc .spawner).running.firstOp Op.synchronizes = none

def TasksDone (c : GroupThreads N) : Prop := ∀ i, (c.proc (.task i)).finished = true

def unfinished (c : GroupThreads N) : Nat :=
  (Finset.univ.filter fun i => (c.proc (.task i)).finished = false).card

variable {g : Group N} {r : Rounds (Fin N)} {w : GroupPlaces N}

theorem JoinPoint.firstOp_eq_none {e : GroupReg} {p : JoinPoint} :
    (p.prog e).firstOp Op.synchronizes = none ↔ p = .joined := by
  cases p with
  | joined => exact iff_of_true rfl rfl
  | await => exact iff_of_false (by rintro ⟨⟩) (by simp)
  | back value => exact iff_of_false (by rintro ⟨⟩) (by simp)

theorem Leaving.joined_iff (leaving : Leaving r w) :
    Joined (w.threads g.charts) ↔ JoinPast (w.proc .spawner) := by
  have once := leaving.once
  unfold Joined JoinPast
  rw [World.map_proc]
  rcases here : w.proc .spawner with ⟨_ | p, calls⟩
  · have ended : Prog.firstOp Op.synchronizes (.ret 0 : Prog (Op GroupReg) Nat) = none := rfl
    simp [Chart.thread, ended]
  · rw [here] at once
    obtain rfl : calls = [] := by simpa using once
    have ahead : Prog.firstOp Op.synchronizes ((g.charts .spawner).prog p) = none ↔ p = .joined :=
      JoinPoint.firstOp_eq_none
    simp only [Chart.thread, Option.elim_some, List.map_nil, true_and, ahead]
    simp

theorem Leaving.absent_iff (leaving : Leaving r w) (i : Fin N) :
    r.Absent i ↔ ((w.threads g.charts).proc (.task i)).finished = false := by
  rw [leaving.absent i, World.map_proc, ← Bool.not_eq_true, Chart.thread_finished]

theorem Leaving.unfinished_eq (leaving : Leaving r w) : unfinished (w.threads g.charts) = r.missing := by
  unfold unfinished Rounds.missing
  congr 1
  ext i
  rw [Finset.mem_filter, Finset.mem_filter, leaving.absent_iff (g := g)]

theorem held_of_debt {e : GroupReg} (reach : World.Reachable (g.act overwrite) g.places w)
    {i : Party N} (owed : Places.debt debts w i = some e) : Held (w.threads g.charts) e := by
  refine ⟨i, (Group.sound g reach i e owed).2, ?_⟩
  rw [World.map_proc, Group.owes_thread]
  exact owed

/-- The value of `event_a` is one more than the number of tasks that have not left, and
    `mango_join` returns only when there are none. -/
theorem join_counts {N : Nat} (fits : N < 2^31) (g : Group N) (once : g.joins = 1)
    (c : GroupThreads N) (reach : g.Reachable overwrite c) :
    (¬ Held c .eventA → ¬ Joined c → c.shared.regs.value .eventA = unfinished c + 1) ∧
      (Joined c → TasksDone c) := by
  obtain ⟨w, run, rfl⟩ := g.reachable_places reach
  obtain ⟨r, leaving⟩ := leaving_reachable once (by omega) run
  refine ⟨fun free waiting => ?_, fun joined i => ?_⟩
  · rw [leaving.unfinished_eq]
    apply leaving.value.resolve_left
    intro empty
    rcases leaving.taken empty with ⟨i, n, exits⟩ | ⟨n, holds⟩ | past
    · exact free (held_of_debt run (i := .task i) (by rw [Places.debt, exits]; rfl))
    · exact free (held_of_debt run (i := .spawner) (by rw [Places.debt, holds]; rfl))
    · exact waiting (leaving.joined_iff.mpr past)
  · have none := leaving.past (leaving.joined_iff.mp joined)
    have present := Rounds.missing_eq_zero.mp none i
    rw [leaving.absent_iff (g := g)] at present
    simpa using present

theorem join_counts_two_tasks : ∃ c c', (deviceGroup fun _ : Fin 2 => 0).Reachable overwrite c ∧
    (c.proc (.task 0)).finished = true ∧ (c.proc (.task 1)).finished = false ∧
    c.shared.regs.value .eventA = unfinished c + 1 ∧
    (deviceGroup fun _ : Fin 2 => 0).Reachable overwrite c' ∧ Joined c' ∧ TasksDone c' := by
  let left : List (Party 2) := List.replicate 3 .spawner ++ List.replicate 3 (.task 0)
  let joined : List (Party 2) := left ++ List.replicate 3 (.task 1) ++ List.replicate 2 .spawner
  let run := (deviceGroup fun _ : Fin 2 => 0).start.run (threadAct (exec overwrite))
  have counts := fun c => join_counts (by decide) (deviceGroup fun _ : Fin 2 => 0) rfl c
  have free : ¬ Held (run left) .eventA := by
    have back : (run left).shared.regs.taker .eventA = none := by decide +kernel
    rintro ⟨i, taken, _⟩
    rw [back] at taken
    cases taken
  have waiting : ¬ Joined (run left) := by
    rintro ⟨_, ended⟩
    have polls : ((run left).proc .spawner).running.firstOp Op.synchronizes ≠ none := by decide +kernel
    exact polls ended
  have ended : Joined (run joined) := by
    constructor
    · decide +kernel
    · decide +kernel
  exact ⟨run left, run joined, ⟨left, rfl⟩, by decide +kernel, by decide +kernel,
    (counts _ ⟨left, rfl⟩).1 free waiting, ⟨joined, rfl⟩, ended, (counts _ ⟨joined, rfl⟩).2 ended⟩

end MangoModel
