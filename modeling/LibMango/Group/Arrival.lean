import LibMango.Group.Meeting

namespace MangoModel

open Interleave Device

variable {N : Nat} {g : Group N} {w : GroupPlaces N} {i : Fin N} {rest : List TaskCall} {count : Nat}

theorem decrement_succ (fits : count + 1 < 2^32) : decrement (count + 1) = count := by
  unfold decrement uint32
  omega

theorem run_arrive (here : w.proc (.task i) = ⟨none, .barrier :: rest⟩)
    (release : w.shared.regs.value .eventR = 2) (counter : w.shared.regs.value .eventB = count + 1)
    (more : 1 < count) (fits : count + 1 < 2^32) :
    let v := w.run (g.act overwrite) (List.replicate 7 (.task i))
    v.proc = Function.update w.proc (.task i) ⟨some (.awaitRelease 1), rest⟩ ∧
      v.shared.regs.value = Function.update w.shared.regs.value .eventB count ∧
      v.shared.memory = w.shared.memory ∧
      v.shared.count Op.stores = w.shared.count Op.stores := by
  have counted := decrement_succ fits
  have small : count % 4294967296 = count := Nat.mod_eq_of_lt (by omega)
  have same : Function.update w.shared.regs.value .eventR 2 = w.shared.regs.value := by
    rw [← release, Function.update_eq_self]
  simp [World.run, World.step, here, Chart.step, Group.charts, taskChart, TaskPoint.next,
    TaskPoint.op, retry, Op.answer, release, counter, Op.access, Custody.apply, Custody.take,
    Custody.put, overwrite, Function.update, counted, more, toggle, spawnArgs, uint32, small, same,
    Op.memoryAfter, Shared.count, Op.stores]

theorem run_last (here : w.proc (.task i) = ⟨none, .barrier :: rest⟩)
    (release : w.shared.regs.value .eventR = 2) (counter : w.shared.regs.value .eventB = 2) :
    let v := w.run (g.act overwrite) (List.replicate 6 (.task i))
    v.proc = Function.update w.proc (.task i) ⟨some (.allReached 1), rest⟩ ∧
      v.shared.regs.value = Function.update w.shared.regs.value .eventB 1 ∧
      v.shared.memory = w.shared.memory ∧
      v.shared.count Op.stores = w.shared.count Op.stores := by
  have same : Function.update w.shared.regs.value .eventR 2 = w.shared.regs.value := by
    rw [← release, Function.update_eq_self]
  simp [World.run, World.step, here, Chart.step, Group.charts, taskChart, TaskPoint.next,
    TaskPoint.op, retry, Op.answer, release, counter, Op.access, Custody.apply, Custody.take,
    Custody.put, overwrite, Function.update, toggle, spawnArgs, uint32, same, decrement,
    Op.memoryAfter, Shared.count, Op.stores]

/-- The first `m` tasks wait in their first barrier, and nobody else has done anything. -/
structure Arrived (g : Group N) (m : Nat) (w : GroupPlaces N) : Prop where
  waiting : ∀ i : Fin N, i.val < m → w.proc (.task i) =
    ⟨some (.awaitRelease 1), List.replicate (g.rounds i - 1) .barrier ++ [.exit]⟩
  fresh : ∀ i : Fin N, m ≤ i.val → w.proc (.task i) =
    ⟨none, List.replicate (g.rounds i) .barrier ++ [.exit]⟩
  others : ∀ j, (∀ i, j ≠ .task i) → w.proc j = g.places.proc j
  values : w.shared.regs.value =
    Function.update (spawnValues N MangoEventStatus.WRITE.value) .eventB (N + 1 - m)
  stores : w.shared.count Op.stores = 0

theorem arrived_start (g : Group N) (fits : N + 1 < 2^32) : Arrived g 0 g.places where
  waiting i less := absurd less (Nat.not_lt_zero _)
  fresh i _ := rfl
  others j _ := rfl
  values := by
    have start : spawnValues N MangoEventStatus.WRITE.value .eventB = N + 1 := uint32_of_lt fits
    rw [Nat.sub_zero, ← start, Function.update_eq_self]
    rfl
  stores := rfl

theorem Arrived.enters {m : Nat} (arrived : Arrived g m w) (late : m ≤ i.val)
    (rounds : 0 < g.rounds i) : w.proc (.task i) =
      ⟨none, .barrier :: (List.replicate (g.rounds i - 1) .barrier ++ [.exit])⟩ := by
  obtain ⟨n, more⟩ := Nat.exists_eq_add_of_lt rounds
  rw [arrived.fresh i late, more]
  simp [List.replicate_succ]

theorem Arrived.next {m : Nat} (arrived : Arrived g m w) (fits : N + 1 < 2^32) (more : m + 1 < N)
    (rounds : ∀ i, 0 < g.rounds i) :
    Arrived g (m + 1) (w.run (g.act overwrite) (List.replicate 7 (.task ⟨m, by omega⟩))) := by
  have here := arrived.enters (i := ⟨m, by omega⟩) (Nat.le_refl m) (rounds _)
  have release : w.shared.regs.value .eventR = 2 := by rw [arrived.values]; rfl
  have counter : w.shared.regs.value .eventB = (N - m) + 1 := by
    rw [arrived.values, Function.update_self]
    omega
  obtain ⟨proc, values, _, stores⟩ := run_arrive (g := g) here release counter (by omega) (by omega)
  constructor
  · intro j less
    rw [proc, update_task]
    split
    · next same => rw [same]
    · next other =>
      have earlier : j.val ≠ m := fun same => other (Fin.ext same)
      exact arrived.waiting j (by omega)
  · intro j late
    rw [proc, update_task]
    split
    · next same =>
      rw [same] at late
      exact absurd late (by simp)
    · exact arrived.fresh j (by omega)
  · intro j other
    rw [proc, Function.update_of_ne (other _)]
    exact arrived.others j other
  · rw [values, arrived.values, Function.update_idem, Nat.add_sub_add_right]
  · rw [stores]
    exact arrived.stores

theorem arrived_run (g : Group N) (fits : N + 1 < 2^32) (rounds : ∀ i, 0 < g.rounds i) {m : Nat}
    (some : m < N) : ∃ schedule, Arrived g m (g.places.run (g.act overwrite) schedule) := by
  induction m with
  | zero => exact ⟨[], arrived_start g fits⟩
  | succ m ih =>
    have less : m < N := by omega
    obtain ⟨first, arrived⟩ := ih less
    refine ⟨first ++ List.replicate 7 (.task ⟨m, less⟩), ?_⟩
    rw [World.run_append]
    exact arrived.next fits some rounds

structure AllArrived (g : Group N) (last : Fin N) (w : GroupPlaces N) : Prop where
  waiting : ∀ i, i ≠ last → w.proc (.task i) =
    ⟨some (.awaitRelease 1), List.replicate (g.rounds i - 1) .barrier ++ [.exit]⟩
  last : w.proc (.task last) =
    ⟨some (.allReached 1), List.replicate (g.rounds last - 1) .barrier ++ [.exit]⟩
  others : ∀ j, (∀ i, j ≠ .task i) → w.proc j = g.places.proc j
  values : w.shared.regs.value =
    Function.update (spawnValues N MangoEventStatus.WRITE.value) .eventB 1
  stores : w.shared.count Op.stores = 0

theorem allArrived_run (g : Group N) (fits : N + 1 < 2^32) (rounds : ∀ i, 0 < g.rounds i)
    (some : 0 < N) : ∃ schedule, AllArrived g ⟨N - 1, by omega⟩
      (g.places.run (g.act overwrite) schedule) := by
  obtain ⟨first, arrived⟩ := arrived_run g fits rounds (m := N - 1) (by omega)
  have here := arrived.enters (i := ⟨N - 1, by omega⟩) (Nat.le_refl _) (rounds _)
  refine ⟨first ++ List.replicate 6 (.task ⟨N - 1, by omega⟩), ?_⟩
  rw [World.run_append]
  have release : (g.places.run (g.act overwrite) first).shared.regs.value .eventR = 2 := by
    rw [arrived.values]; rfl
  have counter : (g.places.run (g.act overwrite) first).shared.regs.value .eventB = 2 := by
    rw [arrived.values, Function.update_self]
    omega
  obtain ⟨proc, values, _, stores⟩ := run_last (g := g) here release counter
  constructor
  · intro i other
    have earlier : i.val ≠ N - 1 := fun same => other (Fin.ext same)
    rw [proc, update_task, if_neg other]
    exact arrived.waiting i (by omega)
  · rw [proc, Function.update_self]
  · intro j other
    rw [proc, Function.update_of_ne (other _)]
    exact arrived.others j other
  · rw [values, arrived.values, Function.update_idem]
  · rw [stores]
    exact arrived.stores

end MangoModel
