import LibMango.Group.Delivery
import LibMango.Group.Live

namespace MangoModel

open Interleave Device Host

section Runs

variable {N : Nat} {g : Group N} {w : GroupPlaces N} {off : Nat}

theorem step_stores {j : Nat} (here : w.proc .host = ⟨some (.inside off j), []⟩) :
    let v := w.step (g.act overwrite) .host
    v.proc = Function.update w.proc .host
        ⟨some (if j + 1 < g.size then .inside off (j + 1) else .post off), []⟩ ∧
      v.shared.regs = w.shared.regs ∧
      v.shared.count Op.stores = w.shared.count Op.stores + 1 := by
  refine ⟨?_, ?_, ?_⟩
  · rw [step_host here, ← inner_byte]
    rfl
  · rw [host_shared here]
    rfl
  · rw [host_shared here, exec_count]
    rfl

def HostFree (l : Place (SynchPoint .WRITE Nat) Unit) : Prop :=
  l.point.bind (SynchPoint.owes GroupReg.fifo) = none

theorem run_stores {left j : Nat} (here : w.proc .host = ⟨some (.inside off j), []⟩)
    (inside : j + (left + 1) = g.size) :
    let v := w.run (g.act overwrite) (List.replicate (left + 1) .host)
    v.proc = Function.update w.proc .host ⟨some (.post off), []⟩ ∧ v.shared.regs = w.shared.regs ∧
      v.shared.count Op.stores = w.shared.count Op.stores + (left + 1) := by
  induction left generalizing w j with
  | zero =>
    have one := step_stores (g := g) here
    rw [if_neg (by omega)] at one
    exact one
  | succ left ih =>
    obtain ⟨proc, regs, stores⟩ := step_stores (g := g) here
    rw [if_pos (by omega)] at proc
    have place : (w.step (g.act overwrite) .host).proc .host = ⟨some (.inside off (j + 1)), []⟩ := by
      rw [proc, Function.update_self]
    obtain ⟨proc', regs', stores'⟩ := ih place (by omega)
    refine ⟨?_, regs'.trans regs, ?_⟩
    · rw [List.replicate_succ, World.run_cons, proc', proc, Function.update_idem]
    · rw [List.replicate_succ, World.run_cons, stores', stores]
      omega

theorem step_takes (here : w.proc .host = ⟨some (.poll off), []⟩) (positive : 0 < g.size)
    (ready : w.shared.regs.value .fifo = MangoEventStatus.WRITE.value) :
    let v := w.step (g.act overwrite) .host
    v.proc = Function.update w.proc .host ⟨some (.inside off 0), []⟩ ∧
      v.shared.regs.value = Function.update w.shared.regs.value .fifo 0 ∧
      v.shared.count Op.stores = w.shared.count Op.stores := by
  have starts := inner_byte off g.size 0
  rw [if_pos positive] at starts
  refine ⟨?_, ?_, ?_⟩
  · rw [step_host here, ← starts]
    show Function.update w.proc .host ⟨SynchPoint.next g.buffer _ _ (.poll off)
      (w.shared.regs.value .fifo), []⟩ = _
    rw [ready]
    rfl
  · rw [host_shared here]
    rfl
  · rw [host_shared here, exec_count]
    rfl

theorem step_posts (here : w.proc .host = ⟨some (.post off), []⟩) :
    let v := w.step (g.act overwrite) .host
    v.proc = Function.update w.proc .host ⟨if uint32 (off + g.size) < g.globalSize then
        some (.poll (uint32 (off + g.size))) else none, []⟩ ∧
      v.shared.regs.value = Function.update w.shared.regs.value .fifo MangoEventStatus.READ.value ∧
      v.shared.count Op.stores = w.shared.count Op.stores := by
  refine ⟨?_, ?_, ?_⟩
  · rw [step_host here]
    rfl
  · rw [host_shared here]
    rfl
  · rw [host_shared here, exec_count]
    rfl

theorem run_chunk (here : w.proc .host = ⟨none, [()]⟩) (positive : 0 < g.size)
    (fitting : g.size ≤ g.globalSize)
    (ready : w.shared.regs.value .fifo = MangoEventStatus.WRITE.value) :
    ∃ schedule l, let v := w.run (g.act overwrite) schedule
      HostFree l ∧ v.proc = Function.update w.proc .host l ∧
      v.shared.regs.value = Function.update w.shared.regs.value .fifo MangoEventStatus.READ.value ∧
      v.shared.count Op.stores = w.shared.count Op.stores + g.size := by
  obtain ⟨left, size⟩ := Nat.exists_eq_add_of_lt positive
  rw [Nat.zero_add] at size
  have entered : w.step (g.act overwrite) .host =
      ⟨Function.update w.proc .host ⟨if 0 < g.globalSize then some (.poll 0) else none, []⟩,
        w.shared⟩ := Places.step_enter here
  rw [if_pos (by omega)] at entered
  have polls : (w.step (g.act overwrite) .host).proc .host = ⟨some (.poll 0), []⟩ := by
    rw [entered]
    simp only [Function.update_self]
  obtain ⟨proc, value, stores⟩ := step_takes (g := g) polls positive (by rw [entered]; exact ready)
  generalize second : (w.step (g.act overwrite) .host).step (g.act overwrite) .host = v at proc value stores
  have begins : v.proc .host = ⟨some (.inside 0 0), []⟩ := by rw [proc, Function.update_self]
  have inside : 0 + (left + 1) = g.size := by omega
  obtain ⟨proc', regs', stores'⟩ := run_stores (g := g) begins inside
  generalize third : v.run (g.act overwrite) (List.replicate (left + 1) .host) = u at proc' regs' stores'
  have ends : u.proc .host = ⟨some (.post 0), []⟩ := by rw [proc', Function.update_self]
  obtain ⟨proc'', value'', stores''⟩ := step_posts (g := g) ends
  have run : w.run (g.act overwrite) (.host :: .host :: (List.replicate (left + 1) .host ++ [.host])) =
      u.step (g.act overwrite) .host := by
    rw [World.run_cons, World.run_cons, second, World.run_append, third, World.run_cons, World.run_nil]
  refine ⟨.host :: .host :: (List.replicate (left + 1) .host ++ [.host]), ⟨if uint32 (0 + g.size) <
    g.globalSize then some (.poll (uint32 (0 + g.size))) else none, []⟩, ?_⟩
  rw [run]
  refine ⟨?_, ?_, ?_, ?_⟩
  · unfold HostFree
    split <;> rfl
  · rw [proc'', proc', proc, entered, Function.update_idem, Function.update_idem, Function.update_idem]
  · rw [value'', regs', value, entered, Function.update_idem]
  · rw [stores'', stores', stores, entered, size]

theorem run_request {i : Fin N} {rest : List TaskCall} (uses : g.usesFifo = true)
    (here : w.proc (.task i) = ⟨some (.allReached 1), rest⟩)
    (ready : w.shared.regs.value .fifo = MangoEventStatus.WRITE.value) :
    let v := w.run (g.act overwrite) (List.replicate 6 (.task i))
    v.proc = Function.update w.proc (.task i) ⟨some (.fifoAwait .fifo 1), rest⟩ ∧
      v.shared.regs.value = w.shared.regs.value := by
  have same : Function.update w.shared.regs.value .fifo 2 = w.shared.regs.value := by
    rw [← show w.shared.regs.value .fifo = 2 from ready, Function.update_eq_self]
  simp [World.run, World.step, here, Chart.step, Group.charts, taskChart, TaskPoint.next,
    TaskPoint.op, retry, Op.answer, ready, Op.access, Custody.apply, Custody.take,
    Custody.put, overwrite, Function.update, uint32, Group.fifo, uses, MangoEventStatus.value, same]

theorem run_taken {i : Fin N} {rest : List TaskCall} {go : Nat}
    (here : w.proc (.task i) = ⟨some (.fifoAwait .fifo go), rest⟩)
    (posted : w.shared.regs.value .fifo = MangoEventStatus.READ.value) :
    (w.step (g.act overwrite) (.task i)).proc =
        Function.update w.proc (.task i) ⟨some (.fifoRelock .fifo go), rest⟩ ∧
      (w.step (g.act overwrite) (.task i)).shared.regs.value .fifo = 0 := by
  simp [World.step, here, Chart.step, Group.charts, taskChart, TaskPoint.next, TaskPoint.op,
    await, Op.answer, posted, Op.access, Custody.apply, MangoEventStatus.value]

theorem run_ends {i : Fin N} {rest : List TaskCall} (uses : g.usesFifo = true)
    (here : w.proc (.task i) = ⟨some (.allReached 1), rest⟩)
    (posted : w.shared.regs.value .fifo = MangoEventStatus.READ.value) :
    let v := w.run (g.act overwrite) (List.replicate 5 (.task i))
    v.proc = Function.update w.proc (.task i) ⟨some (.fifoComplete 1), rest⟩ ∧
      v.shared.regs.value .fifo = MangoEventStatus.END_FIFO_OPERATION.value ∧
      v.shared.count Op.stores = w.shared.count Op.stores := by
  simp [World.run, World.step, here, Chart.step, Group.charts, taskChart, TaskPoint.next,
    TaskPoint.op, retry, Op.answer, posted, Op.access, Custody.apply, Custody.take,
    Custody.put, overwrite, Function.update, uint32, Group.fifo, uses, MangoEventStatus.value,
    Shared.count, Op.stores]

end Runs

section Stranded

variable {N : Nat}

/-- The FIFO register is empty only while the host or a task is to write it. -/
def FifoHeld (g : Group N) : Prop :=
  ∀ c, g.Reachable overwrite c → c.shared.regs.value .fifo = 0 → Held c .fifo

/-- After its first request the last task takes the READ it waits for, and locks the register
    it has emptied. -/
theorem fifo_lost {g : Group N} (fits : N + 1 < 2^32) (some : 0 < N) (rounds : ∀ i, 0 < g.rounds i)
    (uses : g.usesFifo = true) (bursts : g.bursts = 1) (positive : 0 < g.size)
    (fitting : g.size ≤ g.globalSize) : ∃ schedule,
      Custody.Lost (Places.debt debts (g.places.run (g.act overwrite) schedule))
        (g.places.run (g.act overwrite) schedule).shared.regs .fifo := by
  obtain ⟨first, all⟩ := allArrived_run g fits rounds some
  generalize last : (⟨N - 1, by omega⟩ : Fin N) = i at all
  generalize began : g.places.run (g.act overwrite) first = w at all
  have ready : w.shared.regs.value .fifo = MangoEventStatus.WRITE.value := by rw [all.values]; rfl
  obtain ⟨proc, value⟩ := run_request (g := g) uses all.last ready
  generalize asked : w.run (g.act overwrite) (List.replicate 6 (.task i)) = v at proc value
  have host : v.proc .host = ⟨none, [()]⟩ := by
    rw [proc, Function.update_of_ne (by simp), all.others _ (by simp)]
    show (⟨none, List.replicate g.bursts ()⟩ : Place (SynchPoint .WRITE Nat) Unit) = _
    rw [bursts]
    rfl
  obtain ⟨second, l, free, proc', value', _⟩ := run_chunk (g := g) host positive fitting
    (by rw [value]; exact ready)
  generalize posted : v.run (g.act overwrite) second = u at proc' value'
  have waits : u.proc (.task i) = ⟨Option.some (.fifoAwait .fifo 1),
      List.replicate (g.rounds i - 1) .barrier ++ [.exit]⟩ := by
    rw [proc', Function.update_of_ne (by simp), proc, Function.update_self]
  obtain ⟨proc'', empty⟩ := run_taken (g := g) waits (by rw [value', Function.update_self])
  refine ⟨first ++ (List.replicate 6 (.task i) ++ (second ++ [.task i])), ?_⟩
  rw [World.run_append, began, World.run_append, asked, World.run_append, posted, World.run_cons,
    World.run_nil]
  refine ⟨empty, fun j owed => ?_⟩
  rw [Places.debt, proc''] at owed
  by_cases mine : j = .task i
  · subst mine
    rw [Function.update_self] at owed
    cases owed
  · rw [Function.update_of_ne mine, proc'] at owed
    by_cases burst : j = .host
    · subst burst
      rw [Function.update_self] at owed
      exact absurd (free.symm.trans owed) (by simp)
    · rw [Function.update_of_ne burst, proc, Function.update_of_ne mine] at owed
      cases j with
      | task k =>
        rw [all.waiting k (by rintro rfl; exact mine rfl)] at owed
        cases owed
      | host => exact burst rfl
      | spawner =>
        rw [all.others _ (by simp)] at owed
        cases owed
      | waiter =>
        rw [all.others _ (by simp)] at owed
        cases owed

theorem not_fifoHeld {g : Group N} (fits : N + 1 < 2^32) (some : 0 < N) (rounds : ∀ i, 0 < g.rounds i)
    (uses : g.usesFifo = true) (bursts : g.bursts = 1) (positive : 0 < g.size)
    (fitting : g.size ≤ g.globalSize) : ¬ FifoHeld g := by
  intro held
  obtain ⟨schedule, lost⟩ := fifo_lost fits some rounds uses bursts positive fitting
  have reach : g.Reachable overwrite _ := ⟨schedule, rfl⟩
  rw [Group.reachable_run] at reach
  obtain ⟨i, owed⟩ := held_debt (held _ reach lost.1)
  exact lost.2 i owed

/-- Whatever the group and the chunks are, the FIFO register can be lost. -/
theorem fifo_never_held {n : Nat} (some : 1 ≤ N) (fits : N < 2^31) (chunks : 1 ≤ n)
    (phyAddr size : Nat) (positive : 0 < size) (data memory : Nat → Nat) :
    ¬ FifoHeld (burstGroup (fun _ : Fin N => n) n 0 phyAddr size data memory) :=
  not_fifoHeld (by omega) some (fun _ => chunks) rfl rfl positive (Nat.le_mul_of_pos_left _ chunks)

theorem fifo_never_held_two_tasks :
    ¬ FifoHeld (burstGroup (fun _ : Fin 2 => 3) 3 0 64 4 id fun _ => 0) :=
  fifo_never_held (by decide) (by decide) (by decide) 64 4 (by decide) id fun _ => 0

theorem one_chunk_not_held : ¬ FifoHeld (burstGroup (fun _ : Fin 1 => 1) 1 0 64 1 id fun _ => 0) :=
  not_fifoHeld (by decide) (by decide) (by decide) rfl rfl (by decide) (by decide)

end Stranded

section Waits

variable {N : Nat}

/-- `wait` on the buffer's event takes a 3 only when the whole transfer has been stored. -/
def WaitMeansOver (g : Group N) : Prop :=
  ∀ c, g.Reachable overwrite c →
    (c.proc .waiter).running.nextOp = some (.readSynchronization .fifo) →
    c.shared.regs.value .fifo = MangoEventStatus.END_FIFO_OPERATION.value →
    c.shared.count Op.stores = g.globalSize

variable {rounds : Fin N → Nat} {n phyAddr size : Nat} {data memory : Nat → Nat}

theorem FifoPhase.Circulates.posted {phase : FifoPhase} {released posted : Nat}
    (circulates : phase.Circulates released posted MangoEventStatus.END_FIFO_OPERATION.value) :
    0 < posted := by
  cases phase with
  | before =>
    rcases circulates with ⟨_, ⟨other, _⟩ | ⟨other, _⟩⟩ | ⟨positive, _, same⟩
    · cases other
    · cases other
    · omega
  | asked => rcases circulates with ⟨other, _⟩ | ⟨other, _⟩ <;> cases other
  | after => exact circulates.2 ▸ Nat.succ_pos _
  | _ => exact circulates.elim

theorem Posted.single {g : Group N} {posted stored : Nat} {l : Place (SynchPoint .WRITE Nat) Unit}
    {memory : Nat → Nat} (host : Posted g posted l memory stored) (some : 0 < posted)
    (single : g.globalSize = g.size) : stored = g.globalSize := by
  have one : g.size ≤ posted * g.size := Nat.le_mul_of_pos_left _ some
  cases host with
  | waiting waiting bound chunk => omega
  | back more chunk => omega
  | storing inside fitting bytes =>
    rw [Nat.succ_mul] at fitting
    omega
  | stored fitting bytes =>
    rw [Nat.succ_mul] at fitting
    omega

theorem wait_single (fits : N + 1 < 2^32) (bytes : size < 2^32) :
    WaitMeansOver (burstGroup rounds 1 1 phyAddr size data memory) := by
  intro c reach _ ended
  obtain ⟨w, run, rfl⟩ := Group.reachable_places _ reach
  obtain ⟨r, leader, posted, _, d⟩ := delivery_reachable fits (by omega) run
  have carries : Carries w MangoEventStatus.END_FIFO_OPERATION.value := .inl ⟨by decide, ended⟩
  exact d.host.single (d.carried _ carries).posted (Nat.one_mul _)

/-- With two chunks or more the last task of the first round posts a 3 that says nothing about
    the chunks after the first. -/
theorem wait_early {g : Group N} (fits : N + 1 < 2^32) (some : 0 < N) (rounds : ∀ i, 0 < g.rounds i)
    (uses : g.usesFifo = true) (bursts : g.bursts = 1) (waits : g.waits = 1) (positive : 0 < g.size)
    (more : g.size < g.globalSize) : ¬ WaitMeansOver g := by
  intro means
  obtain ⟨first, all⟩ := allArrived_run g fits rounds some
  generalize last : (⟨N - 1, by omega⟩ : Fin N) = i at all
  generalize began : g.places.run (g.act overwrite) first = w at all
  have ready : w.shared.regs.value .fifo = MangoEventStatus.WRITE.value := by rw [all.values]; rfl
  have host : w.proc .host = ⟨none, [()]⟩ := by
    rw [all.others _ (by simp)]
    show (⟨none, List.replicate g.bursts ()⟩ : Place (SynchPoint .WRITE Nat) Unit) = _
    rw [bursts]
    rfl
  obtain ⟨second, l, _, proc, value, stores⟩ := run_chunk (g := g) host positive more.le ready
  generalize posted : w.run (g.act overwrite) second = v at proc value stores
  obtain ⟨proc', ended, stores'⟩ := run_ends (g := g) (w := v) (i := i) uses
    (by rw [proc, Function.update_of_ne (by simp)]; exact all.last)
    (by rw [value, Function.update_self])
  generalize ends : v.run (g.act overwrite) (List.replicate 5 (.task i)) = u at proc' ended stores'
  have waiter : u.proc .waiter = ⟨none, [()]⟩ := by
    rw [proc', Function.update_of_ne (by simp), proc, Function.update_of_ne (by simp),
      all.others _ (by simp)]
    show (⟨none, List.replicate g.waits ()⟩ : Place WaitPoint Unit) = _
    rw [waits]
    rfl
  have enters : u.step (g.act overwrite) .waiter =
      ⟨Function.update u.proc .waiter ⟨Option.some .poll, []⟩, u.shared⟩ := Places.step_enter waiter
  have run : g.places.run (g.act overwrite) (first ++ (second ++ (List.replicate 5 (.task i) ++ [.waiter]))) =
      ⟨Function.update u.proc .waiter ⟨Option.some .poll, []⟩, u.shared⟩ := by
    rw [World.run_append, began, World.run_append, posted, World.run_append, ends, World.run_cons,
      World.run_nil, enters]
  have reach : g.Reachable overwrite _ :=
    ⟨first ++ (second ++ (List.replicate 5 (.task i) ++ [.waiter])), rfl⟩
  rw [Group.reachable_run, run] at reach
  have stored := means _ reach (by
    rw [World.map_proc, Chart.thread_nextOp]
    simp only [Function.update_self]
    rfl) ended
  rw [World.map_shared, stores', stores, all.stores] at stored
  omega

/-- `wait` on a FIFO transfer means that the transfer is over exactly when it is a single chunk. -/
theorem wait_means_over_iff (some : 1 ≤ N) (fits : N < 2^31) (calls : ∀ i, 1 ≤ rounds i)
    (chunks : 1 ≤ n) (positive : 0 < size) (bytes : n * size < 2^32) :
    WaitMeansOver (burstGroup rounds n 1 phyAddr size data memory) ↔ n = 1 := by
  constructor
  · intro means
    by_contra other
    have two : 2 * size ≤ n * size := Nat.mul_le_mul_right _ (by omega)
    have more : size < n * size := by omega
    exact wait_early (g := burstGroup rounds n 1 phyAddr size data memory) (by omega) some calls
      rfl rfl rfl positive more means
  · rintro rfl
    exact wait_single (by omega) (by omega)

theorem wait_means_over_one_chunk :
    WaitMeansOver (burstGroup (fun _ : Fin 2 => 3) 1 1 64 4 id fun _ => 0) :=
  (wait_means_over_iff (by decide) (by decide) (by decide) (by decide) (by decide) (by decide)).mpr rfl

theorem two_chunks_wait_early :
    ¬ WaitMeansOver (burstGroup (fun _ : Fin 1 => 2) 2 1 64 1 id fun _ => 0) :=
  wait_early (by decide) (by decide) (by decide) rfl rfl rfl (by decide) (by decide)

end Waits

end MangoModel
