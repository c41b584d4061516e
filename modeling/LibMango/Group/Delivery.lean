import LibMango.Group.Fifo

namespace MangoModel

open Interleave Device Host

variable {N : Nat} {g : Group N} {released posted : Nat} {leader : Option (Fin N)}
  {w : GroupPlaces N}

theorem phaseOf_other {j : Party N} (other : ∀ i, j ≠ .task i) :
    phaseOf leader (w.step (g.act overwrite) j) = phaseOf leader w := by
  rcases leader with _ | i
  · rfl
  · simp only [phaseOf, Option.elim_some, World.step_proc_other (Ne.symm (other i)) w]

theorem FifoPhase.Circulates.small {phase : FifoPhase} {value : Nat}
    (circulates : phase.Circulates released posted value) : value < 2^32 := by
  cases phase <;> simp only [FifoPhase.Circulates] at circulates <;> omega

theorem FifoPhase.Circulates.post {phase : FifoPhase}
    (circulates : phase.Circulates released posted MangoEventStatus.WRITE.value) :
    phase.Counts released (posted + 1) ∧
      phase.Circulates released (posted + 1) MangoEventStatus.READ.value := by
  cases phase with
  | before =>
    rcases circulates with ⟨zero, ⟨_, fresh⟩ | ⟨other, _⟩⟩ | ⟨_, other, _⟩
    · exact ⟨.inl ⟨zero, by omega⟩, .inl ⟨zero, .inr ⟨rfl, by omega⟩⟩⟩
    · cases other
    · cases other
  | asked =>
    rcases circulates with ⟨_, same⟩ | ⟨other, _⟩
    · exact ⟨.inr (by omega), .inr ⟨rfl, by omega⟩⟩
    · cases other
  | after => cases circulates.1
  | _ => exact circulates.elim

section HostSteps

variable {p : SynchPoint .WRITE Nat} {calls : List Unit}

theorem step_host (here : w.proc .host = ⟨some p, calls⟩) :
    w.step (g.act overwrite) .host =
      ⟨Function.update w.proc .host
          ⟨p.next g.buffer (writeTransfer g.buffer g.data) g.globalSize
            ((p.op g.buffer .READ (writeTransfer g.buffer g.data)).answer w.shared), calls⟩,
        (exec overwrite .host (p.op g.buffer .READ (writeTransfer g.buffer g.data)) w.shared).2⟩ :=
  Places.step_op here

theorem host_place {q : Option (SynchPoint .WRITE Nat)} (here : w.proc .host = ⟨some p, calls⟩)
    (goes : p.next g.buffer (writeTransfer g.buffer g.data) g.globalSize
      ((p.op g.buffer .READ (writeTransfer g.buffer g.data)).answer w.shared) = q) :
    (w.step (g.act overwrite) .host).proc .host = ⟨q, calls⟩ := by
  rw [step_host here, goes]
  simp only [Function.update_self]

theorem host_shared (here : w.proc .host = ⟨some p, calls⟩) :
    (w.step (g.act overwrite) .host).shared =
      (exec overwrite .host (p.op g.buffer .READ (writeTransfer g.buffer g.data)) w.shared).2 := by
  rw [step_host here]

theorem inner_byte (off size j : Nat) :
    (SynchPoint.inner off (byteFrom size j) : SynchPoint .WRITE Nat) =
      if j < size then .inside off j else .post off := by
  unfold byteFrom
  split <;> rfl

theorem Delivery.host_keeps (d : Delivery g released leader posted w)
    (host : Posted g posted ((w.step (g.act overwrite) .host).proc .host)
      (w.step (g.act overwrite) .host).shared.memory
      ((w.step (g.act overwrite) .host).shared.count Op.stores))
    (filled : ∀ value ≠ 0, (w.step (g.act overwrite) .host).shared.regs.value .fifo = value →
      Carries w value)
    (held : ∀ value, hostHolds ((w.step (g.act overwrite) .host).proc .host) = some value →
      Carries w value) :
    Delivery g released leader posted (w.step (g.act overwrite) .host) where
  host := host
  counts := by
    rw [phaseOf_other (by simp)]
    exact d.counts
  carried value carries := by
    rw [phaseOf_other (by simp)]
    rcases carries with ⟨some, found⟩ | mine | waits
    · exact d.carried value (filled value some found)
    · exact d.carried value (held value mine)
    · rw [World.step_proc_other (by simp) w] at waits
      exact d.carried value (.inr (.inr waits))

theorem Delivery.host_polls (d : Delivery g released leader posted w)
    (here : w.proc .host = ⟨some (.poll (posted * g.size)), []⟩) (positive : 0 < g.size)
    (more : posted * g.size < g.globalSize) (fitting : (posted + 1) * g.size ≤ g.globalSize)
    (chunk : Chunk g posted w.shared.memory)
    (stores : w.shared.count Op.stores = posted * g.size) :
    Delivery g released leader posted (w.step (g.act overwrite) .host) := by
  have shared := host_shared (g := g) here
  have empty : (w.step (g.act overwrite) .host).shared.regs.value .fifo = 0 := by
    rw [shared]
    exact Custody.take_value_self _ _ _
  have stored : (w.step (g.act overwrite) .host).shared.count Op.stores = posted * g.size := by
    rw [shared, exec_count, stores]
    rfl
  have memory : (w.step (g.act overwrite) .host).shared.memory = w.shared.memory := by
    rw [shared]
    rfl
  have keeps : ∀ {q : Option (SynchPoint .WRITE Nat)},
      (SynchPoint.poll (posted * g.size) : SynchPoint .WRITE Nat).next g.buffer
        (writeTransfer g.buffer g.data) g.globalSize (w.shared.regs.value .fifo) = q →
      Posted g posted ⟨q, []⟩ w.shared.memory (posted * g.size) →
      (∀ value, hostHolds ⟨q, []⟩ = some value → Carries w value) →
      Delivery g released leader posted (w.step (g.act overwrite) .host) := by
    intro q goes host held
    have place := host_place here goes
    refine d.host_keeps ?_ (fun value some found => absurd (found.symm.trans empty) some) (place ▸ held)
    rwa [place, memory, stored]
  by_cases filled : w.shared.regs.value .fifo = 0
  · apply keeps (if_pos filled) (.waiting (.polling more) more.le chunk)
    simp [hostHolds]
  · by_cases ready : w.shared.regs.value .fifo = MangoEventStatus.WRITE.value
    · have starts := inner_byte (posted * g.size) g.size 0
      rw [if_pos positive] at starts
      refine keeps ?_ (.storing positive fitting (by simp)) ?_
      · rw [SynchPoint.next, if_neg filled, dif_pos ready, ← starts]
        rfl
      · rintro value held
        exact .inl (Option.some.inj held ▸ ⟨by decide, ready⟩)
    · apply keeps ((if_neg filled).trans (dif_neg ready)) (.back more chunk)
      rintro value held
      exact .inl (Option.some.inj held ▸ ⟨filled, rfl⟩)

theorem Delivery.host_backs (d : Delivery g released leader posted w) {value : Nat}
    {other : value ≠ MangoEventStatus.WRITE.value}
    (here : w.proc .host = ⟨some (.back (posted * g.size) value other), []⟩)
    (more : posted * g.size < g.globalSize) (chunk : Chunk g posted w.shared.memory)
    (stores : w.shared.count Op.stores = posted * g.size) :
    Delivery g released leader posted (w.step (g.act overwrite) .host) := by
  have mine : Carries w value := by
    refine .inr (.inl ?_)
    rw [here]
    rfl
  have shared := host_shared (g := g) here
  have place := host_place (g := g) here rfl
  have stored : (w.step (g.act overwrite) .host).shared.count Op.stores = posted * g.size := by
    rw [shared, exec_count, stores]
    rfl
  refine d.host_keeps ?_ (fun found some filled => ?_) (fun found held => ?_)
  · rw [place, stored, shared]
    exact .waiting (.polling more) more.le chunk
  · rw [shared] at filled
    have written : value = found := (put_overwrite (d.carried value mine).small).symm.trans filled
    exact written ▸ mine
  · rw [place] at held
    cases held

theorem Delivery.host_stores (d : Delivery g released leader posted w) {j : Nat}
    (here : w.proc .host = ⟨some (.inside (posted * g.size) j), []⟩) (inside : j < g.size)
    (fitting : (posted + 1) * g.size ≤ g.globalSize)
    (bytes : ∀ k < j, w.shared.memory (g.phyAddr + k) = g.data (posted * g.size + k))
    (stores : w.shared.count Op.stores = posted * g.size + j) :
    Delivery g released leader posted (w.step (g.act overwrite) .host) := by
  have mine : Carries w MangoEventStatus.WRITE.value := by
    refine .inr (.inl ?_)
    rw [here]
    rfl
  have shared := host_shared (g := g) here
  have stored : (w.step (g.act overwrite) .host).shared.count Op.stores = posted * g.size + (j + 1) := by
    rw [shared, exec_count, stores]
    rfl
  have bytes' : ∀ k < j + 1, (w.step (g.act overwrite) .host).shared.memory (g.phyAddr + k) =
      g.data (posted * g.size + k) := by
    intro k before
    rw [shared]
    show Function.update w.shared.memory (g.phyAddr + j) _ _ = _
    by_cases last : k = j
    · subst last
      exact Function.update_self _ _ _
    · rw [Function.update_of_ne (by omega)]
      exact bytes k (by omega)
  have place := host_place (g := g) here rfl
  have goes := inner_byte (posted * g.size) g.size (j + 1)
  refine d.host_keeps ?_ (fun found some filled => ?_) (fun found held => ?_)
  · rw [place, stored]
    show Posted g posted ⟨some (SynchPoint.inner _ (byteFrom g.size (j + 1))), []⟩ _ _
    rw [goes]
    split
    · next next => exact .storing next fitting bytes'
    · have all : j + 1 = g.size := by omega
      rw [all] at bytes' ⊢
      exact .stored fitting bytes'
  · rw [shared] at filled
    exact .inl ⟨some, filled⟩
  · have sent : found = MangoEventStatus.WRITE.value := by
      rw [place] at held
      change hostHolds ⟨some (SynchPoint.inner _ (byteFrom g.size (j + 1))), []⟩ = some found at held
      rw [goes] at held
      split at held <;> exact (Option.some.inj held).symm
    exact sent ▸ mine

theorem Delivery.host_posts (d : Delivery g released leader posted w)
    (sound : Custody.Sound (Places.debt debts w) w.shared.regs)
    (here : w.proc .host = ⟨some (.post (posted * g.size)), []⟩) (fits : g.globalSize < 2^32)
    (fitting : (posted + 1) * g.size ≤ g.globalSize)
    (bytes : ∀ k < g.size, w.shared.memory (g.phyAddr + k) = g.data (posted * g.size + k))
    (stores : w.shared.count Op.stores = posted * g.size + g.size) :
    Delivery g released leader (posted + 1) (w.step (g.act overwrite) .host) := by
  have next : posted * g.size + g.size = (posted + 1) * g.size := (Nat.succ_mul _ _).symm
  have owed : Places.debt debts w .host = some .fifo := by
    rw [Places.debt, here]
    rfl
  have circulates := d.carried MangoEventStatus.WRITE.value (by
    refine .inr (.inl ?_)
    rw [here]
    rfl)
  have shared := host_shared (g := g) here
  have place := host_place (g := g) here rfl
  have offset : uint32 (posted * g.size + g.size) = (posted + 1) * g.size := by
    rw [next, uint32_of_lt (by omega)]
  have stored : (w.step (g.act overwrite) .host).shared.count Op.stores = (posted + 1) * g.size := by
    rw [shared, exec_count, stores, ← next]
    rfl
  refine ⟨?_, ?_, fun value carries => ?_⟩
  · rw [place, stored, shared]
    refine .waiting ?_ fitting fun _ j before => ?_
    · show SynchPoint.Waiting _ _ ⟨if uint32 (posted * g.size + g.size) < g.globalSize then
        some (.poll (uint32 (posted * g.size + g.size))) else none, []⟩
      rw [offset]
      exact SynchPoint.waiting_from fitting
    · rw [Nat.add_sub_cancel]
      exact bytes j before
  · rw [phaseOf_other (by simp)]
    exact circulates.post.1
  · rw [phaseOf_other (by simp)]
    have posts : value = MangoEventStatus.READ.value := by
      rcases carries with ⟨some, found⟩ | held | held
      · rw [shared] at found
        exact found.symm.trans (put_overwrite (by decide))
      · rw [place] at held
        change hostHolds ⟨if uint32 (posted * g.size + g.size) < g.globalSize then _ else none, []⟩ =
          some value at held
        split at held <;> cases held
      · rw [World.step_proc_other (by simp) w] at held
        exact absurd (sound.owner_unique owed (waiterHolds_owes held)) (by simp)
    exact posts ▸ circulates.post.2

theorem chunk_fits {size total k : Nat} (whole : size ∣ total) (more : k * size < total) :
    (k + 1) * size ≤ total := by
  obtain ⟨chunks, rfl⟩ := whole
  rw [Nat.mul_comm size] at more ⊢
  exact Nat.mul_le_mul_right _ (Nat.lt_of_mul_lt_mul_right more)

theorem Delivery.step_host (d : Delivery g released leader posted w)
    (sound : Custody.Sound (Places.debt debts w) w.shared.regs)
    (whole : g.size ∣ g.globalSize) (fits : g.globalSize < 2^32) :
    ∃ posted', Delivery g released leader posted' (w.step (g.act overwrite) .host) := by
  have host := d.host
  generalize here : w.proc .host = l at host
  generalize memory : w.shared.memory = m at host
  generalize stores : w.shared.count Op.stores = stored at host
  cases host with
  | waiting waiting bound chunk =>
    subst memory
    cases waiting with
    | fresh start =>
      have entered : w.step (g.act overwrite) .host =
          ⟨Function.update w.proc .host ⟨if 0 < g.globalSize then some (.poll 0) else none, []⟩,
            w.shared⟩ := Places.step_enter here
      have place : (w.step (g.act overwrite) .host).proc .host =
          ⟨if 0 < g.globalSize then some (.poll 0) else none, []⟩ := by
        rw [entered]
        simp only [Function.update_self]
      refine ⟨posted, d.host_keeps ?_ (fun value some found => .inl ⟨some, ?_⟩) fun value held => ?_⟩
      · rw [place, entered, stores]
        refine .waiting ?_ bound chunk
        rw [start]
        exact SynchPoint.waiting_from (Nat.zero_le _)
      · rw [← found, entered]
      · rw [place] at held
        split at held <;> cases held
    | polling more =>
      have positive : 0 < g.size := Nat.pos_of_dvd_of_pos whole (by omega)
      exact ⟨posted, d.host_polls here positive more (chunk_fits whole more) chunk stores⟩
    | done all =>
      rw [Places.step_finished here]
      exact ⟨posted, d⟩
  | back more chunk =>
    subst memory
    exact ⟨posted, d.host_backs here more chunk stores⟩
  | storing inside fitting bytes =>
    subst memory
    exact ⟨posted, d.host_stores here inside fitting bytes stores⟩
  | stored fitting bytes =>
    subst memory
    exact ⟨posted + 1, d.host_posts sound here fits fitting bytes stores⟩

end HostSteps

section OtherSteps

theorem Delivery.step_spawner (d : Delivery g released leader posted w) :
    Delivery g released leader posted (w.step (g.act overwrite) .spawner) := by
  have fifo : (w.step (g.act overwrite) .spawner).shared.regs.value .fifo =
      w.shared.regs.value .fifo := by
    apply step_keeps_value
    intro p
    cases p <;> simp [Group.charts, joinChart, JoinPoint.op, Op.written]
  have kept : (w.step (g.act overwrite) .spawner).shared.memory = w.shared.memory ∧
      (w.step (g.act overwrite) .spawner).shared.count Op.stores = w.shared.count Op.stores := by
    rcases here : w.proc .spawner with ⟨_ | p, _ | ⟨call, calls⟩⟩
    · rw [Places.step_finished here]
      exact ⟨rfl, rfl⟩
    · rw [Places.step_enter here]
      exact ⟨rfl, rfl⟩
    all_goals
      rw [Places.step_op here, exec_memory, exec_count]
      cases p <;> exact ⟨rfl, rfl⟩
  exact d.congr (World.step_proc_other (by simp) w) (World.step_proc_other (by simp) w) kept.1 kept.2
    fifo rfl (phaseOf_other (by simp))

theorem step_waiter {p : WaitPoint} {calls : List Unit} (here : w.proc .waiter = ⟨some p, calls⟩) :
    w.step (g.act overwrite) .waiter =
      ⟨Function.update w.proc .waiter
          ⟨p.next MangoEventStatus.END_FIFO_OPERATION.value ((p.op GroupReg.fifo).answer w.shared), calls⟩,
        (exec overwrite .waiter (p.op GroupReg.fifo) w.shared).2⟩ :=
  Places.step_op here

theorem Delivery.step_waiter (d : Delivery g released leader posted w) :
    Delivery g released leader posted (w.step (g.act overwrite) .waiter) := by
  have moves : (w.step (g.act overwrite) .waiter).shared.memory = w.shared.memory →
      (w.step (g.act overwrite) .waiter).shared.count Op.stores = w.shared.count Op.stores →
      (∀ value ≠ 0, (w.step (g.act overwrite) .waiter).shared.regs.value .fifo = value →
        Carries w value) →
      (∀ value, waiterHolds ((w.step (g.act overwrite) .waiter).proc .waiter) = some value →
        Carries w value) → Delivery g released leader posted (w.step (g.act overwrite) .waiter) := by
    intro memory stores filled held
    refine d.move (World.step_proc_other (by simp) w) memory stores ?_ fun value carries => ?_
    · rw [phaseOf_other (by simp)]
      exact d.counts
    · rw [phaseOf_other (by simp)]
      rcases carries with ⟨some, found⟩ | mine | waits
      · exact d.carried value (filled value some found)
      · rw [World.step_proc_other (by simp) w] at mine
        exact d.carried value (.inr (.inl mine))
      · exact d.carried value (held value waits)
  rcases here : w.proc .waiter with ⟨_ | p, calls⟩
  · cases calls with
    | nil =>
      rw [Places.step_finished here]
      exact d
    | cons call calls =>
      rw [Places.step_enter here] at moves ⊢
      refine moves rfl rfl (fun value some found => .inl ⟨some, found⟩) fun value held => ?_
      simp only [Function.update_self] at held
      cases held
  · rw [MangoModel.step_waiter here] at moves ⊢
    cases p with
    | poll =>
      refine moves rfl (exec_count _ _ _ _ _) (fun value some found => ?_) fun value held => ?_
      · exact absurd (found.symm.trans (Custody.take_value_self _ _ _)) some
      · simp only [Function.update_self] at held
        rcases await_cases WaitPoint.poll (w.shared.regs.value .fifo)
          MangoEventStatus.END_FIFO_OPERATION.value (.back (w.shared.regs.value .fifo)) none
          with ⟨_, goes⟩ | ⟨_, _, goes⟩ | ⟨filled, _, goes⟩
        · rw [waiterHolds, WaitPoint.next, show (WaitPoint.poll.op GroupReg.fifo).answer w.shared = w.shared.regs.value .fifo from rfl, goes] at held
          cases held
        · rw [waiterHolds, WaitPoint.next, show (WaitPoint.poll.op GroupReg.fifo).answer w.shared = w.shared.regs.value .fifo from rfl, goes] at held
          cases held
        · rw [waiterHolds, WaitPoint.next, show (WaitPoint.poll.op GroupReg.fifo).answer w.shared = w.shared.regs.value .fifo from rfl, goes] at held
          exact .inl ⟨Option.some.inj held ▸ filled, Option.some.inj held⟩
    | back value =>
      have mine : Carries w value := by
        refine .inr (.inr ?_)
        rw [here]
        rfl
      refine moves rfl (exec_count _ _ _ _ _) (fun found some filled => ?_) fun found held => ?_
      · have written : value = found := (put_overwrite (d.carried value mine).small).symm.trans filled
        exact written ▸ mine
      · simp only [Function.update_self] at held
        have goes : (WaitPoint.back value).next MangoEventStatus.END_FIFO_OPERATION.value 0 =
            if value = MangoEventStatus.END_FIFO_OPERATION.value then none else some .poll := rfl
        change waiterHolds ⟨(WaitPoint.back value).next _ 0, calls⟩ = _ at held
        rw [goes] at held
        split at held <;> cases held

end OtherSteps

section Reachable

variable {r : Rounds (Fin N)}

theorem Delivery.step (d : Delivery g r.released leader posted w) (m : Meeting g.rounds r leader w)
    (fits : N + 1 < 2^32) (sound : Custody.Sound (Places.debt debts w) w.shared.regs)
    (uses : g.usesFifo = true) (whole : g.size ∣ g.globalSize)
    (bytes : g.globalSize < 2^32) (j : Party N) :
    ∃ r' leader' posted', Meeting g.rounds r' leader' (w.step (g.act overwrite) j) ∧
      Delivery g r'.released leader' posted' (w.step (g.act overwrite) j) := by
  cases j with
  | spawner => exact ⟨r, leader, posted, m.step_other (by simp), d.step_spawner⟩
  | waiter => exact ⟨r, leader, posted, m.step_other (by simp), d.step_waiter⟩
  | host =>
    obtain ⟨posted', d'⟩ := d.step_host sound whole bytes
    exact ⟨r, leader, posted', m.step_other (by simp), d'⟩
  | task i =>
    obtain ⟨r', leader', m'⟩ := m.step_task fits sound i
    refine ⟨r', leader', posted, m', ?_⟩
    by_cases first : leader = some i
    · exact d.step_leader m m' sound uses first
    · refine d.step_follower m m' (Bool.eq_false_iff.mpr fun leads => first ((m.leads i).mp leads))

variable {rounds : Fin N → Nat} {chunks waits phyAddr size : Nat} {data memory : Nat → Nat}

theorem delivery_start :
    Delivery (burstGroup rounds chunks waits phyAddr size data memory) 0 none 0
      (burstGroup rounds chunks waits phyAddr size data memory).places where
  host := by
    have start : Posted (burstGroup rounds chunks waits phyAddr size data memory) 0
        ⟨none, [()]⟩ memory (0 * size) :=
      .waiting (.fresh (Nat.zero_mul _)) (by simp) (fun posted => absurd posted (by decide))
    rw [Nat.zero_mul] at start
    exact start
  counts := .inl ⟨rfl, by decide⟩
  carried value carries := by
    rcases carries with ⟨_, found⟩ | held | held
    · exact .inl ⟨rfl, .inl ⟨found.symm, rfl⟩⟩
    · cases held
    · cases held

theorem delivery_reachable (fits : N + 1 < 2^32) (bytes : chunks * size < 2^32)
    (reach : World.Reachable ((burstGroup rounds chunks waits phyAddr size data memory).act overwrite)
      (burstGroup rounds chunks waits phyAddr size data memory).places w) :
    ∃ r leader posted, Meeting rounds r leader w ∧
      Delivery (burstGroup rounds chunks waits phyAddr size data memory) r.released leader posted w := by
  refine reach.invariant (motive := fun w => ∃ r leader posted, Meeting rounds r leader w ∧
      Delivery (burstGroup rounds chunks waits phyAddr size data memory) r.released leader posted w)
    (fun w j reach kept => ?_)
    ⟨_, _, _, meeting_start (burstGroup rounds chunks waits phyAddr size data memory) fits, delivery_start⟩
  obtain ⟨r, leader, posted, m, d⟩ := kept
  exact d.step m fits (Group.sound _ reach) rfl (Nat.dvd_mul_left _ _) bytes j

/-- Between the release of a round and the arrival of the last task of the next, the chunk of
    the round is in the buffer, and no byte of the next. -/
theorem Delivery.settled (d : Delivery g r.released leader posted w) (m : Meeting g.rounds r leader w)
    {i : Fin N} (absent : r.Absent i) (some : 0 < r.released) :
    (∀ j < g.size, w.shared.memory (g.phyAddr + j) = g.data ((r.released - 1) * g.size + j)) ∧
      w.shared.count Op.stores = r.released * g.size := by
  obtain ⟨rfl, _⟩ := m.absent_present absent
  have posted' : posted = r.released := by
    rcases d.counts with ⟨zero, _⟩ | ⟨_, same⟩
    · omega
    · exact same
  subst posted'
  have idle : hostHolds (w.proc .host) ≠ Option.some MangoEventStatus.WRITE.value := by
    intro held
    rcases d.carried _ (.inr (.inl held)) with ⟨zero, _⟩ | ⟨_, other, _⟩
    · omega
    · cases other
  have host := d.host
  generalize here : w.proc .host = l at host idle
  generalize w.shared.memory = memory at host ⊢
  generalize w.shared.count Op.stores = stored at host ⊢
  cases host with
  | waiting waiting bound chunk => exact ⟨chunk some, rfl⟩
  | back more chunk => exact ⟨chunk some, rfl⟩
  | storing inside fitting bytes => exact absurd rfl idle
  | stored fitting bytes => exact absurd rfl idle

/-- From the release of the tasks' `k`-th barrier until the last of them enters the next one,
    the buffer holds chunk `k`, and the host has stored nothing of the chunks after it. -/
theorem fifo_delivery {N : Nat} (fits : N < 2^31) (rounds : Fin N → Nat) (n phyAddr size : Nat)
    (data memory : Nat → Nat) (bytes : n * size < 2^32) (c : GroupThreads N)
    (reach : (burstGroup rounds n 0 phyAddr size data memory).Reachable overwrite c) (k : Nat)
    (positive : 0 < k) (flipped : k ≤ (releases c.shared.trace).1)
    (outside : ∃ i, min ((c.proc (.task i)).entered (rounds i + 1)) (rounds i) ≤ k) :
    (∀ j < size, c.shared.memory (phyAddr + j) = data ((k - 1) * size + j)) ∧
      c.shared.count Op.stores = k * size := by
  obtain ⟨w, run, rfl⟩ := Group.reachable_places _ reach
  obtain ⟨r, leader, posted, m, d⟩ := delivery_reachable (by omega) bytes run
  obtain ⟨i, outside⟩ := outside
  have entered := (m.member i).le_entered (spawnArgs N i)
    (burstGroup rounds n 0 phyAddr size data memory).fifo
  have arrived : r.arrived i ≤ k := Nat.le_trans (Nat.le_min.mpr entered.symm) outside
  have low := r.released_le i
  rw [World.map_shared, m.released] at flipped
  have same : k = r.released := Nat.le_antisymm flipped (Nat.le_trans low arrived)
  have absent : r.Absent i := Nat.le_antisymm (same ▸ arrived) low
  subst same
  exact d.settled m absent positive

theorem fifo_delivery_first_chunk :
    ((burstGroup (fun _ : Fin 1 => 1) 2 0 64 1 id fun _ => 0).start.run (threadAct (exec overwrite))
      (List.replicate 4 .host ++ List.replicate 17 (.task 0))).shared.count Op.stores = 1 * 1 :=
  (fifo_delivery (by decide) (fun _ => 1) 2 64 1 id (fun _ => 0) (by decide) _
    ((World.Reachable.refl _ _).run _) 1 (by decide) (by decide +kernel)
    ⟨0, Nat.min_le_right _ _⟩).2

end Reachable

end MangoModel
