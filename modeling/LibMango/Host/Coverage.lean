import LibMango.Host.Burst
import LibMango.Interleave.Answers
import Mathlib.Algebra.Order.Floor.Div

namespace MangoModel.Host

open Interleave Device

variable {ρ T β : Type}

/-- Whenever the program polls the register, some later poll finds the state it waits for. -/
def Served (e : ρ) (ready : MangoEventStatus) (answers : Nat → Nat) (p : Prog (Op ρ) Nat) : Prop :=
  ∀ time, (p.left answers time).nextOp = some (.readSynchronization e) →
    ∃ later, time ≤ later ∧ (p.left answers later).nextOp = some (.readSynchronization e) ∧
      answers later = ready.value

namespace SynchPoint

variable (b : FifoBuffer ρ) {ready : MangoEventStatus} (posted : MangoEventStatus)
  (transfer : Transfer ρ T) (globalSize : Nat) (answers : Nat → Nat) (time : Nat)

theorem turn_poll (off : Nat) :
    (prog b posted transfer globalSize (.poll off : SynchPoint ready T)).turn answers time = none := by
  have starts : (transferring b posted transfer off).nextOp ≠ none := by
    rw [transferring, transfer.text_eq]
    exact elim_busy b posted transfer off transfer.first
  refine Prog.value_of_busy ?_
  rw [Prog.answered, eventWaitState_eq, mangoWait_step]
  split
  · exact Option.some_ne_none _
  · split
    · exact starts
    · exact Option.some_ne_none _

theorem turn_back (off value : Nat) (other : value ≠ ready.value) :
    (prog b posted transfer globalSize (.back off value other : SynchPoint ready T)).turn answers time =
      none := by
  refine Prog.value_of_busy ?_
  rw [Prog.answered, waitBack_step, if_neg other]
  exact Option.some_ne_none _

theorem turn_inside (off : Nat) (t : T) :
    (prog b posted transfer globalSize (.inside off t : SynchPoint ready T)).turn answers time =
      none := by
  refine Prog.value_of_busy ?_
  rw [Prog.answered, transfer.step_eq]
  exact elim_busy b posted transfer off _

end SynchPoint

section Runs

variable {b : FifoBuffer ρ} {ready posted : MangoEventStatus} {transfer : Transfer ρ T}
  {globalSize : Nat} {answers : Nat → Nat} {observe : Op ρ → Option β} {time off : Nat}
  {seen : List β} {ends : List Nat}

/-- The loop is at the given control point, or behind its end. -/
abbrev Looping (b : FifoBuffer ρ) (ready posted : MangoEventStatus) (transfer : Transfer ρ T)
    (globalSize : Nat) (answers : Nat → Nat) (observe : Op ρ → Option β) :
    Nat → Option (SynchPoint ready T) → List β → List Nat → Prop :=
  Chart.At (synchChart b ready posted transfer globalSize) answers observe ()

theorem Looping.wait (awaited : ready.value ≠ 0)
    (silent : ∀ a : Op ρ, a.synchronizes = true → observe a = none)
    (served : Served b.event ready answers (synch b ready posted transfer.text globalSize).call)
    (polling : Looping b ready posted transfer globalSize answers observe time (some (.poll off)) seen ends) :
    ∃ later, time < later ∧ Looping b ready posted transfer globalSize answers observe later
      (some (.inner off transfer.first)) seen ends := by
  obtain ⟨later, order, polls, found⟩ := served time polling.nextOp
  obtain ⟨rest, rfl⟩ := Nat.exists_eq_add_of_le order
  clear order
  -- the induction is on the time that is left until the poll that succeeds
  induction rest using Nat.strong_induction_on generalizing time with
  | _ rest ih =>
    have step : ∀ place, SynchPoint.next b transfer globalSize (.poll off) (answers time) = place →
        Looping b ready posted transfer globalSize answers observe (time + 1) place seen ends :=
      fun _ next => polling.pass next (silent _ rfl)
        (SynchPoint.turn_poll b posted transfer globalSize answers time off)
    by_cases here : answers time = ready.value
    · exact ⟨time + 1, Nat.lt_succ_self time, step _ ((if_neg (here ▸ awaited)).trans (dif_pos here))⟩
    have positive : rest ≠ 0 := by
      rintro rfl
      exact here found
    by_cases locked : answers time = 0
    · have again : time + 1 + (rest - 1) = time + rest := by omega
      obtain ⟨last, after, reached⟩ := ih (rest - 1) (by omega) (step _ (if_pos locked))
        (again ▸ polls) (again ▸ found)
      exact ⟨last, by omega, reached⟩
    · have back := step _ ((if_neg locked).trans (dif_neg here))
      have unread : rest ≠ 1 := by
        rintro rfl
        cases back.nextOp.symm.trans polls
      have again : time + 1 + 1 + (rest - 2) = time + rest := by omega
      obtain ⟨last, after, reached⟩ := ih (rest - 2) (by omega)
        (back.pass rfl (silent _ rfl) (SynchPoint.turn_back b posted transfer globalSize answers _ off _ here))
        (again ▸ polls) (again ▸ found)
      exact ⟨last, by omega, reached⟩

/-- What a transfer shows of the burst at a given offset. -/
def Shows (b : FifoBuffer ρ) (ready posted : MangoEventStatus) (transfer : Transfer ρ T)
    (globalSize : Nat) (answers : Nat → Nat) (observe : Op ρ → Option β) (shown : Nat → List β) : Prop :=
  ∀ {time off seen ends},
    Looping b ready posted transfer globalSize answers observe time (some (.inner off transfer.first)) seen ends →
    ∃ later, time ≤ later ∧ Looping b ready posted transfer globalSize answers observe later
      (some (.post off)) (seen ++ shown off) ends

variable {shown : Nat → List β}

theorem Looping.burst (awaited : ready.value ≠ 0)
    (silent : ∀ a : Op ρ, a.synchronizes = true → observe a = none)
    (served : Served b.event ready answers (synch b ready posted transfer.text globalSize).call)
    (shows_ : Shows b ready posted transfer globalSize answers observe shown)
    (polling : Looping b ready posted transfer globalSize answers observe time (some (.poll off)) seen ends) :
    ∃ later, time < later ∧ Looping b ready posted transfer globalSize answers observe later
      (if uint32 (off + b.size) < globalSize then some (.poll (uint32 (off + b.size))) else none)
      (seen ++ shown off) (ends ++ [uint32 (off + b.size)]) := by
  obtain ⟨found, after, moving⟩ := polling.wait awaited silent served
  obtain ⟨moved, also, posting⟩ := shows_ moving
  have done := posting.step
  rw [silent _ rfl, Option.toList_none, List.append_nil] at done
  exact ⟨moved + 1, by omega, done⟩

/-- Where the loop is after the given number of bursts. -/
def pointAfter (size globalSize count : Nat) : Option (SynchPoint ready T) :=
  if uint32 (count * size) < globalSize then some (.poll (uint32 (count * size))) else none

theorem Looping.bursts (awaited : ready.value ≠ 0)
    (silent : ∀ a : Op ρ, a.synchronizes = true → observe a = none)
    (served : Served b.event ready answers (synch b ready posted transfer.text globalSize).call)
    (shows_ : Shows b ready posted transfer globalSize answers observe shown)
    (word : globalSize < 2^32) {count : Nat} (short : ∀ i < count, i * b.size < globalSize) :
    ∃ time, count ≤ time ∧ Looping b ready posted transfer globalSize answers observe time
      (pointAfter b.size globalSize count) ((List.range count).flatMap fun i => shown (i * b.size))
      ((List.range count).map fun i => uint32 ((i + 1) * b.size)) := by
  induction count with
  | zero =>
    refine ⟨0, Nat.le_refl 0, ?_⟩
    have start : Looping b ready posted transfer globalSize answers observe 0 _ [] [] := Chart.At.start
    rw [pointAfter, Nat.zero_mul]
    exact start
  | succ count ih =>
    obtain ⟨time, bound, reached⟩ := ih fun i before => short i (by omega)
    have more := short count (Nat.lt_succ_self count)
    have here : uint32 (count * b.size) = count * b.size := uint32_of_lt (by omega)
    rw [pointAfter, here, if_pos more] at reached
    obtain ⟨later, after, burst⟩ := reached.burst awaited silent served shows_
    rw [← Nat.succ_mul] at burst
    refine ⟨later, by omega, ?_⟩
    rw [List.range_succ, List.flatMap_append, List.flatMap_singleton, List.map_append, List.map_singleton]
    exact burst

end Runs

section Rounding

variable {size globalSize : Nat}

theorem mul_lt_of_lt_ceilDiv (positive : 0 < size) {i : Nat} (short : i < globalSize ⌈/⌉ size) :
    i * size < globalSize := by
  by_contra all
  have enough : globalSize ⌈/⌉ size ≤ i := (ceilDiv_le_iff_le_mul positive).mpr (by rw [Nat.mul_comm]; omega)
  omega

theorem le_ceilDiv_mul (globalSize : Nat) (positive : 0 < size) : globalSize ≤ globalSize ⌈/⌉ size * size := by
  rw [Nat.mul_comm]
  exact (ceilDiv_le_iff_le_mul positive).mp (Nat.le_refl _)

theorem ceilDiv_mul_lt (globalSize : Nat) (positive : 0 < size) : globalSize ⌈/⌉ size * size < globalSize + size := by
  cases bursts : globalSize ⌈/⌉ size with
  | zero => omega
  | succ last =>
    have short : last * size < globalSize := mul_lt_of_lt_ceilDiv positive (by omega)
    rw [Nat.succ_mul]
    omega

theorem ceilDiv_mul_eq_iff (positive : 0 < size) :
    globalSize ⌈/⌉ size * size = globalSize ↔ size ∣ globalSize := by
  constructor
  · intro whole
    exact ⟨_, by rw [Nat.mul_comm]; exact whole.symm⟩
  · rintro ⟨bursts, rfl⟩
    have exact_ : (size * bursts) ⌈/⌉ size = bursts := smul_ceilDiv positive bursts
    rw [exact_, Nat.mul_comm]

theorem flatMap_bursts (byte : Nat → β) (count : Nat) :
    ((List.range count).flatMap fun i => (List.range size).map fun j => byte (i * size + j)) =
      (List.range (count * size)).map byte := by
  induction count with
  | zero => simp
  | succ count ih =>
    rw [List.range_succ, List.flatMap_append, List.flatMap_singleton, ih, Nat.succ_mul, List.range_add,
      List.map_append, List.map_map]
    rfl

end Rounding

/-- The byte of host memory that `hn_write_memory` hands to the device. -/
def stored : Op ρ → Option Nat
  | .storeByte _ byte => some byte
  | _ => none

/-- The place in host memory that `hn_read_memory` writes to. -/
def keptAt : Op ρ → Option Nat
  | .keepByte offset _ => some offset
  | _ => none

theorem stored_silent (a : Op ρ) (synchronizes : a.synchronizes = true) : stored a = none := by
  cases a <;> first | rfl | cases synchronizes

theorem keptAt_silent (a : Op ρ) (synchronizes : a.synchronizes = true) : keptAt a = none := by
  cases a <;> first | rfl | cases synchronizes

section Transfers

variable (b : FifoBuffer ρ) (data : Nat → Nat) (globalSize : Nat) (answers : Nat → Nat)

theorem write_shows_from {time off j rest : Nat} {seen ends : List Nat} (size : j + rest = b.size)
    (moving : Looping b .WRITE .READ (writeTransfer b data) globalSize answers stored time
      (some (.inner off (byteFrom b.size j))) seen ends) :
    ∃ later, time ≤ later ∧ Looping b .WRITE .READ (writeTransfer b data) globalSize answers stored later
      (some (.post off)) (seen ++ (List.range' j rest).map fun j => data (off + j)) ends := by
  induction rest generalizing time j seen with
  | zero =>
    have all : ¬ j < b.size := by omega
    rw [byteFrom, if_neg all] at moving
    refine ⟨time, Nat.le_refl time, ?_⟩
    rw [List.range'_zero, List.map_nil, List.append_nil]
    exact moving
  | succ rest ih =>
    have more : j < b.size := by omega
    rw [byteFrom, if_pos more] at moving
    obtain ⟨later, after, reached⟩ := ih (by omega)
      (moving.inside rfl (SynchPoint.turn_inside b _ _ globalSize answers time off j))
    refine ⟨later, by omega, ?_⟩
    rw [List.append_assoc] at reached
    exact reached

theorem write_shows : Shows b .WRITE .READ (writeTransfer b data) globalSize answers stored
    fun off => (List.range b.size).map fun j => data (off + j) := by
  intro time off seen ends moving
  rw [List.range_eq_range']
  exact write_shows_from b data globalSize answers (Nat.zero_add _) moving

theorem read_shows_from {time off j rest : Nat} {seen ends : List Nat} (size : j + rest = b.size)
    (moving : Looping b .READ .WRITE (readTransfer b) globalSize answers keptAt time
      (some (.inner off ((byteFrom b.size j).map .load))) seen ends) :
    ∃ later, time ≤ later ∧ Looping b .READ .WRITE (readTransfer b) globalSize answers keptAt later
      (some (.post off)) (seen ++ (List.range' j rest).map fun j => off + j) ends := by
  induction rest generalizing time j seen with
  | zero =>
    have all : ¬ j < b.size := by omega
    rw [byteFrom, if_neg all] at moving
    refine ⟨time, Nat.le_refl time, ?_⟩
    rw [List.range'_zero, List.map_nil, List.append_nil]
    exact moving
  | succ rest ih =>
    have more : j < b.size := by omega
    rw [byteFrom, if_pos more] at moving
    have loading : Looping b .READ .WRITE (readTransfer b) globalSize answers keptAt time
        (some (.inside off (.load j))) seen ends := moving
    have keeping := loading.pass rfl rfl (SynchPoint.turn_inside b _ _ globalSize answers time off _)
    obtain ⟨later, after, reached⟩ := ih (by omega)
      (keeping.inside rfl (SynchPoint.turn_inside b _ _ globalSize answers _ off _))
    refine ⟨later, by omega, ?_⟩
    rw [List.append_assoc] at reached
    exact reached

theorem read_shows : Shows b .READ .WRITE (readTransfer b) globalSize answers keptAt
    fun off => (List.range b.size).map fun j => off + j := by
  intro time off seen ends moving
  rw [List.range_eq_range']
  exact read_shows_from b globalSize answers (Nat.zero_add _) moving

end Transfers

/-- The call returns, and these were the observations. -/
def Touches (observe : Op ρ → Option β) (answers : Nat → Nat) (p : Prog (Op ρ) Nat) (bytes : List β) : Prop :=
  ∃ time, (p.left answers time).value.isSome ∧ (p.performed answers time).filterMap observe = bytes

theorem Touches.unique {observe : Op ρ → Option β} {answers : Nat → Nat} {p : Prog (Op ρ) Nat}
    {bytes others : List β} (touches : Touches observe answers p bytes)
    (also : Touches observe answers p others) : bytes = others := by
  obtain ⟨time, ended, rfl⟩ := touches
  obtain ⟨other, found, rfl⟩ := also
  obtain ⟨_, ended⟩ := Option.isSome_iff_exists.mp ended
  obtain ⟨_, found⟩ := Option.isSome_iff_exists.mp found
  rw [Prog.performed_unique ended found]

section Coverage

variable {b : FifoBuffer ρ} {ready posted : MangoEventStatus} {transfer : Transfer ρ T} {globalSize : Nat}
  {answers : Nat → Nat} {observe : Op ρ → Option β} (byte : Nat → β)

theorem synch_touches (awaited : ready.value ≠ 0)
    (silent : ∀ a : Op ρ, a.synchronizes = true → observe a = none)
    (shows_ : Shows b ready posted transfer globalSize answers observe
      fun off => (List.range b.size).map fun j => byte (off + j))
    (positive : 0 < b.size) (fits : globalSize ⌈/⌉ b.size * b.size < 2^32)
    (served : Served b.event ready answers (synch b ready posted transfer.text globalSize).call) :
    Touches observe answers (synch b ready posted transfer.text globalSize).call
      ((List.range (globalSize ⌈/⌉ b.size * b.size)).map byte) := by
  have all := le_ceilDiv_mul globalSize positive
  obtain ⟨time, _, reached⟩ := Looping.bursts awaited silent served shows_ (by omega)
    fun i short => mul_lt_of_lt_ceilDiv positive short
  rw [pointAfter, uint32_of_lt fits, if_neg (by omega), flatMap_bursts] at reached
  refine ⟨time, ?_, reached.seen_eq⟩
  exact Option.isSome_iff_exists.mpr ⟨_, reached.ended⟩

theorem touches_iff (awaited : ready.value ≠ 0)
    (silent : ∀ a : Op ρ, a.synchronizes = true → observe a = none)
    (shows_ : Shows b ready posted transfer globalSize answers observe
      fun off => (List.range b.size).map fun j => byte (off + j))
    (positive : 0 < b.size) (fits : globalSize ⌈/⌉ b.size * b.size < 2^32)
    (served : Served b.event ready answers (synch b ready posted transfer.text globalSize).call) :
    Touches observe answers (synch b ready posted transfer.text globalSize).call
      ((List.range globalSize).map byte) ↔ b.size ∣ globalSize := by
  have touched := synch_touches byte awaited silent shows_ positive fits served
  rw [← ceilDiv_mul_eq_iff positive]
  constructor
  · intro exactly
    simpa using congrArg List.length (touched.unique exactly)
  · intro whole
    rwa [whole] at touched

/-- Both transfers touch the bytes they are asked for, in order and no others, exactly when
    the size of a burst divides their number. -/
theorem synch_touches_iff (b : FifoBuffer ρ) (data : Nat → Nat) (globalSize : Nat) (answers : Nat → Nat)
    (positive : 0 < b.size) (fits : globalSize ⌈/⌉ b.size * b.size < 2^32) :
    (Served b.event .WRITE answers (synchWrite b data globalSize).call →
      (Touches stored answers (synchWrite b data globalSize).call ((List.range globalSize).map data) ↔
        b.size ∣ globalSize)) ∧
    (Served b.event .READ answers (synchRead b globalSize).call →
      (Touches keptAt answers (synchRead b globalSize).call (List.range globalSize) ↔
        b.size ∣ globalSize)) := by
  refine ⟨fun served => ?_, fun served => ?_⟩
  · exact touches_iff data (by decide) stored_silent (write_shows b data globalSize answers) positive fits served
  · have iff := touches_iff id (by decide) keptAt_silent (read_shows b globalSize answers)
      positive fits served
    rwa [List.map_id] at iff

theorem served_always (e : ρ) (ready : MangoEventStatus) (p : Prog (Op ρ) Nat) :
    Served e ready (fun _ => ready.value) p :=
  fun time polls => ⟨time, Nat.le_refl time, polls, rfl⟩

theorem synch_touches_iff_even : 2 ∣ 4 ∧
    Touches stored (fun _ => 2) (synchWrite (⟨(), 0, 2⟩ : FifoBuffer Unit) id 4).call [0, 1, 2, 3] ∧
    Touches keptAt (fun _ => 1) (synchRead (⟨(), 0, 2⟩ : FifoBuffer Unit) 4).call [0, 1, 2, 3] :=
  have iff answers := synch_touches_iff (⟨(), 0, 2⟩ : FifoBuffer Unit) id 4 answers (by decide) (by decide)
  ⟨by decide, ((iff _).1 (served_always _ .WRITE _)).mpr (by decide),
    ((iff _).2 (served_always _ .READ _)).mpr (by decide)⟩

/-- Of three bytes, in bursts of two, a fourth one is read and one behind the buffer is written. -/
theorem synch_touches_next_byte :
    (Touches stored (fun _ => 2) (synchWrite (⟨(), 0, 2⟩ : FifoBuffer Unit) id 3).call [0, 1, 2, 3] ∧
      ¬ Touches stored (fun _ => 2) (synchWrite (⟨(), 0, 2⟩ : FifoBuffer Unit) id 3).call [0, 1, 2]) ∧
    Touches keptAt (fun _ => 1) (synchRead (⟨(), 0, 2⟩ : FifoBuffer Unit) 3).call [0, 1, 2, 3] ∧
      ¬ Touches keptAt (fun _ => 1) (synchRead (⟨(), 0, 2⟩ : FifoBuffer Unit) 3).call [0, 1, 2] := by
  have written := synch_touches id (by decide) stored_silent
    (write_shows (⟨(), 0, 2⟩ : FifoBuffer Unit) id 3 fun _ => 2) (by decide) (by decide)
    (served_always _ .WRITE _)
  have kept := synch_touches id (by decide) keptAt_silent
    (read_shows (⟨(), 0, 2⟩ : FifoBuffer Unit) 3 fun _ => 1) (by decide) (by decide)
    (served_always _ .READ _)
  exact ⟨⟨written, fun only => absurd (written.unique only) (by decide)⟩,
    kept, fun only => absurd (kept.unique only) (by decide)⟩

end Coverage

/-- The call returns after this many iterations, the offset growing with each of them. -/
def Bursts (answers : Nat → Nat) (p : Prog (Op ρ) Nat) (count : Nat) : Prop :=
  ∃ time, (p.left answers time).value.isSome ∧ (p.turns answers time).length = count ∧
    (0 :: p.turns answers time).Pairwise (· < ·)

section Termination

variable {b : FifoBuffer ρ} {ready posted : MangoEventStatus} {transfer : Transfer ρ T} {globalSize : Nat}
  {answers : Nat → Nat} {observe : Op ρ → Option β} {shown : Nat → List β}

theorem offsets_ascend {size bursts : Nat} (positive : 0 < size) (fits : bursts * size < 2^32) :
    (0 :: (List.range bursts).map fun i => uint32 ((i + 1) * size)).Pairwise (· < ·) := by
  have offsets : (0 :: (List.range bursts).map fun i => uint32 ((i + 1) * size)) =
      (List.range (bursts + 1)).map (· * size) := by
    rw [List.range_succ_eq_map, List.map_cons, List.map_map, Nat.zero_mul]
    refine congrArg _ (List.map_congr_left fun i inside => ?_)
    have bound := Nat.mul_le_mul_right size (Nat.succ_le_of_lt (List.mem_range.mp inside))
    exact uint32_of_lt (Nat.lt_of_le_of_lt bound fits)
  rw [offsets, List.pairwise_map]
  exact List.pairwise_lt_range.imp fun less => Nat.mul_lt_mul_of_pos_right less positive

/-- An offset that does not fit in 32 bits wraps to one below the global size. -/
theorem wrapped_lt {size : Nat} (positive : 0 < size) (word : size < 2^32) (wide : globalSize < 2^32)
    (wraps : 2^32 ≤ globalSize ⌈/⌉ size * size) : uint32 (globalSize ⌈/⌉ size * size) < globalSize := by
  have bound := ceilDiv_mul_lt globalSize positive
  unfold uint32
  omega

theorem bursts_iff (awaited : ready.value ≠ 0)
    (silent : ∀ a : Op ρ, a.synchronizes = true → observe a = none)
    (shows_ : Shows b ready posted transfer globalSize answers observe shown)
    (positive : 0 < b.size) (word : b.size < 2^32) (wide : globalSize < 2^32)
    (served : Served b.event ready answers (synch b ready posted transfer.text globalSize).call) :
    Bursts answers (synch b ready posted transfer.text globalSize).call (globalSize ⌈/⌉ b.size) ↔
      globalSize ⌈/⌉ b.size * b.size < 2^32 := by
  have all := le_ceilDiv_mul globalSize positive
  obtain ⟨time, _, reached⟩ := Looping.bursts awaited silent served shows_ wide
    fun i short => mul_lt_of_lt_ceilDiv positive short
  constructor
  · rintro ⟨last, ended, count, _⟩
    by_contra wraps
    rw [pointAfter, if_pos (wrapped_lt positive word wide (by omega))] at reached
    -- one iteration more, although the call has ended
    obtain ⟨later, _, again⟩ := reached.burst awaited silent served shows_
    obtain ⟨_, ended⟩ := Option.isSome_iff_exists.mp ended
    have longer := (Prog.turns_prefix_of_value ended later).length_le
    have turned := congrArg List.length again.ends_eq
    simp only [List.length_append, List.length_map, List.length_range, List.length_singleton] at turned
    exact absurd (count ▸ turned ▸ longer : globalSize ⌈/⌉ b.size + 1 ≤ _) (by omega)
  · intro fits
    rw [pointAfter, uint32_of_lt fits, if_neg (by omega)] at reached
    refine ⟨time, Option.isSome_iff_exists.mpr ⟨_, reached.ended⟩, ?_⟩
    have turned := reached.ends_eq
    refine ⟨?_, ?_⟩
    · exact (congrArg List.length turned).trans (by simp)
    · exact turned ▸ offsets_ascend positive fits

/-- The loops end after as many iterations as the size needs, unless the offset behind the
    last burst does not fit in 32 bits. -/
theorem synch_bursts_iff (b : FifoBuffer ρ) (data : Nat → Nat) (globalSize : Nat) (answers : Nat → Nat)
    (positive : 0 < b.size) (word : b.size < 2^32) (wide : globalSize < 2^32) :
    (Served b.event .WRITE answers (synchWrite b data globalSize).call →
      (Bursts answers (synchWrite b data globalSize).call (globalSize ⌈/⌉ b.size) ↔
        globalSize ⌈/⌉ b.size * b.size < 2^32)) ∧
    (Served b.event .READ answers (synchRead b globalSize).call →
      (Bursts answers (synchRead b globalSize).call (globalSize ⌈/⌉ b.size) ↔
        globalSize ⌈/⌉ b.size * b.size < 2^32)) :=
  ⟨bursts_iff (by decide) stored_silent (write_shows b data globalSize answers) positive word wide,
    bursts_iff (by decide) keptAt_silent (read_shows b globalSize answers) positive word wide⟩

theorem synch_bursts_iff_three :
    Bursts (fun _ => 2) (synchWrite (⟨(), 0, 4⟩ : FifoBuffer Unit) id 10).call 3 ∧
    Bursts (fun _ => 1) (synchRead (⟨(), 0, 4⟩ : FifoBuffer Unit) 10).call 3 :=
  have iff answers := synch_bursts_iff (⟨(), 0, 4⟩ : FifoBuffer Unit) id 10 answers (by decide) (by decide)
    (by decide)
  ⟨((iff _).1 (served_always _ .WRITE _)).mpr (by decide),
    ((iff _).2 (served_always _ .READ _)).mpr (by decide)⟩

/-- Two bursts of half the address space each: the offset behind the second one is zero again. -/
theorem synch_bursts_wrap :
    ¬ Bursts (fun _ => 2) (synchWrite (⟨(), 0, 2^31⟩ : FifoBuffer Unit) id (2^31 + 1)).call
        ((2^31 + 1) ⌈/⌉ 2^31) ∧
    ¬ Bursts (fun _ => 1) (synchRead (⟨(), 0, 2^31⟩ : FifoBuffer Unit) (2^31 + 1)).call
        ((2^31 + 1) ⌈/⌉ 2^31) :=
  ⟨fun bursts => absurd ((bursts_iff (by decide) stored_silent (write_shows _ _ _ _) (by decide) (by decide)
      (by decide) (served_always _ .WRITE _)).mp bursts) (by decide),
    fun bursts => absurd ((bursts_iff (by decide) keptAt_silent (read_shows _ _ _) (by decide) (by decide)
      (by decide) (served_always _ .READ _)).mp bursts) (by decide)⟩

end Termination

end MangoModel.Host
