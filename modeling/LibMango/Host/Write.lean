import LibMango.Host.Burst
import LibMango.Host.Context
import Mathlib.Data.Nat.Find

namespace MangoModel.Host

open Interleave Device

section Memory

abbrev DeviceMemory : Type := Nat → Nat → Nat → Nat

def DeviceMemory.store (m : DeviceMemory) (cluster tile addr byte : Nat) : DeviceMemory :=
  fun c t a => if c = cluster ∧ t = tile ∧ a = addr then byte else m c t a

/-- What a transfer meets: the values its reads of the event's register find, and the memory. -/
structure Transferring where
  answers : List Nat
  memory : DeviceMemory

/-- The operations of a transfer to a tile. -/
def transferExec (cluster tile : Nat) : Op Unit → Transferring → Nat × Transferring
  | .readSynchronization _, s => (s.answers.headD 0, { s with answers := s.answers.tail })
  | .storeByte addr byte, s => (0, { s with memory := s.memory.store cluster tile addr byte })
  | _, s => (0, s)

end Memory

section Write

inductive CommunicationMode where
  | DIRECT
  | BURST
  deriving DecidableEq, Repr

namespace Buffer

variable (b : Buffer) (data : Nat → Nat) (globalSize : Nat)

def fifo : FifoBuffer Unit := ⟨(), b.phyAddr, b.size⟩

/-- `Buffer::write`, and the one of `FIFOBuffer` up to the end of its thread. -/
def write : Text Unit Unit :=
  match b.type with
  | .BUFFER =>
    let globalSize := if globalSize = 0 then b.size else globalSize
    hnWriteMemory b.phyAddr globalSize data
  | .FIFO => do
    let _ ← synchWrite b.fifo data globalSize

end Buffer

/-- The buffer and the transfer; `none` where an assertion fails. The call is virtual, also after the
    cast to `FIFOBuffer`, and its parameter has 32 bits. -/
def mangoWrite (cxt : Context) (data : Nat → Nat) (buffer : Nat) (mode : CommunicationMode)
    (globalSize : Nat) : Option (Buffer × Text Unit Unit) := do
  if mode = .BURST ∧ globalSize = 0 then none
  let b ← cxt.buffers[buffer]?
  if b.event.id = 0 then none
  return (b, b.write data (uint32 globalSize))

def Buffer.Covers (b : Buffer) (cluster tile addr : Nat) : Prop :=
  cluster = b.clusterId ∧ tile = b.memTile ∧ b.phyAddr ≤ addr ∧ addr < b.phyAddr + b.size

/-- No byte outside the buffer has changed, and in DIRECT mode the buffer has the bytes of the host. -/
def Buffer.TransferredTo (b : Buffer) (mode : CommunicationMode) (data : Nat → Nat)
    (before after : DeviceMemory) : Prop :=
  (∀ cluster tile addr, ¬ b.Covers cluster tile addr → after cluster tile addr = before cluster tile addr) ∧
    (mode = .DIRECT → ∀ j < b.size, after b.clusterId b.memTile (b.phyAddr + j) = data j)

/-- Every transfer of the call that ends has been to its own buffer. -/
def TouchesOwn (cxt : Context) (buffer : Nat) (mode : CommunicationMode) (globalSize : Nat) : Prop :=
  ∀ data b transfer, mangoWrite cxt data buffer mode globalSize = some (b, transfer) →
    ∀ fuel answers memory s, transfer.call.alone (transferExec b.clusterId b.memTile) fuel
        ⟨answers, memory⟩ = some s → b.TransferredTo mode data memory s.memory

/-- When that is so; `g` is what is left of the size in 32 bits. -/
def Buffer.Spared (b : Buffer) (mode : CommunicationMode) (g : Nat) : Prop :=
  match b.type, mode with
  | .BUFFER, .DIRECT => g = 0 ∨ g = b.size
  | .BUFFER, .BURST => g ≤ b.size
  | .FIFO, .DIRECT => (g = 0 → b.size = 0) ∧ g ≤ b.size ∨ ∀ k, uint32 (k * b.size) < g
  | .FIFO, .BURST => True

end Write

section Stores

variable (b : Buffer) (bytes : Nat → Nat) (n : Nat) (m : DeviceMemory)

def written : DeviceMemory := fun cluster tile addr =>
  if cluster = b.clusterId ∧ tile = b.memTile ∧ b.phyAddr ≤ addr ∧ addr < b.phyAddr + n then
    bytes (addr - b.phyAddr)
  else m cluster tile addr

theorem written_zero : written b bytes 0 m = m := by
  funext cluster tile addr
  exact if_neg (by omega)

theorem written_store : (written b bytes n m).store b.clusterId b.memTile (b.phyAddr + n) (bytes n) =
    written b bytes (n + 1) m := by
  funext cluster tile addr
  simp only [written, DeviceMemory.store]
  by_cases there : cluster = b.clusterId ∧ tile = b.memTile ∧ addr = b.phyAddr + n
  · obtain ⟨rfl, rfl, rfl⟩ := there
    rw [if_pos ⟨rfl, rfl, rfl⟩, if_pos ⟨rfl, rfl, by omega, by omega⟩, Nat.add_sub_cancel_left]
  · rw [if_neg there]
    by_cases before : cluster = b.clusterId ∧ tile = b.memTile ∧ b.phyAddr ≤ addr ∧ addr < b.phyAddr + n
    · rw [if_pos before, if_pos (by omega)]
    · rw [if_neg before, if_neg (by omega)]

theorem written_again (bytes' : Nat → Nat) :
    written b bytes n (written b bytes' n m) = written b bytes n m := by
  funext cluster tile addr
  simp only [written]
  split <;> rfl

theorem written_in {j : Nat} (below : j < n) :
    written b bytes n m b.clusterId b.memTile (b.phyAddr + j) = bytes j := by
  rw [written, if_pos ⟨rfl, rfl, by omega, by omega⟩, Nat.add_sub_cancel_left]

theorem written_beyond {j : Nat} (beyond : n ≤ j) :
    written b bytes n m b.clusterId b.memTile (b.phyAddr + j) = m b.clusterId b.memTile (b.phyAddr + j) := by
  rw [written, if_neg (by omega)]

theorem written_outside {cluster tile addr : Nat} (fits : n ≤ b.size) (outside : ¬ b.Covers cluster tile addr) :
    written b bytes n m cluster tile addr = m cluster tile addr := by
  rw [written, if_neg]
  rintro ⟨c, t, lower, upper⟩
  exact outside ⟨c, t, lower, by omega⟩

theorem storeBytes_alone (after : Prog (Op Unit) Nat) (answers : List Nat) (j left fuel : Nat) :
    (storeBytes b.phyAddr bytes j left (fun _ => after)).alone (transferExec b.clusterId b.memTile)
        (fuel + left) ⟨answers, written b bytes j m⟩ =
      after.alone (transferExec b.clusterId b.memTile) fuel ⟨answers, written b bytes (j + left) m⟩ := by
  induction left generalizing j with
  | zero => rfl
  | succ left ih =>
    have later := ih (j + 1)
    rw [← written_store, Nat.add_right_comm] at later
    exact later

theorem hnWriteMemory_run (answers : List Nat) (fuel : Nat) :
    (hnWriteMemory b.phyAddr n bytes).call.alone (transferExec b.clusterId b.memTile) (fuel + n)
      ⟨answers, m⟩ = some ⟨answers, written b bytes n m⟩ := by
  have run := storeBytes_alone b bytes m (.ret default) answers 0 n fuel
  rw [written_zero, Nat.zero_add, Prog.alone_ret] at run
  exact run

theorem hnWriteMemory_ends {answers : List Nat} {fuel : Nat} {s : Transferring}
    (ended : (hnWriteMemory b.phyAddr n bytes).call.alone (transferExec b.clusterId b.memTile) fuel
      ⟨answers, m⟩ = some s) : s.memory = written b bytes n m := by
  have more := Prog.alone_more _ ended n
  rw [hnWriteMemory_run] at more
  cases more
  rfl

end Stores

section Bursts

variable (b : Buffer) (data : Nat → Nat) (g : Nat) (m : DeviceMemory)

/-- The loop of `synch_write` ends after `k` bursts. -/
def EndsAfter (size g k : Nat) : Prop := (∀ i < k, uint32 (i * size) < g) ∧ g ≤ uint32 (k * size)

theorem EndsAfter.unique {size g k k' : Nat} (ends : EndsAfter size g k) (ends' : EndsAfter size g k') :
    k = k' := by
  rcases Nat.lt_trichotomy k k' with less | same | more
  · have before := ends'.1 k less
    have after := ends.2
    omega
  · exact same
  · have before := ends.1 k' more
    have after := ends'.2
    omega

theorem endsAfter_of_reached {size g : Nat} (reached : ∃ k, g ≤ uint32 (k * size)) :
    ∃ k, EndsAfter size g k :=
  ⟨Nat.find reached, fun _ before => Nat.lt_of_not_le (Nat.find_min reached before), Nat.find_spec reached⟩

theorem uint32_burst (k size : Nat) : uint32 (uint32 (k * size) + size) = uint32 ((k + 1) * size) := by
  rw [uint32, uint32, uint32, Nat.mod_add_mod, Nat.succ_mul]

def afterBursts : Nat → DeviceMemory
  | 0 => m
  | k + 1 => written b (fun j => data (uint32 (k * b.size) + j)) b.size m

theorem afterBursts_succ (k : Nat) :
    written b (fun j => data (uint32 (k * b.size) + j)) b.size (afterBursts b data m k) =
      afterBursts b data m (k + 1) := by
  cases k with
  | zero => rfl
  | succ k => simp only [afterBursts, written_again]

/-- The memory when the thread stands at a point of its burst number `k`. -/
inductive InBurst (k : Nat) : SynchPoint .WRITE Nat → DeviceMemory → Prop
  | poll : InBurst k (.poll (uint32 (k * b.size))) (afterBursts b data m k)
  | back (value : Nat) (other : value ≠ MangoEventStatus.WRITE.value) :
    InBurst k (.back (uint32 (k * b.size)) value other) (afterBursts b data m k)
  | inside (j : Nat) (inside : j < b.size) : InBurst k (.inside (uint32 (k * b.size)) j)
    (written b (fun j => data (uint32 (k * b.size) + j)) j (afterBursts b data m k))
  | post : InBurst k (.post (uint32 (k * b.size))) (afterBursts b data m (k + 1))

theorem inBurst_inner {k j : Nat} (within : j ≤ b.size) :
    InBurst b data m k (SynchPoint.inner (uint32 (k * b.size)) (byteFrom b.size j))
      (written b (fun j => data (uint32 (k * b.size) + j)) j (afterBursts b data m k)) := by
  unfold byteFrom
  split
  · next more => exact .inside j more
  · next all =>
    obtain rfl : j = b.size := by omega
    rw [afterBursts_succ]
    exact .post

abbrev fifoProg : SynchPoint .WRITE Nat → Prog (Op Unit) Nat :=
  SynchPoint.prog b.fifo .READ (writeTransfer b.fifo data) g

theorem fifoProg_step (p : SynchPoint .WRITE Nat) (fuel : Nat) (s : Transferring) :
    (fifoProg b data g p).alone (transferExec b.clusterId b.memTile) (fuel + 1) s =
      ((SynchPoint.next b.fifo (writeTransfer b.fifo data) g p
          (transferExec b.clusterId b.memTile (p.op b.fifo .READ (writeTransfer b.fifo data)) s).1).elim
            (.ret 0) (fifoProg b data g)).alone (transferExec b.clusterId b.memTile) fuel
        (transferExec b.clusterId b.memTile (p.op b.fifo .READ (writeTransfer b.fifo data)) s).2 := by
  have busy : (fifoProg b data g p).nextOp ≠ none := by
    rw [SynchPoint.prog_nextOp]
    exact Option.some_ne_none _
  rw [Prog.alone_step _ busy, SynchPoint.prog_step]

theorem fifoProg_busy (p : SynchPoint .WRITE Nat) : (fifoProg b data g p).nextOp ≠ none := by
  rw [SynchPoint.prog_nextOp]
  exact Option.some_ne_none _

theorem inBurst_ends {k fuel : Nat} {p : SynchPoint .WRITE Nat} {answers : List Nat}
    {memory : DeviceMemory} {s : Transferring} (going : ∀ i ≤ k, uint32 (i * b.size) < g)
    (here : InBurst b data m k p memory)
    (ended : (fifoProg b data g p).alone (transferExec b.clusterId b.memTile) fuel
      ⟨answers, memory⟩ = some s) :
    ∃ k, EndsAfter b.size g k ∧ s.memory = afterBursts b data m k := by
  induction fuel generalizing k p answers memory with
  | zero =>
    rw [Prog.alone_zero _ (fifoProg_busy b data g p)] at ended
    cases ended
  | succ fuel ih =>
    rw [fifoProg_step] at ended
    cases here with
    | poll =>
      change Prog.alone (transferExec b.clusterId b.memTile) fuel
        ((SynchPoint.next b.fifo (writeTransfer b.fifo data) g (.poll _) (answers.headD 0)).elim (.ret 0)
          (fifoProg b data g)) ⟨answers.tail, _⟩ = some s at ended
      rw [SynchPoint.next] at ended
      by_cases empty : answers.headD 0 = 0
      · rw [if_pos empty] at ended
        exact ih going .poll ended
      · rw [if_neg empty] at ended
        by_cases found : answers.headD 0 = MangoEventStatus.WRITE.value
        · rw [dif_pos found] at ended
          refine ih going ?_ ended
          have first := inBurst_inner b data m (k := k) (Nat.zero_le b.size)
          rw [written_zero] at first
          exact first
        · rw [dif_neg found] at ended
          exact ih going (.back _ found) ended
    | back value other => exact ih going .poll ended
    | inside j inside =>
      simp only [SynchPoint.op, writeTransfer, transferExec, SynchPoint.next, Option.elim_some] at ended
      refine ih going ?_ ended
      have later := inBurst_inner b data m (k := k) (j := j + 1) inside
      rw [← written_store] at later
      exact later
    | post =>
      simp only [SynchPoint.op, transferExec, SynchPoint.next] at ended
      have next : uint32 (uint32 (k * b.size) + b.fifo.size) = uint32 ((k + 1) * b.size) := uint32_burst k b.size
      rw [next] at ended
      split at ended
      · next more =>
        refine ih (k := k + 1) (fun i before => ?_) .poll ended
        rcases Nat.lt_or_eq_of_le before with earlier | rfl
        · exact going i (by omega)
        · exact more
      · next all =>
        rw [Option.elim_none, Prog.alone_ret] at ended
        cases ended
        exact ⟨k + 1, ⟨fun i before => going i (by omega), by omega⟩, rfl⟩

theorem synchWrite_call : (synchWrite b.fifo data g).call =
    (if 0 < g then some (.poll 0) else none : Option (SynchPoint .WRITE Nat)).elim (.ret default)
      (fifoProg b data g) := (writeChart b.fifo data g).code_eq ()

theorem synchWrite_ends {fuel : Nat} {answers : List Nat} {s : Transferring}
    (ended : (synchWrite b.fifo data g).call.alone (transferExec b.clusterId b.memTile) fuel
      ⟨answers, m⟩ = some s) : ∃ k, EndsAfter b.size g k ∧ s.memory = afterBursts b data m k := by
  rw [synchWrite_call] at ended
  split at ended
  · next filled =>
    have start : InBurst b data m 0 (.poll (uint32 (0 * b.size))) m := .poll
    rw [Nat.zero_mul] at start
    refine inBurst_ends b data g m (fun i before => ?_) start ended
    obtain rfl : i = 0 := by omega
    simpa [uint32] using filled
  · next empty =>
    rw [Option.elim_none, Prog.alone_ret] at ended
    cases ended
    exact ⟨0, ⟨fun i before => by omega, by omega⟩, rfl⟩

def CanEnd (p : SynchPoint .WRITE Nat) : Prop :=
  ∀ memory, ∃ fuel answers s,
    (fifoProg b data g p).alone (transferExec b.clusterId b.memTile) fuel ⟨answers, memory⟩ = some s

theorem canEnd_inner {off : Nat} (posts : CanEnd b data g (.post off)) (j : Nat) :
    CanEnd b data g (SynchPoint.inner off (byteFrom b.size j)) := by
  induction left : b.size - j generalizing j with
  | zero =>
    rw [byteFrom, if_neg (by omega)]
    exact posts
  | succ left ih =>
    intro memory
    obtain ⟨fuel, answers, s, ended⟩ := ih (j + 1) (by omega)
      (memory.store b.clusterId b.memTile (b.phyAddr + j) (data (off + j)))
    refine ⟨fuel + 1, answers, s, ?_⟩
    rw [byteFrom, if_pos (by omega), SynchPoint.inner, Option.elim_some, fifoProg_step]
    exact ended

theorem canEnd_poll {off : Nat} (posts : CanEnd b data g (.post off)) : CanEnd b data g (.poll off) := by
  intro memory
  obtain ⟨fuel, answers, s, ended⟩ := canEnd_inner b data g posts 0 memory
  refine ⟨fuel + 1, MangoEventStatus.WRITE.value :: answers, s, ?_⟩
  rw [fifoProg_step]
  exact ended

theorem canEnd_burst {k : Nat} (ends : EndsAfter b.size g k) {i : Nat} (before : i < k) :
    CanEnd b data g (.poll (uint32 (i * b.size))) := by
  induction left : k - i generalizing i with
  | zero => omega
  | succ left ih =>
    apply canEnd_poll
    intro memory
    have next : uint32 (uint32 (i * b.size) + b.fifo.size) = uint32 ((i + 1) * b.size) := uint32_burst i b.size
    by_cases last : i + 1 = k
    · refine ⟨1, [], ⟨[], memory⟩, ?_⟩
      have all : ¬ uint32 ((i + 1) * b.size) < g := by
        have stop := ends.2
        rw [last]
        omega
      rw [fifoProg_step]
      simp only [SynchPoint.next, next, all, ↓reduceIte]
      rfl
    · obtain ⟨fuel, answers, s, ended⟩ := ih (i := i + 1) (by omega) (by omega) memory
      refine ⟨fuel + 1, answers, s, ?_⟩
      have more : uint32 ((i + 1) * b.size) < g := ends.1 (i + 1) (by omega)
      rw [fifoProg_step]
      simp only [SynchPoint.next, next, more, ↓reduceIte]
      exact ended

theorem synchWrite_run {k : Nat} (ends : EndsAfter b.size g k) : ∃ fuel answers s,
    (synchWrite b.fifo data g).call.alone (transferExec b.clusterId b.memTile) fuel ⟨answers, m⟩ = some s := by
  rw [synchWrite_call]
  split
  · next filled =>
    have bursts : 0 < k := by
      rcases Nat.eq_zero_or_pos k with rfl | positive
      · have stop := ends.2
        simp [uint32] at stop
        omega
      · exact positive
    have first := canEnd_burst b data g ends bursts
    rw [Nat.zero_mul] at first
    exact first m
  · exact ⟨0, [], ⟨[], m⟩, rfl⟩

end Bursts

section Spared

variable {b : Buffer} {data : Nat → Nat} {g : Nat} {m : DeviceMemory} {mode : CommunicationMode}

def Buffer.Transfers (b : Buffer) (mode : CommunicationMode) (g : Nat) : Prop :=
  ∀ data fuel answers memory s, (b.write data g).call.alone (transferExec b.clusterId b.memTile) fuel
    ⟨answers, memory⟩ = some s → b.TransferredTo mode data memory s.memory

theorem written_transferred_iff {n : Nat} : (∀ data m, b.TransferredTo mode data m (written b data n m)) ↔
    n ≤ b.size ∧ (mode = .DIRECT → n = b.size) := by
  constructor
  · intro transferred
    obtain ⟨outside, inside⟩ := transferred (fun _ => 1) (fun _ _ _ => 0)
    have within : n ≤ b.size := by
      by_contra beyond
      have changed := outside b.clusterId b.memTile (b.phyAddr + b.size) (by simp [Buffer.Covers])
      rw [written_in b _ n _ (by omega)] at changed
      exact Nat.one_ne_zero changed
    refine ⟨within, fun direct => ?_⟩
    by_contra short
    have missing := inside direct n (by omega)
    rw [written_beyond b _ n _ (Nat.le_refl n)] at missing
    exact Nat.zero_ne_one missing
  · rintro ⟨within, all⟩ data m
    refine ⟨fun _ _ _ outside => written_outside b data n m within outside, fun direct j below => ?_⟩
    exact written_in b data n m (by rw [all direct]; exact below)

theorem buffer_transfers_iff (type : b.type = .BUFFER) : b.Transfers mode g ↔ b.Spared mode g := by
  have text : ∀ data, b.write data g = hnWriteMemory b.phyAddr (if g = 0 then b.size else g) data := by
    intro data
    simp only [Buffer.write, type]
  have writes : b.Transfers mode g ↔
      ∀ data m, b.TransferredTo mode data m (written b data (if g = 0 then b.size else g) m) := by
    constructor
    · intro transfers data m
      refine transfers data (0 + if g = 0 then b.size else g) [] m ⟨[], _⟩ ?_
      rw [text]
      exact hnWriteMemory_run b data _ m [] 0
    · intro transferred data fuel answers memory s ended
      rw [text] at ended
      rw [hnWriteMemory_ends b data _ memory ended]
      exact transferred data memory
  rw [writes, written_transferred_iff]
  cases mode with
  | DIRECT =>
    simp only [Buffer.Spared, type]
    split <;> simp_all
  | BURST =>
    simp only [Buffer.Spared, type]
    split <;> simp_all

theorem afterBursts_outside (k : Nat) {cluster tile addr : Nat} (outside : ¬ b.Covers cluster tile addr) :
    afterBursts b data m k cluster tile addr = m cluster tile addr := by
  cases k with
  | zero => rfl
  | succ k =>
    rw [afterBursts]
    exact written_outside b _ b.size m (Nat.le_refl _) outside

theorem afterBursts_transferred_iff (k : Nat) :
    (∀ data m, b.TransferredTo .DIRECT data m (afterBursts b data m k)) ↔
      b.size = 0 ∨ ∃ last, k = last + 1 ∧ uint32 (last * b.size) = 0 := by
  have outside : ∀ data m cluster tile addr, ¬ b.Covers cluster tile addr →
      afterBursts b data m k cluster tile addr = m cluster tile addr :=
    fun data m _ _ _ outside => afterBursts_outside k outside
  constructor
  · intro transferred
    by_contra other
    simp only [not_or, not_exists, not_and] at other
    obtain ⟨filled, missed⟩ := other
    -- only the first byte of the host is 1
    obtain ⟨_, inside⟩ := transferred (fun j => if j = 0 then 1 else 0) (fun _ _ _ => 0)
    have first := inside rfl 0 (by omega)
    cases k with
    | zero => cases first
    | succ last =>
      rw [afterBursts, written_in b _ b.size _ (by omega)] at first
      simp [missed last rfl] at first
  · rintro (empty | ⟨last, rfl, start⟩) data m
    · exact ⟨outside data m, fun _ j below => by omega⟩
    · refine ⟨outside data m, fun _ j below => ?_⟩
      rw [afterBursts, written_in b _ b.size m below, start, Nat.zero_add]

theorem fifo_transfers_iff (type : b.type = .FIFO) (fits : b.size < 2^32) :
    b.Transfers mode g ↔ b.Spared mode g := by
  have text : ∀ data, (b.write data g).call = (synchWrite b.fifo data g).call := by
    intro data
    simp only [Buffer.write, type]
    rfl
  have writes : b.Transfers mode g ↔ ∀ k, EndsAfter b.size g k →
      ∀ data m, b.TransferredTo mode data m (afterBursts b data m k) := by
    constructor
    · intro transfers k ends data m
      obtain ⟨fuel, answers, s, ended⟩ := synchWrite_run b data g m ends
      obtain ⟨k', ends', memory⟩ := synchWrite_ends b data g m ended
      rw [ends.unique ends', ← memory]
      exact transfers data fuel answers m s (by rw [text]; exact ended)
    · intro transferred data fuel answers memory s ended
      rw [text] at ended
      obtain ⟨k, ends, after⟩ := synchWrite_ends b data g memory ended
      rw [after]
      exact transferred k ends data memory
  rw [writes]
  cases mode with
  | BURST =>
    simp only [Buffer.Spared, type, iff_true]
    exact fun k _ data m => ⟨fun _ _ _ outside => afterBursts_outside k outside, fun direct => by cases direct⟩
  | DIRECT =>
    simp only [Buffer.Spared, type, afterBursts_transferred_iff]
    have one : uint32 (1 * b.size) = b.size := by rw [Nat.one_mul, uint32_of_lt fits]
    have zero : uint32 (0 * b.size) = 0 := by rw [Nat.zero_mul]; rfl
    constructor
    · intro transferred
      by_cases never : ∀ k, uint32 (k * b.size) < g
      · exact .inr never
      · simp only [not_forall, Nat.not_lt] at never
        obtain ⟨k, ends⟩ := endsAfter_of_reached never
        apply Or.inl
        rcases transferred k ends with empty | ⟨last, count, start⟩
        · have stop := ends.2
          rw [empty, Nat.mul_zero] at stop
          exact ⟨fun _ => empty, by rw [empty]; exact stop⟩
        · rw [count] at ends
          have first := ends.1 0 (by omega)
          have stop := ends.2
          rw [← uint32_burst, start, Nat.zero_add, uint32_of_lt fits] at stop
          exact ⟨fun void => by omega, stop⟩
    · rintro (⟨void, fewer⟩ | never) k ends
      · have stop := ends.2
        match k with
        | 0 => exact .inl (void (by omega))
        | 1 => exact .inr ⟨0, rfl, zero⟩
        | k + 2 =>
          have second := ends.1 1 (by omega)
          omega
      · exact absurd (never k) (Nat.not_lt_of_le ends.2)

variable {cxt : Context} {buffer globalSize : Nat}

theorem touchesOwn_transfers (found : cxt.buffers[buffer]? = some b)
    (accepted : mode = .BURST → globalSize ≠ 0) (event : b.event.id ≠ 0) :
    TouchesOwn cxt buffer mode globalSize ↔ b.Transfers mode (uint32 globalSize) := by
  have call : ∀ data, mangoWrite cxt data buffer mode globalSize =
      some (b, b.write data (uint32 globalSize)) := by
    intro data
    have passes : ¬ (mode = .BURST ∧ globalSize = 0) := fun both => accepted both.1 both.2
    simp [mangoWrite, passes, found, event]
  constructor
  · exact fun touches data => touches data b _ (call data)
  · intro transfers data b' transfer made
    rw [call data] at made
    cases made
    exact transfers data

/-- A call touches its own buffer only, and in DIRECT mode all of it, exactly when the size fits the
    buffer's type and the mode. -/
theorem touches_own_iff (found : cxt.buffers[buffer]? = some b) (fits : b.size < 2^32)
    (accepted : mode = .BURST → globalSize ≠ 0) (event : b.event.id ≠ 0) :
    TouchesOwn cxt buffer mode globalSize ↔ b.Spared mode (uint32 globalSize) := by
  rw [touchesOwn_transfers found accepted event]
  rcases type : b.type with _ | _
  · exact fifo_transfers_iff type fits
  · exact buffer_transfers_iff type

def neighbour (id addr : Nat) : Buffer :=
  ⟨id, 64, .BUFFER, [0], [1], ⟨id + 3, 0x2000 + 4 * id, [0], [1], 0⟩, addr, 7, 0⟩

def neighbours : Context where
  kernels := ∅
  buffers := (∅ : IdMap Buffer).insert 1 (neighbour 1 0x1000) |>.insert 2 (neighbour 2 0x1040)
  events := ∅

theorem touches_own_whole : TouchesOwn neighbours 1 .DIRECT 64 ↔ (neighbour 1 0x1000).Spared .DIRECT 64 :=
  touches_own_iff rfl (by decide) (by decide) (by decide)

/-- A size of 128 bytes, which DIRECT mode is to ignore, overwrites the buffer behind. -/
theorem direct_write_overruns :
    (∀ cluster tile addr, ¬ ((neighbour 1 0x1000).Covers cluster tile addr ∧
      (neighbour 2 0x1040).Covers cluster tile addr)) ∧ ¬ TouchesOwn neighbours 1 .DIRECT 128 := by
  constructor
  · rintro cluster tile addr ⟨⟨_, _, _, upper⟩, _, _, lower, _⟩
    simp only [neighbour] at upper lower
    omega
  · rw [touchesOwn_transfers (b := neighbour 1 0x1000) rfl (by decide) (by decide),
      buffer_transfers_iff rfl]
    simp [Buffer.Spared, neighbour, uint32]

end Spared

end MangoModel.Host
