import LibMango.Host.Burst

namespace MangoModel.Host

open Interleave Device

/-- The host thread that writes a FIFO buffer and the one that reads it. -/
inductive Burst where
  | producer
  | consumer
  deriving DecidableEq, Repr

section Record

variable {b : FifoBuffer Unit} {data : Nat → Nat} {off value stored loaded kept : Nat}
  {s : Shared Burst Unit} {i : Burst}

/-- What the shared state holds when the chunk at an offset has been stored, loaded and kept
    up to the given bytes. -/
structure Record (b : FifoBuffer Unit) (data : Nat → Nat) (off value stored loaded kept : Nat)
    (s : Shared Burst Unit) : Prop where
  value : s.regs.value () = value
  stores : s.count Op.stores = off + stored
  loads : s.count Op.loads = off + loaded
  keeps : s.count Op.keeps = off + kept
  memory : ∀ j < stored, s.memory (b.phyAddr + j) = data (off + j)
  host : ∀ k < off + kept, s.host k = data k

theorem Record.take (record : Record b data off value stored loaded kept s) :
    Record b data off 0 stored loaded kept (exec overwrite i (.readSynchronization ()) s).2 where
  value := by simp [Op.access, Custody.apply]
  stores := by simpa [Op.stores] using record.stores
  loads := by simpa [Op.loads] using record.loads
  keeps := by simpa [Op.keeps] using record.keeps
  memory := record.memory
  host := record.host

theorem Record.put (record : Record b data off value stored loaded kept s) {posted : Nat}
    (fits : posted < 2^32) :
    Record b data off posted stored loaded kept
      (exec overwrite i (.writeSynchronization () posted) s).2 where
  value := by simp [Op.access, Custody.apply, overwrite, uint32_of_lt fits]
  stores := by simpa [Op.stores] using record.stores
  loads := by simpa [Op.loads] using record.loads
  keeps := by simpa [Op.keeps] using record.keeps
  memory := record.memory
  host := record.host

theorem Record.store (record : Record b data off value stored loaded kept s) :
    Record b data off value (stored + 1) loaded kept
      (exec overwrite i (.storeByte (b.phyAddr + stored) (data (off + stored))) s).2 where
  value := record.value
  stores := by simp [Op.stores, record.stores, Nat.add_assoc]
  loads := by simpa [Op.loads] using record.loads
  keeps := by simpa [Op.keeps] using record.keeps
  memory j before := by
    by_cases last : j = stored
    · subst last
      simp [Op.memoryAfter]
    · have earlier : j < stored := by omega
      simpa [Op.memoryAfter, last] using record.memory j earlier
  host := record.host

theorem Record.load (record : Record b data off value stored loaded kept s) {addr : Nat} :
    Record b data off value stored (loaded + 1) kept
      (exec overwrite i (.loadByte addr) s).2 where
  value := record.value
  stores := by simpa [Op.stores] using record.stores
  loads := by simp [Op.loads, record.loads, Nat.add_assoc]
  keeps := by simpa [Op.keeps] using record.keeps
  memory := record.memory
  host := record.host

theorem Record.keep (record : Record b data off value stored loaded kept s) :
    Record b data off value stored loaded (kept + 1)
      (exec overwrite i (.keepByte (off + kept) (data (off + kept))) s).2 where
  value := record.value
  stores := by simpa [Op.stores] using record.stores
  loads := by simpa [Op.loads] using record.loads
  keeps := by simp [Op.keeps, record.keeps, Nat.add_assoc]
  memory := record.memory
  host k before := by
    by_cases last : k = off + kept
    · subst last
      simp [Op.hostAfter]
    · have earlier : k < off + kept := by omega
      simpa [Op.hostAfter, last] using record.host k earlier

theorem Record.advance {size : Nat} (record : Record b data off value size size size s) :
    Record b data (off + size) value 0 0 0 s where
  value := record.value
  stores := record.stores
  loads := record.loads
  keeps := record.keeps
  memory := by simp
  host := record.host

end Record

/-- How far the exchange of the chunk at the current offset has come. -/
inductive Stage where
  | requested
  | handedBack
  | storing (j : Nat)
  | stored
  | posted
  | postedBack
  | loading (j : Nat)
  | keeping (j byte : Nat)
  | loaded

/-- Where a party of the exchange may stand: it holds nothing, or it is at a given point. -/
inductive Stance (ready : MangoEventStatus) (T : Type) where
  | waiting (off : Nat)
  | inside (p : SynchPoint ready T)

def Stance.Allows {ready : MangoEventStatus} {T : Type} (globalSize : Nat) :
    Stance ready T → Place (SynchPoint ready T) Unit → Prop
  | .waiting off, l => SynchPoint.Waiting globalSize off l
  | .inside p, l => l = ⟨some p, []⟩

namespace Stage

variable (size off : Nat)

def value : Stage → Nat
  | .requested => MangoEventStatus.WRITE.value
  | .posted => MangoEventStatus.READ.value
  | _ => 0

@[simp] def storedBytes : Stage → Nat
  | .requested | .handedBack => 0
  | .storing j => j
  | _ => size

@[simp] def loadedBytes : Stage → Nat
  | .loading j => j
  | .keeping j _ => j + 1
  | .loaded => size
  | _ => 0

@[simp] def keptBytes : Stage → Nat
  | .loading j | .keeping j _ => j
  | .loaded => size
  | _ => 0

def producer : Stage → Stance .WRITE Nat
  | .requested | .handedBack => .waiting off
  | .storing j => .inside (.inside off j)
  | .stored => .inside (.post off)
  | .postedBack => .inside (.back (off + size) MangoEventStatus.READ.value (by decide))
  | _ => .waiting (off + size)

def consumer : Stage → Stance .READ CopyPoint
  | .handedBack => .inside (.back off MangoEventStatus.WRITE.value (by decide))
  | .loading j => .inside (.inside off (.load j))
  | .keeping j byte => .inside (.inside off (.keep j byte))
  | .loaded => .inside (.post off)
  | _ => .waiting off

def Valid (data : Nat → Nat) (globalSize : Nat) : Stage → Prop
  | .storing j | .loading j => j < size
  | .postedBack => off + size < globalSize
  | .keeping j byte => j < size ∧ byte = data (off + j)
  | _ => True

def mover : Stage → Burst
  | .requested | .storing _ | .stored | .postedBack => .producer
  | _ => .consumer

/-- Orders the stages in which the same bytes have been exchanged. -/
@[simp] def phase : Stage → Nat
  | .handedBack => 7
  | .requested => 6
  | .storing _ | .stored => 5
  | .postedBack => 4
  | .posted => 3
  | _ => 2

end Stage

section Exchange

variable (b : FifoBuffer Unit) (data : Nat → Nat) (globalSize : Nat)

/-- The invariant of the exchange, for the places of the two parties and what they share. -/
structure Exchange (off : Nat) (stage : Stage) (p : Place (SynchPoint .WRITE Nat) Unit)
    (c : Place (SynchPoint .READ CopyPoint) Unit) (s : Shared Burst Unit) : Prop where
  aligned : b.size ∣ off
  bound : off ≤ globalSize
  busy : stage = .requested ∨ off + b.size ≤ globalSize
  valid : stage.Valid b.size off data globalSize
  producer : (stage.producer b.size off).Allows globalSize p
  consumer : (stage.consumer off).Allows globalSize c
  record : Record b data off stage.value (stage.storedBytes b.size) (stage.loadedBytes b.size)
    (stage.keptBytes b.size) s

/-- What is left to do, in steps of the parties that move the exchange forward. -/
def remaining (off : Nat) (stage : Stage) (p : Place (SynchPoint .WRITE Nat) Unit)
    (c : Place (SynchPoint .READ CopyPoint) Unit) : Nat :=
  10 * (globalSize - off) + stage.phase + (b.size - stage.storedBytes b.size) +
    (b.size - stage.loadedBytes b.size) + (b.size - stage.keptBytes b.size) +
    p.calls.length + c.calls.length

/-- The exchange goes on, with less to do than before if it was moved forward. -/
def Continues (before : Nat) (moved : Prop) (p : Place (SynchPoint .WRITE Nat) Unit)
    (c : Place (SynchPoint .READ CopyPoint) Unit) (s : Shared Burst Unit) : Prop :=
  ∃ off stage, Exchange b data globalSize off stage p c s ∧
    (moved → remaining b globalSize off stage p c < before)

variable {b data globalSize} {off : Nat} {stage : Stage} {p : Place (SynchPoint .WRITE Nat) Unit}
  {c : Place (SynchPoint .READ CopyPoint) Unit} {s : Shared Burst Unit}

theorem SynchPoint.Waiting.step {T σ : Type} (transfer : Transfer Unit T)
    {ready : MangoEventStatus} (posted : MangoEventStatus) (exec : Op Unit → σ → Nat × σ) (shared : σ)
    {l : Place (SynchPoint ready T) Unit} (waiting : SynchPoint.Waiting globalSize off l) :
    l = ⟨some (.poll off), []⟩ ∧ off < globalSize ∨
      ∃ l', (synchChart b ready posted transfer globalSize).step exec l shared = (l', shared) ∧
        SynchPoint.Waiting globalSize off l' ∧
        (l ≠ ⟨none, []⟩ → l'.calls.length < l.calls.length) := by
  cases waiting with
  | fresh start =>
    subst start
    refine .inr ⟨_, Chart.step_enter _ _ _ _ _, SynchPoint.waiting_from (Nat.zero_le _), by simp⟩
  | polling more => exact .inl ⟨rfl, more⟩
  | done all => exact .inr ⟨_, Chart.step_finished _ _ _, .done all, by simp⟩

section Polling

variable {T : Type} {ready posted : MangoEventStatus} {transfer : Transfer Unit T} {i : Burst} {value : Nat}

theorem next_polled_empty (found : s.regs.value () = 0) :
    (synchChart b ready posted transfer globalSize).next (.poll off)
      (exec overwrite i (.readSynchronization ()) s).1 = some (.poll off) := by
  rw [exec_answer, Op.answer, found]
  rfl

theorem next_polled_ready (found : s.regs.value () = ready.value) (set : ready.value ≠ 0) :
    (synchChart b ready posted transfer globalSize).next (.poll off)
      (exec overwrite i (.readSynchronization ()) s).1 = some (.inner off transfer.first) := by
  rw [exec_answer, Op.answer, found]
  exact (if_neg set).trans (dif_pos rfl)

theorem next_polled_other (found : s.regs.value () = value) (set : value ≠ 0) (other : value ≠ ready.value) :
    (synchChart b ready posted transfer globalSize).next (.poll off)
      (exec overwrite i (.readSynchronization ()) s).1 = some (.back off value other) := by
  rw [exec_answer, Op.answer, found]
  exact (if_neg set).trans (dif_neg other)

/-- A party that has posted its status waits at the next offset. -/
theorem waiting_posted (fitting : off + b.size ≤ globalSize) (fits : globalSize < 2^32) (answer : Nat) :
    SynchPoint.Waiting globalSize (off + b.size)
      ⟨(synchChart b ready posted transfer globalSize).next (.post off) answer, []⟩ := by
  have offset : uint32 (off + b.size) = off + b.size := uint32_of_lt (by omega)
  show SynchPoint.Waiting globalSize (off + b.size)
    ⟨if uint32 (off + b.size) < globalSize then some (.poll (uint32 (off + b.size))) else none, []⟩
  rw [offset]
  exact SynchPoint.waiting_from fitting

end Polling

theorem Exchange.next_chunk (ex : Exchange b data globalSize off stage p c s)
    (whole : b.size ∣ globalSize) (more : off < globalSize) : off + b.size ≤ globalSize := by
  obtain ⟨chunks, rfl⟩ := whole
  obtain ⟨k, rfl⟩ := ex.aligned
  have earlier : k < chunks := Nat.lt_of_mul_lt_mul_left more
  calc b.size * k + b.size = b.size * (k + 1) := (Nat.mul_succ _ _).symm
    _ ≤ b.size * chunks := Nat.mul_le_mul_left _ earlier

section Producer

variable (b data globalSize p s)

abbrev producerStep : Place (SynchPoint .WRITE Nat) Unit × Shared Burst Unit :=
  (writeChart b data globalSize).step (exec overwrite .producer) p s

abbrev ProducerContinues (stage : Stage) (off : Nat) (c : Place (SynchPoint .READ CopyPoint) Unit) : Prop :=
  Continues b data globalSize (remaining b globalSize off stage p c)
    (stage.mover = .producer ∧ p ≠ ⟨none, []⟩) (producerStep b data globalSize p s).1 c
    (producerStep b data globalSize p s).2

variable {b data globalSize p s}

theorem Exchange.producer_polls (ex : Exchange b data globalSize off stage p c s) {next : Nat}
    (waits : stage.producer b.size off = .waiting next) :
    p = ⟨some (.poll next), []⟩ ∧ next < globalSize ∨ ProducerContinues b data globalSize p s stage off c := by
  have waiting := ex.producer
  rw [waits] at waiting
  rcases SynchPoint.Waiting.step (b := b) (writeTransfer b data) .READ
    (exec overwrite Burst.producer) s waiting
    with polls | ⟨l', stepped, still, fewer⟩
  · exact .inl polls
  · refine .inr ⟨off, stage, ?_, fun moved => ?_⟩
    · rw [producerStep, stepped]
      exact { ex with producer := by rw [waits]; exact still }
    · have less := fewer moved.2
      rw [producerStep, stepped]
      simp only [remaining]
      omega

theorem Exchange.producer_retries (ex : Exchange b data globalSize off stage p c s) {next : Nat}
    (waits : stage.producer b.size off = .waiting next) (empty : stage.value = 0)
    (other : stage.mover = .consumer) : ProducerContinues b data globalSize p s stage off c := by
  rcases ex.producer_polls waits with ⟨rfl, more⟩ | continues
  · have found : s.regs.value () = 0 := ex.record.value.trans empty
    refine ⟨off, stage, ?_, fun moved => absurd moved.1 (by rw [other]; decide)⟩
    have taken := ex.record.take (i := .producer)
    rw [← empty] at taken
    rw [producerStep, Chart.step_at]
    refine { ex with producer := ?_, record := taken }
    rw [waits]
    exact next_polled_empty (b := b) found ▸ .polling more
  · exact continues

theorem Exchange.producer_stores {j : Nat} (ex : Exchange b data globalSize off (.storing j) p c s) :
    ProducerContinues b data globalSize p s (.storing j) off c := by
  have here : p = ⟨some (.inside off j), []⟩ := ex.producer
  subst here
  have inside : j < b.size := ex.valid
  have fitting := ex.busy.resolve_left (by simp)
  have stored := ex.record.store (i := .producer)
  by_cases last : j + 1 < b.size
  · refine ⟨off, .storing (j + 1), ?_, fun _ => ?_⟩
    · rw [producerStep, Chart.step_at]
      refine { ex with busy := .inr fitting, valid := last, producer := ?_, record := stored }
      show _ = _
      simp [SynchPoint.next, SynchPoint.inner, synchChart, writeTransfer, byteFrom, last]
    · dsimp [remaining, producerStep, Chart.step_at]
      omega
  · have all : j + 1 = b.size := by omega
    refine ⟨off, .stored, ?_, fun _ => ?_⟩
    · rw [producerStep, Chart.step_at]
      refine { ex with
        busy := .inr fitting, valid := trivial, producer := ?_, record := ?_ }
      · show _ = _
        simp [SynchPoint.next, SynchPoint.inner, synchChart, writeTransfer, byteFrom, last]
      · show Record b data off 0 b.size 0 0 _
        rw [← all]
        exact stored
    · dsimp [remaining, producerStep, Chart.step_at]
      omega

theorem Exchange.producer_step (ex : Exchange b data globalSize off stage p c s)
    (positive : 0 < b.size) (whole : b.size ∣ globalSize) (fits : globalSize < 2^32) :
    ProducerContinues b data globalSize p s stage off c := by
  cases stage with
  | requested =>
    rcases ex.producer_polls rfl with ⟨rfl, more⟩ | continues
    · have starts : (SynchPoint.inner off (writeTransfer b data).first : SynchPoint .WRITE Nat) =
          .inside off 0 := by
        simp [SynchPoint.inner, writeTransfer, byteFrom, positive]
      have takes : (writeChart b data globalSize).next (.poll off)
          (exec overwrite Burst.producer (.readSynchronization ()) s).1 = some (.inside off 0) :=
        starts ▸ next_polled_ready ex.record.value (by decide)
      refine ⟨off, .storing 0, ?_, fun _ => ?_⟩
      · rw [producerStep, Chart.step_at]
        exact { ex with
          busy := .inr (ex.next_chunk whole more)
          valid := positive
          producer := congrArg (Place.mk · []) takes
          record := ex.record.take }
      · dsimp [remaining, producerStep, Chart.step_at]
        omega
    · exact continues
  | handedBack => exact ex.producer_retries rfl rfl rfl
  | storing j => exact ex.producer_stores
  | stored =>
    have here : p = ⟨some (.post off), []⟩ := ex.producer
    subst here
    have fitting := ex.busy.resolve_left (by simp)
    refine ⟨off, .posted, ?_, fun _ => ?_⟩
    · rw [producerStep, Chart.step_at]
      exact { ex with
        busy := .inr fitting
        valid := trivial
        producer := waiting_posted fitting fits _
        record := ex.record.put (by decide) }
    · dsimp [remaining, producerStep, Chart.step_at]
      omega
  | posted =>
    rcases ex.producer_polls rfl with ⟨rfl, more⟩ | continues
    · have takes : (writeChart b data globalSize).next (.poll (off + b.size))
          (exec overwrite Burst.producer (.readSynchronization ()) s).1 =
            some (.back (off + b.size) MangoEventStatus.READ.value (by decide)) :=
        next_polled_other ex.record.value (by decide) (by decide)
      refine ⟨off, .postedBack, ?_, fun moved => absurd moved.1 (by decide)⟩
      rw [producerStep, Chart.step_at]
      exact { ex with
        busy := .inr (ex.busy.resolve_left (by simp))
        valid := more
        producer := congrArg (Place.mk · []) takes
        record := ex.record.take }
    · exact continues
  | postedBack =>
    have here : p = ⟨some (.back (off + b.size) MangoEventStatus.READ.value (by decide)), []⟩ := ex.producer
    subst here
    have fitting := ex.busy.resolve_left (by simp)
    refine ⟨off, .posted, ?_, fun _ => ?_⟩
    · rw [producerStep, Chart.step_at]
      refine { ex with
        busy := .inr fitting, valid := trivial, producer := ?_
        record := ex.record.put (by decide) }
      exact .polling ex.valid
    · dsimp [remaining, producerStep, Chart.step_at]
      omega
  | loading j => exact ex.producer_retries rfl rfl rfl
  | keeping j byte => exact ex.producer_retries rfl rfl rfl
  | loaded => exact ex.producer_retries rfl rfl rfl

end Producer

section Consumer

variable (b globalSize c s)

abbrev consumerStep : Place (SynchPoint .READ CopyPoint) Unit × Shared Burst Unit :=
  (readChart b globalSize).step (exec overwrite .consumer) c s

abbrev ConsumerContinues (data : Nat → Nat) (stage : Stage) (off : Nat)
    (p : Place (SynchPoint .WRITE Nat) Unit) : Prop :=
  Continues b data globalSize (remaining b globalSize off stage p c)
    (stage.mover = .consumer ∧ c ≠ ⟨none, []⟩) p (consumerStep b globalSize c s).1
    (consumerStep b globalSize c s).2

variable {b globalSize c s}

theorem Exchange.consumer_polls (ex : Exchange b data globalSize off stage p c s)
    (waits : stage.consumer off = .waiting off) :
    c = ⟨some (.poll off), []⟩ ∧ off < globalSize ∨ ConsumerContinues b globalSize c s data stage off p := by
  have waiting := ex.consumer
  rw [waits] at waiting
  rcases SynchPoint.Waiting.step (b := b) (readTransfer b) .WRITE
    (exec overwrite Burst.consumer) s waiting
    with polls | ⟨l', stepped, still, fewer⟩
  · exact .inl polls
  · refine .inr ⟨off, stage, ?_, fun moved => ?_⟩
    · rw [consumerStep, stepped]
      exact { ex with consumer := by rw [waits]; exact still }
    · have less := fewer moved.2
      rw [consumerStep, stepped]
      simp only [remaining]
      omega

theorem Exchange.consumer_retries (ex : Exchange b data globalSize off stage p c s)
    (waits : stage.consumer off = .waiting off) (empty : stage.value = 0)
    (other : stage.mover = .producer) : ConsumerContinues b globalSize c s data stage off p := by
  rcases ex.consumer_polls waits with ⟨rfl, more⟩ | continues
  · have found : s.regs.value () = 0 := ex.record.value.trans empty
    refine ⟨off, stage, ?_, fun moved => absurd moved.1 (by rw [other]; decide)⟩
    have taken := ex.record.take (i := .consumer)
    rw [← empty] at taken
    rw [consumerStep, Chart.step_at]
    refine { ex with consumer := ?_, record := taken }
    rw [waits]
    exact next_polled_empty (b := b) found ▸ .polling more
  · exact continues

theorem Exchange.consumer_loads {j : Nat} (ex : Exchange b data globalSize off (.loading j) p c s) :
    ConsumerContinues b globalSize c s data (.loading j) off p := by
  have here : c = ⟨some (.inside off (.load j)), []⟩ := ex.consumer
  subst here
  have inside : j < b.size := ex.valid
  have fitting := ex.busy.resolve_left (by simp)
  have byte : s.memory (b.phyAddr + j) = data (off + j) := ex.record.memory j inside
  refine ⟨off, .keeping j (s.memory (b.phyAddr + j)), ?_, fun _ => ?_⟩
  · rw [consumerStep, Chart.step_at]
    exact { ex with
      busy := .inr fitting
      valid := ⟨inside, byte⟩
      consumer := rfl
      record := ex.record.load }
  · dsimp [remaining, consumerStep, Chart.step_at]
    omega

theorem Exchange.consumer_keeps {j byte : Nat}
    (ex : Exchange b data globalSize off (.keeping j byte) p c s) :
    ConsumerContinues b globalSize c s data (.keeping j byte) off p := by
  have here : c = ⟨some (.inside off (.keep j byte)), []⟩ := ex.consumer
  subst here
  obtain ⟨inside, rfl⟩ : j < b.size ∧ byte = data (off + j) := ex.valid
  have fitting := ex.busy.resolve_left (by simp)
  have kept := ex.record.keep (i := .consumer)
  by_cases last : j + 1 < b.size
  · refine ⟨off, .loading (j + 1), ?_, fun _ => ?_⟩
    · rw [consumerStep, Chart.step_at]
      refine { ex with busy := .inr fitting, valid := last, consumer := ?_, record := kept }
      show _ = _
      simp [SynchPoint.next, SynchPoint.inner, synchChart, readTransfer, byteFrom, last]
    · dsimp [remaining, consumerStep, Chart.step_at]
      omega
  · have all : j + 1 = b.size := by omega
    refine ⟨off, .loaded, ?_, fun _ => ?_⟩
    · rw [consumerStep, Chart.step_at]
      refine { ex with
        busy := .inr fitting, valid := trivial, consumer := ?_, record := ?_ }
      · show _ = _
        simp [SynchPoint.next, SynchPoint.inner, synchChart, readTransfer, byteFrom, last]
      · show Record b data off 0 b.size b.size b.size _
        have stored : Record b data off 0 b.size (j + 1) (j + 1) _ := kept
        rwa [all] at stored
    · dsimp [remaining, consumerStep, Chart.step_at]
      omega

theorem Exchange.consumer_step (ex : Exchange b data globalSize off stage p c s)
    (positive : 0 < b.size) (whole : b.size ∣ globalSize) (fits : globalSize < 2^32) :
    ConsumerContinues b globalSize c s data stage off p := by
  cases stage with
  | requested =>
    rcases ex.consumer_polls rfl with ⟨rfl, more⟩ | continues
    · have takes : (readChart b globalSize).next (.poll off)
          (exec overwrite Burst.consumer (.readSynchronization ()) s).1 =
            some (.back off MangoEventStatus.WRITE.value (by decide)) :=
        next_polled_other ex.record.value (by decide) (by decide)
      refine ⟨off, .handedBack, ?_, fun moved => absurd moved.1 (by decide)⟩
      rw [consumerStep, Chart.step_at]
      exact { ex with
        busy := .inr (ex.next_chunk whole more)
        valid := trivial
        consumer := congrArg (Place.mk · []) takes
        record := ex.record.take }
    · exact continues
  | handedBack =>
    have here : c = ⟨some (.back off MangoEventStatus.WRITE.value (by decide)), []⟩ := ex.consumer
    subst here
    have fitting := ex.busy.resolve_left (by simp)
    have more : off < globalSize := by omega
    refine ⟨off, .requested, ?_, fun _ => ?_⟩
    · rw [consumerStep, Chart.step_at]
      exact { ex with
        busy := .inl rfl
        consumer := .polling more
        record := ex.record.put (by decide) }
    · dsimp [remaining, consumerStep, Chart.step_at]
      omega
  | storing j => exact ex.consumer_retries rfl rfl rfl
  | stored => exact ex.consumer_retries rfl rfl rfl
  | posted =>
    have fitting := ex.busy.resolve_left (by simp)
    rcases ex.consumer_polls rfl with ⟨rfl, more⟩ | continues
    · have starts : (SynchPoint.inner off (readTransfer b).first : SynchPoint .READ CopyPoint) =
          .inside off (.load 0) := by
        simp [SynchPoint.inner, readTransfer, byteFrom, positive]
      have takes : (readChart b globalSize).next (.poll off)
          (exec overwrite Burst.consumer (.readSynchronization ()) s).1 =
            some (.inside off (.load 0)) :=
        starts ▸ next_polled_ready ex.record.value (by decide)
      refine ⟨off, .loading 0, ?_, fun _ => ?_⟩
      · rw [consumerStep, Chart.step_at]
        exact { ex with
          busy := .inr fitting
          valid := positive
          consumer := congrArg (Place.mk · []) takes
          record := ex.record.take }
      · dsimp [remaining, consumerStep, Chart.step_at]
        omega
    · exact continues
  | postedBack => exact ex.consumer_retries rfl rfl rfl
  | loading j => exact ex.consumer_loads
  | keeping j byte => exact ex.consumer_keeps
  | loaded =>
    have here : c = ⟨some (.post off), []⟩ := ex.consumer
    subst here
    have fitting := ex.busy.resolve_left (by simp)
    refine ⟨off + b.size, .requested, ?_, fun _ => ?_⟩
    · rw [consumerStep, Chart.step_at]
      exact { ex with
        aligned := Nat.dvd_add ex.aligned (Nat.dvd_refl _)
        bound := fitting
        busy := .inl rfl
        consumer := waiting_posted fitting fits _
        record := (ex.record.put (by decide)).advance }
    · dsimp [remaining, consumerStep, Chart.step_at]
      omega

end Consumer

end Exchange

section Run

variable (b : FifoBuffer Unit) (data : Nat → Nat) (globalSize : Nat) (memory host : Nat → Nat)

/-- `synch_write` and `synch_read` on one buffer, whose event starts at WRITE. -/
def handshakeStart : Threads Burst (Op Unit) Nat (Shared Burst Unit) where
  proc
    | .producer => .start [(synchWrite b data globalSize).call]
    | .consumer => .start [(synchRead b globalSize).call]
  shared := .start (fun _ => MangoEventStatus.WRITE.value) memory host

def BurstsDone (c : Threads Burst (Op Unit) Nat (Shared Burst Unit)) : Prop :=
  (c.proc .producer).finished = true ∧ (c.proc .consumer).finished = true

abbrev BurstPoint : Burst → Type
  | .producer => SynchPoint .WRITE Nat
  | .consumer => SynchPoint .READ CopyPoint

abbrev BurstCall (_ : Burst) : Type := Unit

abbrev BurstPlaces : Type := Places BurstPoint BurstCall (Shared Burst Unit)

def burstChart : ∀ i, Chart (Op Unit) Nat (BurstPoint i) (BurstCall i)
  | .producer => writeChart b data globalSize
  | .consumer => readChart b globalSize

def handshakePlaces : BurstPlaces where
  proc
    | .producer => ⟨none, [()]⟩
    | .consumer => ⟨none, [()]⟩
  shared := .start (fun _ => MangoEventStatus.WRITE.value) memory host

theorem handshakeStart_eq : handshakeStart b data globalSize memory host =
    (handshakePlaces memory host).threads (burstChart b data globalSize) := by
  simp only [handshakeStart, handshakePlaces, World.map, World.mk.injEq, and_true]
  funext i
  cases i <;> rfl

abbrev burstAct := placeAct (burstChart b data globalSize) (exec (ρ := Unit) overwrite)

def Exchanging (left : Nat) (w : BurstPlaces) : Prop :=
  ∃ off stage, Exchange b data globalSize off stage (w.proc .producer) (w.proc .consumer) w.shared ∧
    remaining b globalSize off stage (w.proc .producer) (w.proc .consumer) = left

variable {b data globalSize memory host}

theorem exchanging_start : ∃ left, Exchanging b data globalSize left (handshakePlaces memory host) := by
  refine ⟨_, 0, .requested, ?_, rfl⟩
  exact {
    aligned := Nat.dvd_zero _
    bound := Nat.zero_le _
    busy := .inl rfl
    valid := trivial
    producer := .fresh rfl
    consumer := .fresh rfl
    record := ⟨rfl, rfl, rfl, rfl, fun _ none => absurd none (by simp), fun _ none => absurd none (by simp)⟩ }

theorem Exchange.step_party {off : Nat} {stage : Stage} {w : BurstPlaces}
    (ex : Exchange b data globalSize off stage (w.proc .producer) (w.proc .consumer) w.shared)
    (positive : 0 < b.size) (whole : b.size ∣ globalSize) (fits : globalSize < 2^32) (i : Burst) :
    ∃ left, Exchanging b data globalSize left (w.step (burstAct b data globalSize) i) ∧
      (stage.mover = i → w.proc i ≠ ⟨none, []⟩ →
        left < remaining b globalSize off stage (w.proc .producer) (w.proc .consumer)) := by
  cases i with
  | producer =>
    obtain ⟨off', stage', next, less⟩ := ex.producer_step positive whole fits
    have still : (w.step (burstAct b data globalSize) .producer).proc .consumer = w.proc .consumer :=
      World.step_proc_other (by decide) w
    refine ⟨_, ⟨off', stage', ?_, rfl⟩, fun moves started => ?_⟩
    · rw [still, World.step_proc_self]
      exact next
    · rw [still, World.step_proc_self]
      exact less ⟨moves, started⟩
  | consumer =>
    obtain ⟨off', stage', next, less⟩ := ex.consumer_step positive whole fits
    have still : (w.step (burstAct b data globalSize) .consumer).proc .producer = w.proc .producer :=
      World.step_proc_other (by decide) w
    refine ⟨_, ⟨off', stage', ?_, rfl⟩, fun moves started => ?_⟩
    · rw [still, World.step_proc_self]
      exact next
    · rw [still, World.step_proc_self]
      exact less ⟨moves, started⟩

theorem Exchange.written {off : Nat} {stage : Stage} {c : Place (SynchPoint .READ CopyPoint) Unit}
    {s : Shared Burst Unit} (ex : Exchange b data globalSize off stage ⟨none, []⟩ c s) :
    stage.mover = .consumer ∨ stage = .requested ∧ off = globalSize := by
  have ended := ex.producer
  cases stage with
  | requested => exact .inr ⟨rfl, SynchPoint.Waiting.ended ended⟩
  | storing j => cases ended
  | stored => cases ended
  | postedBack => cases ended
  | _ => exact .inl rfl

theorem Exchange.read {off : Nat} {stage : Stage} {p : Place (SynchPoint .WRITE Nat) Unit}
    {s : Shared Burst Unit} (ex : Exchange b data globalSize off stage p ⟨none, []⟩ s)
    (positive : 0 < b.size) : stage = .requested ∧ off = globalSize := by
  have ended := ex.consumer
  have fitting := ex.busy
  cases stage with
  | requested => exact ⟨rfl, SynchPoint.Waiting.ended ended⟩
  | handedBack => cases ended
  | loading j => cases ended
  | keeping j byte => cases ended
  | loaded => cases ended
  | _ =>
    have all : off = globalSize := SynchPoint.Waiting.ended ended
    have inside := fitting.resolve_left (by simp)
    omega

theorem Exchange.chunk_written {off : Nat} {stage : Stage} {p : Place (SynchPoint .WRITE Nat) Unit}
    {c : Place (SynchPoint .READ CopyPoint) Unit} {s : Shared Burst Unit}
    (ex : Exchange b data globalSize off stage p c s) {j : Nat}
    (written : j * b.size < off + stage.storedBytes b.size) : j * b.size ≤ off := by
  have filling : stage.storedBytes b.size ≤ b.size := by
    cases stage with
    | storing k => exact Nat.le_of_lt ex.valid
    | _ => simp
  obtain ⟨k, rfl⟩ := ex.aligned
  have within : b.size * j < b.size * (k + 1) := by
    rw [Nat.mul_succ, Nat.mul_comm]
    omega
  have earlier : j < k + 1 := Nat.lt_of_mul_lt_mul_left within
  rw [Nat.mul_comm]
  exact Nat.mul_le_mul_left _ (Nat.le_of_lt_succ earlier)

theorem Exchange.mover_done {off : Nat} {stage : Stage} {w : BurstPlaces}
    (ex : Exchange b data globalSize off stage (w.proc .producer) (w.proc .consumer) w.shared)
    (positive : 0 < b.size) (some : 0 < globalSize) (ended : w.proc stage.mover = ⟨none, []⟩) :
    ∀ i, w.proc i = ⟨none, []⟩ := by
  have finished : stage = .requested ∧ off = globalSize := by
    cases mover : stage.mover with
    | producer =>
      rw [mover] at ended
      rw [ended] at ex
      exact ex.written.resolve_left (by rw [mover]; decide)
    | consumer =>
      rw [mover] at ended
      rw [ended] at ex
      exact ex.read positive
  obtain ⟨rfl, all⟩ := finished
  intro i
  cases i with
  | producer => exact SynchPoint.Waiting.ends ex.producer some all
  | consumer => exact SynchPoint.Waiting.ends ex.consumer some all

theorem exchanging_reaches_done (positive : 0 < b.size) (whole : b.size ∣ globalSize)
    (fits : globalSize < 2^32) (some : 0 < globalSize) {left : Nat} {w : BurstPlaces}
    (exchanging : Exchanging b data globalSize left w) :
    ∃ schedule, ∀ i, (w.run (burstAct b data globalSize) schedule).proc i = ⟨none, []⟩ := by
  refine World.reaches_of_rank (Exchanging b data globalSize) (fun w => ∀ i, w.proc i = ⟨none, []⟩)
    (fun n w rank missed => ?_) exchanging
  obtain ⟨off, stage, ex, rfl⟩ := rank
  obtain ⟨m, next, less⟩ := ex.step_party positive whole fits stage.mover
  have started : w.proc stage.mover ≠ ⟨none, []⟩ := fun ended =>
    missed (ex.mover_done positive some ended)
  exact ⟨[stage.mover], m, less rfl started, next⟩

theorem exchanging_reachable (positive : 0 < b.size) (whole : b.size ∣ globalSize)
    (fits : globalSize < 2^32) {w : BurstPlaces}
    (reach : World.Reachable (burstAct b data globalSize) (handshakePlaces memory host) w) :
    ∃ left, Exchanging b data globalSize left w := by
  refine reach.invariant (motive := fun w => ∃ left, Exchanging b data globalSize left w)
    (fun w i _ kept => ?_) exchanging_start
  obtain ⟨_, off, stage, ex, rfl⟩ := kept
  obtain ⟨left, next, _⟩ := ex.step_party positive whole fits i
  exact ⟨left, next⟩

theorem burstsDone_iff (w : BurstPlaces) :
    BurstsDone (w.threads (burstChart b data globalSize)) ↔ ∀ i, w.proc i = ⟨none, []⟩ := by
  have producer := (burstChart b data globalSize .producer).thread_finished (w.proc .producer)
  have consumer := (burstChart b data globalSize .consumer).thread_finished (w.proc .consumer)
  constructor
  · intro done i
    cases i with
    | producer => exact producer.mp done.1
    | consumer => exact consumer.mp done.2
  · intro ended
    exact ⟨producer.mpr (ended .producer), consumer.mpr (ended .consumer)⟩

/-- The burst handshake moves every chunk once, in order, and can always be finished. -/
theorem burst_handshake (b : FifoBuffer Unit) (n : Nat) (data memory host : Nat → Nat)
    (positive : 0 < b.size) (chunks : 0 < n) (fits : n * b.size < 2^32)
    (c : Threads Burst (Op Unit) Nat (Shared Burst Unit))
    (reach : World.Reachable (threadAct (exec overwrite))
      (handshakeStart b data (n * b.size) memory host) c) :
    (∀ k < c.shared.count Op.keeps, c.shared.host k = data k) ∧
      (∀ j, j * b.size < c.shared.count Op.stores → j * b.size ≤ c.shared.count Op.loads) ∧
      (∃ schedule, BurstsDone (c.run (threadAct (exec overwrite)) schedule)) ∧
      (BurstsDone c → (∀ k < n * b.size, c.shared.host k = data k) ∧
        c.shared.regs.value () = MangoEventStatus.WRITE.value) := by
  have whole : b.size ∣ n * b.size := Nat.dvd_mul_left _ _
  have some : 0 < n * b.size := Nat.mul_pos chunks positive
  rw [handshakeStart_eq] at reach
  obtain ⟨w, run, rfl⟩ := reachable_places reach
  obtain ⟨left, exchanging⟩ := exchanging_reachable positive whole fits run
  obtain ⟨schedule, ended⟩ := exchanging_reaches_done positive whole fits some exchanging
  obtain ⟨off, stage, ex, rfl⟩ := exchanging
  refine ⟨?_, fun j written => ?_, ⟨schedule, ?_⟩, fun done => ?_⟩
  · intro k kept
    rw [World.map_shared, ex.record.keeps] at kept
    exact ex.record.host k kept
  · rw [World.map_shared, ex.record.stores] at written
    rw [World.map_shared, ex.record.loads]
    exact Nat.le_add_right_of_le (ex.chunk_written written)
  · rw [World.map_run fun i l s => (burstChart b data _ i).thread_step (exec overwrite i) l s]
    exact (burstsDone_iff _).mpr ended
  · have returned := (burstsDone_iff w).mp done
    rw [returned .consumer] at ex
    obtain ⟨rfl, rfl⟩ := ex.read positive
    exact ⟨ex.record.host, ex.record.value⟩

/-- After the first chunk has gone over and the second one has been written. -/
theorem burst_handshake_two_chunks : ∃ c,
    World.Reachable (threadAct (exec overwrite))
      (handshakeStart ⟨(), 64, 4⟩ id 8 (fun _ => 0) (fun _ => 0)) c ∧
    c.shared.count Op.stores = 8 ∧ c.shared.count Op.keeps = 4 ∧ (∀ k < 4, c.shared.host k = k) ∧
    4 ≤ c.shared.count Op.loads ∧
    ∃ schedule, BurstsDone (c.run (threadAct (exec overwrite)) schedule) ∧
      (∀ k < 8, (c.run (threadAct (exec overwrite)) schedule).shared.host k = k) ∧
      (c.run (threadAct (exec overwrite)) schedule).shared.regs.value () = MangoEventStatus.WRITE.value := by
  let steps : List Burst :=
    List.replicate 7 .producer ++ List.replicate 11 .consumer ++ List.replicate 6 .producer
  let c := (handshakeStart ⟨(), 64, 4⟩ id 8 (fun _ => 0) (fun _ => 0)).run (threadAct (exec overwrite)) steps
  have stores : c.shared.count Op.stores = 8 := by decide +kernel
  have keeps : c.shared.count Op.keeps = 4 := by decide +kernel
  have handshake := fun c => burst_handshake ⟨(), 64, 4⟩ 2 id (fun _ => 0) (fun _ => 0) (by decide) (by decide)
    (by decide) c
  have reach : World.Reachable (threadAct (exec overwrite))
      (handshakeStart ⟨(), 64, 4⟩ id 8 (fun _ => 0) (fun _ => 0)) c := ⟨steps, rfl⟩
  obtain ⟨copied, ordered, ⟨schedule, done⟩, _⟩ := handshake c reach
  obtain ⟨whole, value⟩ := (handshake _ (reach.run schedule)).2.2.2 done
  exact ⟨c, reach, stores, keeps, fun k below => copied k (by rw [keeps]; exact below),
    ordered 1 (by rw [stores]; decide), schedule, done, whole, value⟩

end Run

end MangoModel.Host
