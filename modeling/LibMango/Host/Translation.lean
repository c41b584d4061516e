import LibMango.Host.MmTrace

namespace MangoModel.Host

open Layout

namespace HnTlb

def Covers (c : HnTlb) (a : Nat) : Prop := c.vaddrIni ≤ a ∧ a ≤ c.vaddrEnd

instance (c : HnTlb) (a : Nat) : Decidable (c.Covers a) := inferInstanceAs (Decidable (_ ∧ _))

def translate (c : HnTlb) (a : Nat) : Nat := c.paddr + (a - c.vaddrIni)

def Apart (c d : HnTlb) : Prop := ∀ a, c.Covers a → ¬ d.Covers a

theorem apart_of_ranges {c d : HnTlb} {r s : Range} (left : ∀ a, c.Covers a → r.Contains a)
    (right : ∀ a, d.Covers a → s.Contains a) (apart : r.Apart s) : c.Apart d := fun a mine theirs =>
  apart.not_both (left a mine) (right a theirs)

end HnTlb

section Room

def imageRange (arch : UnitType) : Range := ⟨kernelBase arch, imageSize arch⟩

def eventRange (arch : UnitType) : Range := ⟨Mm.eventBase arch, 2^24⟩

/-- How far the running address of a kernel's buffers can go until it meets the events, in
    addresses that are not wrapped. -/
def roomLimit : UnitType → Nat
  | .NUP => NUP_TLB_BASE_SYNCH
  | .DCT => 2^32 + TLB_BASE_SYNCH_DCT
  | _ => TLB_BASE_SYNCH

/-- Buffers of these sizes have room: they do not reach the events, and none of them crosses the
    end of the address space. -/
def Fits (arch : UnitType) (sizes : List Nat) : Prop :=
  nextFree 64 id (bufferBase arch) sizes ≤ roomLimit arch ∧
    ∀ p ∈ place 64 id (bufferBase arch) sizes, ¬ (p.1.first < 2^32 ∧ 2^32 < p.1.stop)

instance (arch : UnitType) (sizes : List Nat) : Decidable (Fits arch sizes) :=
  inferInstanceAs (Decidable (_ ∧ _))

variable {arch : UnitType} {sizes : List Nat}

theorem roomLimit_aligned (arch : UnitType) : 64 ∣ roomLimit arch := by
  cases arch <;> decide

theorem bufferBase_le_roomLimit (arch : UnitType) : bufferBase arch ≤ roomLimit arch := by
  cases arch <;> decide

theorem roomLimit_le (arch : UnitType) : roomLimit arch + 2^24 ≤ bufferBase arch + 2^32 := by
  cases arch <;> decide

theorem roomLimit_wrap (arch : UnitType) :
    (Range.mk (roomLimit arch) (2^24)).wrap (2^32) = eventRange arch := by
  cases arch <;> decide

theorem roomLimit_image (arch : UnitType) : roomLimit arch ≤ 2^32 + kernelBase arch ∧
    2^32 + kernelBase arch + imageSize arch ≤ bufferBase arch + 2^32 := by
  cases arch <;> decide

theorem imageRange_wrap (arch : UnitType) :
    (Range.mk (2^32 + kernelBase arch) (imageSize arch)).wrap (2^32) = imageRange arch := by
  cases arch <;> decide

theorem image_event_apart (arch : UnitType) : (imageRange arch).Apart (eventRange arch) := by
  cases arch <;> decide

variable {visited : List Buffer} {p : Range × Buffer}

theorem Fits.below (fits : Fits arch (visited.map Buffer.size)) :
    nextFree 64 Buffer.size (bufferBase arch) visited ≤ roomLimit arch := by
  rw [← nextFree_map]
  exact fits.1

theorem Fits.whole (fits : Fits arch (visited.map Buffer.size))
    (placed : p ∈ place 64 Buffer.size (bufferBase arch) visited) :
    (p.1.wrap (2^32)).stop ≤ 2^32 := by
  have bounds := place_bounds placed
  have below := fits.below
  have limit := roomLimit_le arch
  have base := bufferBase_lt arch
  have crosses := fits.2 (p.1, p.2.size) (by
    rw [place_map]
    exact List.mem_map_of_mem placed)
  simp only [Range.stop, Range.wrap] at *
  omega

theorem Fits.apart (fits : Fits arch (visited.map Buffer.size))
    (placed : p ∈ place 64 Buffer.size (bufferBase arch) visited) {r : Range}
    (behind : roomLimit arch ≤ r.first) (lap : r.stop ≤ bufferBase arch + 2^32) :
    (p.1.wrap (2^32)).Apart (r.wrap (2^32)) := by
  have bounds := place_bounds placed
  have below := fits.below
  exact Range.wrap_apart (by omega) bounds.1 lap (fits.whole placed)

theorem Fits.ordered (fits : Fits arch (visited.map Buffer.size)) :
    (place 64 Buffer.size (bufferBase arch) visited).Pairwise fun p q =>
      (p.1.wrap (2^32)).Apart (q.1.wrap (2^32)) := by
  refine place_ordered.imp_of_mem fun {p q} placed later order => ?_
  have limit := roomLimit_le arch
  have below := fits.below
  have bounds := place_bounds later
  exact Range.wrap_apart order (place_bounds placed).1 (by omega) (fits.whole placed)

theorem fits_of_le (limit : nextFree 64 Buffer.size (bufferBase arch) visited ≤ min (roomLimit arch) (2^32)) :
    Fits arch (visited.map Buffer.size) := by
  refine ⟨?_, fun p placed => ?_⟩
  · rw [nextFree_map]
    omega
  · have bounds := place_bounds placed
    rw [nextFree_map] at bounds
    omega

end Room

section Tlbs

variable {k : Kernel} {unit : HwUnit} {placed : List (Range × Buffer)} {p : Range × Buffer}
  {entry a : Nat}

theorem mem_bufferTlbs {c : HnTlb} (member : c ∈ bufferTlbs unit placed) :
    ∃ n, ∃ p ∈ placed, c = bufferTlb unit (TLB_ENTRY_START + n) p := by
  obtain ⟨n, bound, same⟩ := List.mem_mapIdx.mp member
  exact ⟨n, _, List.getElem_mem bound, same.symm⟩

theorem bufferTlbs_of_mem (member : p ∈ placed) :
    ∃ n, bufferTlb unit (TLB_ENTRY_START + n) p ∈ bufferTlbs unit placed := by
  obtain ⟨n, bound, same⟩ := List.mem_iff_getElem.mp member
  exact ⟨n, List.mem_mapIdx.mpr ⟨n, bound, by rw [same]⟩⟩

theorem mem_bufferTlbs_of_entry {c : HnTlb}
    (call : c ∈ kernelTlb k unit :: (bufferTlbs unit placed ++ [eventsTlb k unit]))
    (buffer : TLB_ENTRY_START ≤ c.entry) : c ∈ bufferTlbs unit placed := by
  rcases List.mem_cons.mp call with image | rest
  · subst image
    exact absurd buffer (show ¬ TLB_ENTRY_START ≤ TLB_ENTRY_KERNEL by decide)
  · rcases List.mem_append.mp rest with mapped | last
    · exact mapped
    · obtain rfl := List.mem_singleton.mp last
      exact absurd buffer (show ¬ TLB_ENTRY_START ≤ TLB_ENTRY_EVENTS by decide)

theorem bufferTlbs_pairwise {R : HnTlb → HnTlb → Prop} (related : placed.Pairwise fun p q =>
      ∀ m n, R (bufferTlb unit m p) (bufferTlb unit n q)) : (bufferTlbs unit placed).Pairwise R := by
  induction placed using List.reverseRecOn with
  | nil => exact List.Pairwise.nil
  | append_singleton earlier p ih =>
    rw [bufferTlbs_append, List.pairwise_append]
    rw [List.pairwise_append] at related
    refine ⟨ih related.1, List.pairwise_singleton _ _, fun c member d now => ?_⟩
    obtain ⟨n, q, placed, rfl⟩ := mem_bufferTlbs member
    obtain rfl := List.mem_singleton.mp now
    exact related.2.2 q placed p (List.mem_singleton_self p) _ _

theorem bufferTlbs_entry :
    (bufferTlbs unit placed).map HnTlb.entry = List.range' TLB_ENTRY_START placed.length := by
  induction placed using List.reverseRecOn with
  | nil => rfl
  | append_singleton earlier p ih =>
    rw [bufferTlbs_append, List.map_append, ih, List.length_append, List.length_singleton,
      List.range'_1_concat]
    rfl

theorem kernelTlb_covers (loaded : 0 < imageSize unit.arch) :
    (kernelTlb k unit).Covers a ↔ (imageRange unit.arch).Contains a := by
  simp only [HnTlb.Covers, kernelTlb, Range.Contains, Range.stop, imageRange]
  omega

theorem eventsTlb_covers : (eventsTlb k unit).Covers a ↔ (eventRange unit.arch).Contains a := by
  simp only [HnTlb.Covers, eventsTlb, Range.Contains, Range.stop, eventRange]
  omega

theorem bufferTlb_whole (inhabited : 0 < p.1.size) (small : p.1.size < 2^32) :
    (bufferTlb unit entry p).vaddrIni ≤ (bufferTlb unit entry p).vaddrEnd ↔
      (p.1.wrap (2^32)).stop ≤ 2^32 := by
  simp only [bufferTlb, Range.stop, Range.wrap, uint32]
  omega

theorem bufferTlb_covers (inhabited : 0 < p.1.size) (whole : (p.1.wrap (2^32)).stop ≤ 2^32) :
    (bufferTlb unit entry p).Covers a ↔ (p.1.wrap (2^32)).Contains a := by
  simp only [Range.Contains, Range.stop, Range.wrap] at *
  simp only [HnTlb.Covers, bufferTlb, uint32]
  omega

theorem imageSize_pos {arch : UnitType} (mapped : arch.mapped = true) : 0 < imageSize arch := by
  cases arch <;> first | decide | cases mapped

/-- Where the buffers have room, no address is in two entries of the unit's TLB. -/
theorem tlbs_apart {visited : List Buffer} (mapped : unit.arch.mapped = true)
    (inhabited : ∀ b ∈ visited, 0 < b.size) (fits : Fits unit.arch (visited.map Buffer.size)) :
    (kernelTlb k unit :: (bufferTlbs unit (place 64 Buffer.size (bufferBase unit.arch) visited) ++
      [eventsTlb k unit])).Pairwise HnTlb.Apart := by
  have positive : ∀ p ∈ place 64 Buffer.size (bufferBase unit.arch) visited, 0 < p.1.size := by
    intro p placed
    rw [(place_size placed).1]
    exact inhabited p.2 (place_size placed).2
  have covers : ∀ p ∈ place 64 Buffer.size (bufferBase unit.arch) visited, ∀ n a,
      (bufferTlb unit n p).Covers a → (p.1.wrap (2^32)).Contains a := fun p placed n a =>
    (bufferTlb_covers (positive p placed) (fits.whole placed)).mp
  have limit := roomLimit_le unit.arch
  have image := roomLimit_image unit.arch
  rw [List.pairwise_cons, List.pairwise_append]
  refine ⟨fun c member => ?_, ?_, List.pairwise_singleton _ _, fun c member d last => ?_⟩
  · have mine := fun a => (kernelTlb_covers (k := k) (a := a) (imageSize_pos mapped)).mp
    rcases List.mem_append.mp member with buffer | last
    · obtain ⟨n, p, placed, rfl⟩ := mem_bufferTlbs buffer
      apply HnTlb.apart_of_ranges mine (covers p placed _)
      rw [← imageRange_wrap]
      exact (fits.apart (r := ⟨_, imageSize unit.arch⟩) placed image.1 image.2).symm
    · obtain rfl := List.mem_singleton.mp last
      exact HnTlb.apart_of_ranges mine (fun a => eventsTlb_covers.mp) (image_event_apart _)
  · refine bufferTlbs_pairwise (fits.ordered.imp_of_mem fun {p q} first later apart m n => ?_)
    exact HnTlb.apart_of_ranges (covers p first m) (covers q later n) apart
  · obtain ⟨n, p, placed, rfl⟩ := mem_bufferTlbs member
    obtain rfl := List.mem_singleton.mp last
    apply HnTlb.apart_of_ranges (covers p placed _) (fun a => eventsTlb_covers.mp)
    rw [← roomLimit_wrap]
    exact fits.apart placed (Nat.le_refl _) limit

end Tlbs

section Correctness

/-- The end of the window in which a kernel's buffers are mapped. -/
def bufferLimit : UnitType → Nat
  | .NUP => NUP_TLB_BASE_SYNCH
  | .DCT => 2^32
  | _ => TLB_BASE_SYNCH

/-- What a kernel finds behind the virtual addresses of its unit. -/
structure Translated (tg : TaskGraph) (k : Kernel) (unit : HwUnit) (s : Mm) : Prop where
  bytes : ∀ b ∈ tg.buffers, k.id ∈ b.kernelsIn ∨ k.id ∈ b.kernelsOut →
    ∃ addr, s.tlbBuffers k.id b.id = some addr ∧ ∀ offset < b.size,
      ∃ c, (onUnit unit.id s.calls).filter (fun c => c.Covers (addr + offset)) = [c] ∧
        c.translate (addr + offset) = b.phyAddr + offset ∧
        c.target = .memory ∧ c.memTile = b.memTile ∧ c.clusterId = b.clusterId
  apart : (onUnit unit.id s.calls).Pairwise HnTlb.Apart
  numbers : (onUnit unit.id s.calls).map HnTlb.entry = TLB_ENTRY_KERNEL ::
    (List.range' TLB_ENTRY_START (visits tg.steps k.id).length ++ [TLB_ENTRY_EVENTS])
  once : ((onUnit unit.id s.calls).map HnTlb.entry).Nodup
  window : ∀ c ∈ onUnit unit.id s.calls, TLB_ENTRY_START ≤ c.entry →
    bufferBase unit.arch ≤ c.vaddrIni ∧ c.vaddrIni ≤ c.vaddrEnd ∧
      c.vaddrEnd < bufferLimit unit.arch ∧ 64 ∣ c.vaddrIni

variable {tg : TaskGraph} {k : Kernel} {unit : HwUnit} {s s' : Mm}

theorem bufferLimit_le (arch : UnitType) : bufferLimit arch ≤ min (roomLimit arch) (2^32) := by
  cases arch <;> decide

theorem UnitMap.numbers (map : UnitMap tg k unit s) :
    (onUnit unit.id s.calls).map HnTlb.entry = TLB_ENTRY_KERNEL ::
      (List.range' TLB_ENTRY_START (visits tg.steps k.id).length ++ [TLB_ENTRY_EVENTS]) := by
  rw [map.calls, List.map_cons, List.map_append, bufferTlbs_entry, place_length]
  rfl

theorem UnitMap.once (map : UnitMap tg k unit s) : ((onUnit unit.id s.calls).map HnTlb.entry).Nodup := by
  rw [map.numbers, List.nodup_cons, List.nodup_append, List.mem_append, List.mem_range'_1]
  refine ⟨by simp [TLB_ENTRY_KERNEL, TLB_ENTRY_START, TLB_ENTRY_EVENTS], List.nodup_range', by simp, ?_⟩
  intro n buffer m last
  obtain rfl := List.mem_singleton.mp last
  have start := (List.mem_range'_1.mp buffer).1
  simp only [TLB_ENTRY_START, TLB_ENTRY_EVENTS] at *
  omega

theorem UnitMap.window (map : UnitMap tg k unit s) (inhabited : ∀ b ∈ tg.buffers, 0 < b.size)
    (room : nextFree 64 Buffer.size (bufferBase unit.arch) (visits tg.steps k.id) ≤ bufferLimit unit.arch)
    {c : HnTlb} (call : c ∈ onUnit unit.id s.calls) (buffer : TLB_ENTRY_START ≤ c.entry) :
    bufferBase unit.arch ≤ c.vaddrIni ∧ c.vaddrIni ≤ c.vaddrEnd ∧
      c.vaddrEnd < bufferLimit unit.arch ∧ 64 ∣ c.vaddrIni := by
  have limit := bufferLimit_le unit.arch
  rw [map.calls] at call
  obtain ⟨n, p, placed, rfl⟩ := mem_bufferTlbs (mem_bufferTlbs_of_entry call buffer)
  have bounds := place_bounds placed
  have aligned := place_aligned (by decide) (bufferBase_aligned unit.arch) placed
  have size := place_size placed
  have positive : 0 < p.1.size := by
    rw [size.1]
    exact inhabited p.2 (mem_visits.mp size.2).1
  simp only [Range.stop] at bounds
  simp only [bufferTlb, uint32]
  omega

theorem UnitMap.bytes (map : UnitMap tg k unit s) (apart : (onUnit unit.id s.calls).Pairwise HnTlb.Apart)
    (distinct : (tg.buffers.map Buffer.id).Nodup)
    (room : nextFree 64 Buffer.size (bufferBase unit.arch) (visits tg.steps k.id) ≤ bufferLimit unit.arch)
    {b : Buffer} (visited : b ∈ visits tg.steps k.id) :
    ∃ addr, s.tlbBuffers k.id b.id = some addr ∧ ∀ offset < b.size,
      ∃ c, (onUnit unit.id s.calls).filter (fun c => c.Covers (addr + offset)) = [c] ∧
        c.translate (addr + offset) = b.phyAddr + offset ∧
        c.target = .memory ∧ c.memTile = b.memTile ∧ c.clusterId = b.clusterId := by
  have limit := bufferLimit_le unit.arch
  obtain ⟨p, placed, same, found⟩ := map.tlb b visited
  have size := place_size placed
  have bounds := place_bounds placed
  have it : p.2 = b := List.inj_on_of_nodup_map distinct (mem_visits.mp size.2).1
    (mem_visits.mp visited).1 same
  refine ⟨_, found, fun offset inside => ?_⟩
  obtain ⟨n, call⟩ : ∃ n, bufferTlb unit (TLB_ENTRY_START + n) p ∈ bufferTlbs unit _ :=
    bufferTlbs_of_mem placed
  have member : bufferTlb unit (TLB_ENTRY_START + n) p ∈ onUnit unit.id s.calls := by
    rw [map.calls]
    exact List.mem_cons_of_mem _ (List.mem_append_left _ call)
  simp only [Range.stop] at bounds
  rw [it] at size
  have first : uint32 p.1.first = p.1.first := uint32_of_lt (by omega)
  have covers : (bufferTlb unit (TLB_ENTRY_START + n) p).Covers (uint32 p.1.first + offset) := by
    refine ⟨Nat.le_add_right _ _, ?_⟩
    simp only [bufferTlb, uint32] at *
    omega
  refine ⟨_, filter_exclusive (apart.imp fun {c d} apart mine => ?_) member (decide_eq_true covers), ?_⟩
  · exact decide_eq_false (apart _ (of_decide_eq_true mine))
  · rw [← it]
    refine ⟨?_, rfl, rfl, rfl⟩
    exact congrArg _ (Nat.add_sub_cancel_left _ _)

theorem UnitMap.translated (map : UnitMap tg k unit s) (mapped : unit.arch.mapped = true)
    (guest : k.id ≠ 0) (distinct : (tg.buffers.map Buffer.id).Nodup)
    (inhabited : ∀ b ∈ tg.buffers, 0 < b.size)
    (room : nextFree 64 Buffer.size (bufferBase unit.arch) (visits tg.steps k.id) ≤ bufferLimit unit.arch) :
    Translated tg k unit s := by
  have limit := bufferLimit_le unit.arch
  have apart : (onUnit unit.id s.calls).Pairwise HnTlb.Apart := by
    rw [map.calls]
    refine tlbs_apart mapped (fun b visited => ?_) (fits_of_le (Nat.le_trans room limit))
    exact inhabited b (mem_visits.mp visited).1
  refine ⟨fun b member lists => ?_, apart, map.numbers, map.once, fun c call buffer => ?_⟩
  · exact map.bytes apart distinct room (mem_visits.mpr ⟨member, lists, guest⟩)
  · exact map.window inhabited room call buffer

/-- Where the running addresses stay in their windows, the three passes come to an end on every
    closed graph, and every kernel then finds each of its buffers byte by byte at the address it is
    given, through one entry of its unit's TLB. -/
theorem setVaddr_translates {outcome : Nat → Bool} (assigned : Assigned tg)
    (guests : ∀ k ∈ tg.kernels, k.id ≠ 0) (distinct : (tg.buffers.map Buffer.id).Nodup)
    (inhabited : ∀ b ∈ tg.buffers, 0 < b.size)
    (room : ∀ k ∈ tg.kernels, ∀ unit, k.unit = some unit →
      nextFree 64 Buffer.size (bufferBase unit.arch) (visits tg.steps k.id) ≤ bufferLimit unit.arch)
    (fresh : s.calls = []) :
    ((∃ s', s.setVaddr outcome .MM tg = some s') ↔ tg.Closed) ∧
      ∀ s', s.setVaddr outcome .MM tg = some s' →
        ∀ k ∈ tg.kernels, ∀ unit, k.unit = some unit → Translated tg k unit s' := by
  refine ⟨setVaddr_isSome_iff assigned fresh, fun s' run k member unit placed => ?_⟩
  have map := setVaddr_mapped assigned fresh run k member unit placed
  exact map.translated (assigned.arch member placed) (guests k member) distinct inhabited
    (room k member unit placed)

/-- A kernel on a PEAK unit that updates one buffer in place and fills another for a kernel on a
    DCT unit. -/
def twoKernels : TaskGraph where
  kernels :=
    [{ id := 1, kernel := (KernelFunction.empty.load (fun _ => true) "peak" .PEAK .BINARY).2
       buffersIn := [10], buffersOut := [10, 11], threadCount := 0
       terminationEvent := event 18, taskEvents := [event 20, event 21, event 22]
       unit := some ⟨5, .PEAK⟩, phyAddr := 0x1000, memTile := 0, clusterId := 0 },
     { id := 2, kernel := (KernelFunction.empty.load (fun _ => true) "dct" .DCT .HARDWARE).2
       buffersIn := [11], buffersOut := [], threadCount := 0
       terminationEvent := event 19, taskEvents := [event 23, event 24, event 25]
       unit := some ⟨6, .DCT⟩, phyAddr := 0x2000, memTile := 1, clusterId := 0 }]
  buffers :=
    [{ id := 10, size := 100, type := .BUFFER, kernelsIn := [1], kernelsOut := [1, 0], event := event 26
       phyAddr := 0x8000, memTile := 0, clusterId := 0 },
     { id := 11, size := 64, type := .FIFO, kernelsIn := [1], kernelsOut := [2], event := event 27
       phyAddr := 0x9000, memTile := 1, clusterId := 0 }]
  events := (List.range 10).map fun n => event (18 + n)
where
  event (id : Nat) : Event := ⟨id, 4 * id, [1], [0], 0⟩

theorem setVaddr_translates_two_kernels :
    ((∃ s', Mm.start.setVaddr (fun _ => true) .MM twoKernels = some s') ↔ twoKernels.Closed) ∧
      ∀ s', Mm.start.setVaddr (fun _ => true) .MM twoKernels = some s' →
        ∀ k ∈ twoKernels.kernels, ∀ unit, k.unit = some unit → Translated twoKernels k unit s' := by
  refine setVaddr_translates ⟨by decide, by decide, ?_⟩ (by decide) (by decide) (by decide) ?_ rfl
  · simp [twoKernels, UnitType.mapped]
  · simp only [twoKernels, List.forall_mem_cons, Option.some.injEq, forall_eq']
    decide

end Correctness

end MangoModel.Host
