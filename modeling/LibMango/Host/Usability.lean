import LibMango.Host.Allocation
import LibMango.Host.Translation

namespace MangoModel.Host

open Layout Fallible

section Trace

variable {tg : TaskGraph} {outcome : Nat → Bool} {s s' : Mm} {n : Nat}

/-- So many calls have been made, and a failure is logged unless all of them succeeded. -/
structure Traced (outcome : Nat → Bool) (n : Nat) (s : Mm) : Prop where
  count : s.calls.length = n
  logged : s.failed = [] ↔ ∀ m < n, outcome m = true

theorem Traced.called (traced : Traced outcome n s) (call : HnTlb) :
    Traced outcome (n + 1) (s.hnSetTlb outcome call) := by
  have count : (s.calls ++ [call]).length = n + 1 := by
    rw [List.length_append, List.length_singleton, traced.count]
  refine ⟨count, ?_⟩
  change (if outcome s.calls.length then s.failed else s.failed ++ [call]) = [] ↔ _
  rw [traced.count]
  constructor
  · intro silent m below
    split at silent
    · next good =>
      rcases Nat.lt_succ_iff_lt_or_eq.mp below with earlier | rfl
      · exact traced.logged.mp silent m earlier
      · exact good
    · exact absurd silent (List.append_ne_nil_of_right_ne_nil _ (List.cons_ne_nil _ _))
  · intro good
    rw [if_pos (good n (Nat.lt_succ_self n))]
    exact traced.logged.mpr fun m below => good m (Nat.lt_succ_of_lt below)

theorem Traced.same (traced : Traced outcome n s) (calls : s'.calls = s.calls)
    (failed : s'.failed = s.failed) : Traced outcome n s' :=
  ⟨by rw [calls, traced.count], by rw [failed, traced.logged]⟩

theorem setVaddrKernels_traced (assigned : Assigned tg) (traced : Traced outcome n s)
    (run : s.setVaddrKernels outcome tg = some s') : Traced outcome (n + tg.kernels.length) s' := by
  have start : Traced outcome n { s with entries := fun _ => none } := traced.same rfl rfl
  refine foldlM_invariant (motive := fun done s => Traced outcome (n + done.length) s)
    (fun done k s s' within traced one => ?_) start run
  have member : k ∈ tg.kernels := within.subset (by simp)
  obtain ⟨unit, placed, mapped⟩ := assigned.mapped k member
  rw [setVaddrKernel_mapped placed mapped one, List.length_append, List.length_singleton]
  have pool : Traced outcome _ (s.setPool k.id (bufferBase unit.arch)) := traced.same rfl rfl
  exact (pool.called (kernelTlb k unit)).same rfl rfl

def guests (steps : List (Nat × Buffer)) : Nat := steps.countP fun step => step.1 ≠ 0

theorem mapBuffer_traced {b : Buffer} {kId : Nat} (assigned : Assigned tg) (traced : Traced outcome n s)
    (run : s.mapBuffer outcome .MM tg b kId = some s') :
    Traced outcome (n + guests [(kId, b)]) s' := by
  rw [Mm.mapBuffer] at run
  split at run
  · next host =>
    cases run
    simpa [guests, host] using traced
  · next guest =>
    obtain ⟨k, found, one⟩ := Option.bind_eq_some_iff.mp run
    obtain ⟨unit, placed, _⟩ := assigned.mapped k (TaskGraph.getKernelById_some found).1
    obtain ⟨next, entry, _, _, rfl⟩ := setBuffTlb_mapped placed one
    have single : guests [(kId, b)] = 1 := by simp [guests, guest]
    rw [single]
    have addressed : Traced outcome n (s.setVirtAddrBuffer k.id b.id next) := traced.same rfl rfl
    exact (addressed.called _).same rfl rfl

theorem setVaddrBuffers_traced (assigned : Assigned tg) (traced : Traced outcome n s)
    (run : s.setVaddrBuffers outcome .MM tg = some s') : Traced outcome (n + guests tg.steps) s' := by
  rw [setVaddrBuffers_eq] at run
  refine foldlM_invariant (motive := fun done s => Traced outcome (n + guests done) s)
    (fun done step s s' _ traced one => ?_) traced run
  rw [guests, List.countP_append, ← Nat.add_assoc]
  exact mapBuffer_traced assigned traced one

theorem setVaddrEvents_traced (assigned : Assigned tg) (traced : Traced outcome n s)
    (run : s.setVaddrEvents outcome .MM tg = some s') :
    Traced outcome (n + tg.kernels.length) s' := by
  obtain ⟨t, waits, run⟩ := Option.bind_eq_some_iff.mp run
  obtain ⟨calls, failed, _⟩ : SameBuffers s t := by
    refine foldlM_same (fun t e t' one => ?_) waits
    obtain ⟨t₁, readers, writers⟩ := Option.bind_eq_some_iff.mp one
    exact (foldlM_same (fun _ _ _ one => mapEvent_same one) readers).trans
      (foldlM_same (fun _ _ _ one => mapEvent_same one) writers)
  refine foldlM_invariant (motive := fun done s => Traced outcome (n + done.length) s)
    (fun done k s s' within traced one => ?_) (traced.same calls failed) run
  have member : k ∈ tg.kernels := within.subset (by simp)
  obtain ⟨unit, placed, mapped⟩ := assigned.mapped k member
  obtain ⟨calls, failed, _⟩ := mapEvents_mapped placed mapped one
  rw [List.length_append, List.length_singleton]
  exact (traced.called _).same calls failed

/-- How many calls of `hn_set_tlb` an allocation makes. -/
def tlbCalls (tg : TaskGraph) : Nat := tg.kernels.length + guests tg.steps + tg.kernels.length

theorem setVaddr_traced (assigned : Assigned tg) (traced : Traced outcome 0 s)
    (run : s.setVaddr outcome .MM tg = some s') : Traced outcome (tlbCalls tg) s' := by
  obtain ⟨s₁, kernels, run⟩ := Option.bind_eq_some_iff.mp run
  obtain ⟨s₂, buffers, run⟩ := Option.bind_eq_some_iff.mp run
  have first := setVaddrKernels_traced assigned traced kernels
  rw [Nat.zero_add] at first
  exact setVaddrEvents_traced assigned (setVaddrBuffers_traced assigned first buffers) run

end Trace

section Units

variable {tg : TaskGraph} {k : Kernel} {unit : HwUnit} {s : Mm}

/-- No buffer of a unit is cut in two by the end of the address space, and no address is in two
    entries of its TLB. -/
structure UnitUsable (unit : HwUnit) (s : Mm) : Prop where
  whole : ∀ c ∈ onUnit unit.id s.calls, TLB_ENTRY_START ≤ c.entry → c.vaddrIni ≤ c.vaddrEnd
  apart : (onUnit unit.id s.calls).Pairwise HnTlb.Apart

theorem UnitMap.whole_iff (map : UnitMap tg k unit s)
    (inhabited : ∀ b ∈ tg.buffers, 0 < b.size ∧ b.size < 2^32) :
    (∀ c ∈ onUnit unit.id s.calls, TLB_ENTRY_START ≤ c.entry → c.vaddrIni ≤ c.vaddrEnd) ↔
      ∀ p ∈ place 64 Buffer.size (bufferBase unit.arch) (visits tg.steps k.id),
        (p.1.wrap (2^32)).stop ≤ 2^32 := by
  have whole : ∀ p ∈ place 64 Buffer.size (bufferBase unit.arch) (visits tg.steps k.id), ∀ n,
      (bufferTlb unit n p).vaddrIni ≤ (bufferTlb unit n p).vaddrEnd ↔
        (p.1.wrap (2^32)).stop ≤ 2^32 := by
    intro p placed n
    have size := place_size placed
    obtain ⟨positive, small⟩ := inhabited p.2 (mem_visits.mp size.2).1
    rw [← size.1] at positive small
    exact bufferTlb_whole positive small
  rw [map.calls]
  constructor
  · intro entries p placed
    obtain ⟨n, call⟩ : ∃ n, bufferTlb unit (TLB_ENTRY_START + n) p ∈ bufferTlbs unit _ :=
      bufferTlbs_of_mem placed
    have member := List.mem_cons_of_mem (kernelTlb k unit)
      (List.mem_append_left [eventsTlb k unit] call)
    exact (whole p placed _).mp (entries _ member (Nat.le_add_right _ _))
  · intro ranges c call buffer
    obtain ⟨n, p, placed, rfl⟩ := mem_bufferTlbs (mem_bufferTlbs_of_entry call buffer)
    exact (whole p placed _).mpr (ranges p placed)

/-- If the buffers reach the events, an address of the event window is in a buffer as well. -/
theorem UnitMap.below_of_apart (map : UnitMap tg k unit s)
    (inhabited : ∀ b ∈ tg.buffers, 0 < b.size ∧ b.size < 2^32)
    (whole : ∀ p ∈ place 64 Buffer.size (bufferBase unit.arch) (visits tg.steps k.id),
      (p.1.wrap (2^32)).stop ≤ 2^32)
    (apart : (onUnit unit.id s.calls).Pairwise HnTlb.Apart) :
    nextFree 64 Buffer.size (bufferBase unit.arch) (visits tg.steps k.id) ≤ roomLimit unit.arch := by
  by_contra past
  obtain ⟨p, placed, contains⟩ := place_overrun (by decide) (bufferBase_aligned unit.arch)
    (roomLimit_aligned unit.arch) (bufferBase_le_roomLimit unit.arch) (Nat.lt_of_not_le past)
  have size := place_size placed
  obtain ⟨positive, _⟩ := inhabited p.2 (mem_visits.mp size.2).1
  rw [← size.1] at positive
  obtain ⟨n, call⟩ : ∃ n, bufferTlb unit (TLB_ENTRY_START + n) p ∈ bufferTlbs unit _ :=
    bufferTlbs_of_mem placed
  have mine : (bufferTlb unit (TLB_ENTRY_START + n) p).Covers (roomLimit unit.arch % 2^32) :=
    (bufferTlb_covers positive (whole p placed)).mpr (Range.wrap_contains contains (whole p placed))
  have theirs : (eventsTlb k unit).Covers (roomLimit unit.arch % 2^32) := by
    apply eventsTlb_covers.mpr
    rw [← roomLimit_wrap]
    exact ⟨Nat.le_refl _, Nat.lt_add_of_pos_right (show 0 < 2^24 by decide)⟩
  rw [map.calls, List.pairwise_cons, List.pairwise_append] at apart
  exact apart.2.2.2 _ call _ (List.mem_singleton_self _) _ mine theirs

theorem UnitMap.usable_iff (map : UnitMap tg k unit s) (mapped : unit.arch.mapped = true)
    (inhabited : ∀ b ∈ tg.buffers, 0 < b.size ∧ b.size < 2^32) :
    UnitUsable unit s ↔ Fits unit.arch ((visits tg.steps k.id).map Buffer.size) := by
  constructor
  · intro usable
    have whole := (map.whole_iff inhabited).mp usable.whole
    refine ⟨?_, ?_⟩
    · rw [nextFree_map]
      exact map.below_of_apart inhabited whole usable.apart
    · intro q placed
      rw [place_map] at placed
      obtain ⟨p, member, rfl⟩ := List.mem_map.mp placed
      have stop := whole p member
      simp only [Range.stop, Range.wrap] at *
      omega
  · intro fits
    constructor
    · exact (map.whole_iff inhabited).mpr fun p placed => fits.whole placed
    · rw [map.calls]
      exact tlbs_apart mapped (fun b visited => (inhabited b (mem_visits.mp visited).1).1) fits

end Units

section Reports

variable {tg t : TaskGraph}

theorem visits_map (f : Buffer → Buffer) (steps : List (Nat × Buffer)) (kId : Nat) :
    (visits steps kId).map f = visits (steps.map fun step => (step.1, f step.2)) kId := by
  simp only [visits, List.map_filterMap, List.filterMap_map]
  apply List.filterMap_congr
  intro step _
  simp only [Function.comp_apply]
  split <;> rfl

theorem steps_bare (tg : TaskGraph) :
    tg.bare.steps = tg.steps.map fun step => (step.1, step.2.bare) := by
  simp [TaskGraph.steps, TaskGraph.bare, List.flatMap_map, List.map_flatMap, Buffer.bare,
    Function.comp_def]

theorem sizes_bare (same : t.bare = tg.bare) (kId : Nat) :
    (visits t.steps kId).map Buffer.size = (visits tg.steps kId).map Buffer.size := by
  have sizes : ∀ tg : TaskGraph,
      (visits tg.steps kId).map Buffer.size = (visits tg.bare.steps kId).map Buffer.size := by
    intro tg
    rw [steps_bare, ← visits_map, List.map_map]
    rfl
  rw [sizes t, sizes tg, same]

theorem tlbCalls_bare (same : t.bare = tg.bare) : tlbCalls t = tlbCalls tg := by
  have count : ∀ tg : TaskGraph, tlbCalls tg = tlbCalls tg.bare := by
    intro tg
    rw [tlbCalls, tlbCalls, steps_bare, guests, guests, List.countP_map]
    simp [TaskGraph.bare, Function.comp_def]
  rw [count t, count tg, same]

theorem ids_bare (same : t.bare = tg.bare) : t.kernels.map Kernel.id = tg.kernels.map Kernel.id := by
  have ids : ∀ tg : TaskGraph, tg.kernels.map Kernel.id = tg.bare.kernels.map Kernel.id := by
    intro tg
    rw [TaskGraph.bare, List.map_map]
    rfl
  rw [ids t, ids tg, same]

theorem buffers_bare (same : t.bare = tg.bare) : t.buffers.map Buffer.size = tg.buffers.map Buffer.size := by
  have sizes : ∀ tg : TaskGraph, tg.buffers.map Buffer.size = tg.bare.buffers.map Buffer.size := by
    intro tg
    rw [TaskGraph.bare, List.map_map]
    rfl
  rw [sizes t, sizes tg, same]

structure Assignment (tg : TaskGraph) (units : Nat → HwUnit) : Prop where
  ids : (tg.kernels.map Kernel.id).Nodup
  apart : (tg.kernels.map fun k => (units k.id).id).Nodup
  mapped : ∀ k ∈ tg.kernels, (units k.id).arch.mapped = true

theorem Assignment.assigned {units : Nat → HwUnit} (assignment : Assignment tg units)
    (same : t.bare = tg.bare) (placed : ∀ k ∈ t.kernels, k.unit = some (units k.id)) : Assigned t := by
  have ids := ids_bare same
  refine ⟨by rw [ids]; exact assignment.ids, ?_, fun k member => ⟨_, placed k member, ?_⟩⟩
  · have given : t.kernels.map (fun k => k.unit.map HwUnit.id) =
        (t.kernels.map Kernel.id).map fun id => some (units id).id := by
      rw [List.map_map]
      apply List.map_congr_left
      intro k member
      rw [placed k member]
      rfl
    have distinct := assignment.apart.map (fun _ _ => Option.some.inj)
    rw [List.map_map] at distinct
    rw [given, ids, List.map_map]
    exact distinct
  · have listed : k.id ∈ tg.kernels.map Kernel.id := by
      rw [← ids]
      exact List.mem_map_of_mem member
    obtain ⟨k', member', same'⟩ := List.mem_map.mp listed
    rw [← same']
    exact assignment.mapped k' member'

/-- Every call that programs a TLB has succeeded, and every unit can be used. -/
def Usable (r : Allocated) : Prop :=
  r.mm.failed = [] ∧ ∀ k ∈ r.tg.kernels, ∀ unit, k.unit = some unit → UnitUsable unit r.mm

variable {units : Nat → HwUnit} {manager : BbqueGraph → BbqueGraph} {outcome : Nat → Bool}
  {regs : Registers} {s : Mm} {r : Allocated}

/-- An allocation that reports success has made a usable mapping if and only if no call that programs
    a TLB fails and the buffers of each kernel have room on its unit. -/
theorem success_usable_iff (assignment : Assignment tg units)
    (inhabited : ∀ b ∈ tg.buffers, 0 < b.size ∧ b.size < 2^32)
    (run : resourceAllocation manager outcome tg regs s = some r)
    (placed : ∀ k ∈ r.tg.kernels, k.unit = some (units k.id)) :
    (r.code = .SUCCESS → Usable r) ↔ (∀ n < tlbCalls tg, outcome n = true) ∧
      ∀ k ∈ tg.kernels, Fits (units k.id).arch ((visits tg.steps k.id).map Buffer.size) := by
  obtain ⟨success, same, first, unit, head, on, mapping⟩ := resourceAllocation_cases run
  have assigned := assignment.assigned same placed
  have notGn : unit.arch ≠ .GN := by
    intro gn
    have mapped := assigned.arch (List.mem_of_mem_head? head) on
    rw [gn] at mapped
    cases mapped
  rw [if_neg notGn] at mapping
  have fresh : Traced outcome 0 s.renew := ⟨rfl, by simp [Mm.renew, Mm.start]⟩
  have traced := setVaddr_traced assigned fresh mapping
  rw [tlbCalls_bare same] at traced
  have positive : ∀ b ∈ r.tg.buffers, 0 < b.size ∧ b.size < 2^32 := by
    intro b member
    have listed : b.size ∈ tg.buffers.map Buffer.size := by
      rw [← buffers_bare same]
      exact List.mem_map_of_mem member
    obtain ⟨b', member', size⟩ := List.mem_map.mp listed
    rw [← size]
    exact inhabited b' member'
  have each : ∀ k ∈ r.tg.kernels, UnitUsable (units k.id) r.mm ↔
      Fits (units k.id).arch ((visits tg.steps k.id).map Buffer.size) := by
    intro k member
    have map := setVaddr_mapped assigned rfl mapping k member _ (placed k member)
    rw [← sizes_bare same]
    exact map.usable_iff (assigned.arch member (placed k member)) positive
  have ids : (∀ k ∈ r.tg.kernels, Fits (units k.id).arch ((visits tg.steps k.id).map Buffer.size)) ↔
      ∀ k ∈ tg.kernels, Fits (units k.id).arch ((visits tg.steps k.id).map Buffer.size) := by
    have named : ∀ list : List Kernel,
        (∀ k ∈ list, Fits (units k.id).arch ((visits tg.steps k.id).map Buffer.size)) ↔
          ∀ id ∈ list.map Kernel.id, Fits (units id).arch ((visits tg.steps id).map Buffer.size) := by
      simp
    rw [named, named, ids_bare same]
  rw [← traced.logged, ← ids, forall_prop_of_true success, Usable]
  apply and_congr_right
  intro _
  constructor
  · intro usable k member
    exact (each k member).mp (usable k member _ (placed k member))
  · intro fits k member unit on
    obtain rfl := Option.some.inj ((placed k member).symm.trans on)
    exact (each k member).mpr (fits k member)

/-- Kernels on the units they are to be on, with their images and buffers one behind the other and
    an event register for each event. -/
def placeOn (units : Nat → Nat × ArchType) (g : BbqueGraph) : BbqueGraph :=
  { g with
    tasks := g.tasks.map fun id task =>
      { task with
        mappedProcessor := (units id).1
        assignedArch := (units id).2
        targets := fun arch => (task.targets arch).map fun target =>
          { target with memoryBank := id, address := 2^28 * id } }
    buffers := g.buffers.map fun id b => { b with memoryBank := id, physicalAddress := 2^24 * id }
    events := g.events.map fun id _ => 4 * id + 4 }

def twoUnits (id : Nat) : HwUnit := if id = 1 then ⟨5, .PEAK⟩ else ⟨6, .DCT⟩

theorem success_usable_two_kernels :
    ∃ r, resourceAllocation (placeOn fun id => ((twoUnits id).id, unitToArchType (twoUnits id).arch))
        (fun _ => true) twoKernels (fun _ _ => 0) .start = some r ∧
      ((r.code = .SUCCESS → Usable r) ↔ (∀ n < tlbCalls twoKernels, true = true) ∧
        ∀ k ∈ twoKernels.kernels,
          Fits (twoUnits k.id).arch ((visits twoKernels.steps k.id).map Buffer.size)) := by
  have assignment : Assignment twoKernels twoUnits := ⟨by decide, by decide, by decide⟩
  have units : (resourceAllocation
      (placeOn fun id => ((twoUnits id).id, unitToArchType (twoUnits id).arch)) (fun _ => true)
      twoKernels (fun _ _ => 0) .start).map (fun r => r.tg.kernels.map fun k => (k.id, k.unit)) =
        some [(1, some ⟨5, .PEAK⟩), (2, some ⟨6, .DCT⟩)] := by decide
  obtain ⟨r, run, placed⟩ := Option.map_eq_some_iff.mp units
  refine ⟨r, run, success_usable_iff assignment (by decide) run ?_⟩
  intro k member
  have listed := List.mem_map_of_mem (f := fun k : Kernel => (k.id, k.unit)) member
  rw [placed] at listed
  simp only [List.mem_cons, List.not_mem_nil, or_false, Prod.mk.injEq] at listed
  rcases listed with ⟨id, unit⟩ | ⟨id, unit⟩ <;> rw [id, unit] <;> rfl

/-- A kernel on a PEAK unit with a buffer that is one byte longer than what there is up to the
    events. -/
def longBuffer : TaskGraph where
  kernels :=
    [{ id := 1, kernel := (KernelFunction.empty.load (fun _ => true) "peak" .PEAK .BINARY).2
       buffersIn := [10], buffersOut := [], threadCount := 0
       terminationEvent := event 1, taskEvents := [event 2, event 3, event 4]
       unit := none, phyAddr := 0, memTile := 0, clusterId := 0 }]
  buffers :=
    [{ id := 10, size := 0x0E000001, type := .BUFFER, kernelsIn := [0], kernelsOut := [1]
       event := event 5, phyAddr := 0, memTile := 0, clusterId := 0 }]
  events := [event 1, event 2, event 3, event 4, event 5]
where
  event (id : Nat) : Event := ⟨id, 0, [1], [1], 0⟩

theorem longBuffer_success :
    ∃ r, resourceAllocation (placeOn fun _ => (5, .PEAK)) (fun _ => true) longBuffer (fun _ _ => 0)
      .start = some r ∧ r.code = .SUCCESS ∧ ¬ Usable r := by
  have entries : (resourceAllocation (placeOn fun _ => (5, .PEAK)) (fun _ => true) longBuffer
      (fun _ _ => 0) .start).map (fun r => (r.code, r.tg.kernels.map Kernel.unit,
        (onUnit 5 r.mm.calls).map fun c => (c.vaddrIni, c.vaddrEnd))) =
      some (.SUCCESS, [some ⟨5, .PEAK⟩],
        [(0x30000000, 0x3FFFFFFF), (0x50000000, 0x5E000000), (0x5E000000, 0x5EFFFFFF)]) := by decide
  obtain ⟨r, run, found⟩ := Option.map_eq_some_iff.mp entries
  simp only [Prod.mk.injEq] at found
  obtain ⟨code, units, ranges⟩ := found
  refine ⟨r, run, code, ?_⟩
  rintro ⟨_, usable⟩
  obtain ⟨k, kernels, unit⟩ := List.map_eq_singleton_iff.mp units
  have apart := (usable k (by simp [kernels]) _ unit).apart
  rcases calls : onUnit 5 r.mm.calls with _ | ⟨image, _ | ⟨buffer, _ | ⟨events, rest⟩⟩⟩
  all_goals rw [calls] at ranges
  all_goals simp only [List.map_cons, List.map_nil, List.cons.injEq, Prod.mk.injEq, reduceCtorEq,
    and_false] at ranges
  obtain ⟨_, ⟨first, last⟩, ⟨start, stop⟩, _⟩ := ranges
  have pairs := apart
  rw [show (⟨5, .PEAK⟩ : HwUnit).id = 5 from rfl, calls, List.pairwise_cons, List.pairwise_cons] at pairs
  have disjoint := pairs.2.1 events List.mem_cons_self 0x5E000000
  apply disjoint
  · exact ⟨by omega, by omega⟩
  · exact ⟨by omega, by omega⟩

end Reports

end MangoModel.Host
