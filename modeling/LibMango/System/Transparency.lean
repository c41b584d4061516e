import LibMango.System.Allotted
import LibMango.System.Registration

namespace MangoModel.System

open Host Device OpenCL Interleave Layout Fallible Numeral Simulation

/-- The resource manager keeps its promises to an application, no call that programs a TLB fails, each
    kernel's buffers have room in their window of its unit's address space, and the arguments of the kernels
    on PEAK units are theirs. -/
structure Provided (p : Application) (manager : BbqueGraph → BbqueGraph) (outcome : Nat → Bool) : Prop where
  inhabited : ∀ b ∈ p.tg.buffers, 0 < b.size
  assignment : Assignment p.tg p.units
  hosted : ∀ asked, toBbque p.tg = some asked → Hosted p.units asked (manager asked)
  room : ∀ k ∈ p.tg.kernels,
    nextFree 64 Buffer.size (bufferBase (p.units k.id).arch) (visits p.tg.steps k.id) ≤
      bufferLimit (p.units k.id).arch
  programmed : ∀ n < tlbCalls p.tg, outcome n = true
  given : ∀ k ∈ p.tg.kernels, (p.units k.id).arch = .PEAK → ∀ a ∈ p.arguments k.id, Given p.tg k a

/-- An application of which the context has all objects, whose graph has been allocated. -/
structure Deployed (p : Application) (cxt : Context) (manager : BbqueGraph → BbqueGraph)
    (outcome : Nat → Bool) (regs : Registers) (mm : Mm) (r : Allocated) : Prop where
  formed : Formed p.tg
  registered : Registered cxt p.tg
  provided : Provided p manager outcome
  run : resourceAllocation manager outcome p.tg regs mm = some r

/-- The deployment that an allocation leads to, where a `long` of the units has `w` bits. -/
def Application.deploy (p : Application) (cxt : Context) (r : Allocated) (w : Nat) : Deployment where
  cxt := OpenCL.store cxt r.tg
  mm := r.mm
  arguments := p.arguments
  kargs := p.kargs
  w := w

/-- Behind the address there are the bytes of a buffer, for a unit. -/
def Behind (p : Application) (d : Deployment) (unit : HwUnit) (base : Nat) (b : Buffer) : Prop :=
  ∀ offset < b.size, byteAt d.mm unit (base + offset) = some ((bufferWindows p d.cxt).cell b.id offset)

/-- Behind the address there is the register of an event, for a unit. -/
def LeadsTo (p : Application) (d : Deployment) (unit : HwUnit) (vaddr : Nat) (e : Event) : Prop :=
  slotAt d.mm unit vaddr = some ((eventWindows p d.cxt).cell e.id 0)

namespace Deployed

variable {p : Application} {cxt : Context} {manager : BbqueGraph → BbqueGraph} {outcome : Nat → Bool}
  {regs : Registers} {mm : Mm} {r : Allocated} (deployed : Deployed p cxt manager outcome regs mm r)

include deployed

theorem allotted : Allotted p cxt manager outcome regs mm r :=
  ⟨deployed.formed, deployed.registered, fun asked sent => (deployed.provided.hosted asked sent).toHoused,
    deployed.run⟩

theorem located : ∃ asked, toBbque p.tg = some asked ∧ Hosted p.units asked (manager asked) ∧
    Located (manager asked) r.tg := by
  obtain ⟨asked, sent, _⟩ := Option.bind_eq_some_iff.mp deployed.run
  have hosted := deployed.provided.hosted asked sent
  exact ⟨asked, sent, hosted, resourceAllocation_located deployed.formed.bufferEvents sent hosted.answers
    deployed.run⟩

theorem assigned : Assigned r.tg :=
  deployed.provided.assignment.assigned deployed.allotted.bare fun _ member => deployed.allotted.on member

theorem mapping : mm.renew.setVaddr outcome .MM r.tg = some r.mm := by
  obtain ⟨_, _, first, unit, head, on, mapping⟩ := resourceAllocation_cases deployed.run
  have mapped := deployed.assigned.arch (List.mem_of_mem_head? head) on
  have notGn : unit.arch ≠ .GN := by
    intro gn
    rw [gn] at mapped
    cases mapped
  rwa [if_neg notGn] at mapping

theorem silent : r.mm.failed = [] := by
  have fresh : Traced outcome 0 mm.renew := ⟨rfl, by simp [Mm.renew, Mm.start]⟩
  have traced := setVaddr_traced deployed.assigned fresh deployed.mapping
  rw [tlbCalls_bare deployed.allotted.bare] at traced
  exact traced.logged.mpr deployed.provided.programmed

theorem unitMap {k : Kernel} (member : k ∈ r.tg.kernels) : UnitMap r.tg k (p.units k.id) r.mm :=
  setVaddr_mapped deployed.assigned rfl deployed.mapping k member _ (deployed.allotted.on member)

theorem roomy {k : Kernel} (member : k ∈ r.tg.kernels) :
    nextFree 64 Buffer.size (bufferBase (p.units k.id).arch) (visits r.tg.steps k.id) ≤
      bufferLimit (p.units k.id).arch := by
  obtain ⟨k₀, here, _, ids⟩ := deployed.allotted.listed member
  have room := deployed.provided.room k₀ here
  rw [ids, ← nextFree_map] at room
  rw [← nextFree_map, sizes_bare deployed.allotted.bare]
  exact room

theorem translated {k : Kernel} (member : k ∈ r.tg.kernels) : Translated r.tg k (p.units k.id) r.mm := by
  refine (deployed.unitMap member).translated (deployed.assigned.arch member (deployed.allotted.on member))
    (deployed.allotted.guest member) deployed.allotted.bufferIds (fun b here => ?_) (deployed.roomy member)
  have same : p.tg.buffers.map Buffer.bare = r.tg.buffers.map Buffer.bare :=
    congrArg TaskGraph.buffers deployed.allotted.bare.symm
  obtain ⟨b₀, listed, bare, _⟩ := exists_of_bare Buffer.bare Buffer.id (fun _ => rfl) same here
  have size := (bare_fields bare).1
  rw [← size]
  exact deployed.provided.inhabited b₀ listed

/-- Each address is in one entry of a unit's TLB at most. -/
theorem lookup_eq {k : Kernel} (member : k ∈ r.tg.kernels) {c : HnTlb} {a : Nat}
    (entry : c ∈ onUnit (p.units k.id).id r.mm.calls) (covers : c.Covers a) :
    lookup r.mm (p.units k.id) a = some c := by
  have apart := (deployed.translated member).apart
  have only : (onUnit (p.units k.id).id r.mm.calls).filter (fun c => c.Covers a) = [c] := by
    refine filter_exclusive (apart.imp fun {c d} apart mine => ?_) entry (decide_eq_true covers)
    exact decide_eq_false (apart _ (of_decide_eq_true mine))
  simp [lookup, deployed.silent, ← List.head?_filter, only]

/-- A kernel finds a buffer that names it, byte by byte, behind the address it has for it. -/
theorem buffer_behind {k : Kernel} (member : k ∈ r.tg.kernels) {b : Buffer} (known : p.buffer b.id = some b)
    (names : k.id ∈ b.names) (w : Nat) : ∃ addr, r.mm.tlbBuffers k.id b.id = some addr ∧
      addr ≤ bufferLimit (p.units k.id).arch ∧ Behind p (p.deploy cxt r w) (p.units k.id) addr b := by
  obtain ⟨b', listed, bare, here⟩ := deployed.allotted.stored.buffers b (List.mem_of_find?_eq_some known)
  have size := (bare_fields bare).1
  obtain ⟨ids, same⟩ := buffer_names bare
  have lists : k.id ∈ b'.kernelsIn ∨ k.id ∈ b'.kernelsOut := by
    rw [← same] at names
    exact List.mem_append.mp names
  obtain ⟨addr, found, bytes⟩ := (deployed.translated member).bytes b' listed lists
  obtain ⟨q, place, _, found'⟩ := (deployed.unitMap member).tlb b'
    (mem_visits.mpr ⟨listed, lists, deployed.allotted.guest member⟩)
  have low : addr ≤ bufferLimit (p.units k.id).arch := by
    have same : addr = uint32 q.1.first := Option.some.inj (found.symm.trans found')
    have bounds := (place_bounds place).2
    have room := deployed.roomy member
    simp only [Range.stop] at bounds
    rw [same]
    exact Nat.le_trans (Nat.mod_le _ _) (by omega)
  rw [ids] at found
  refine ⟨addr, found, low, fun offset inside => ?_⟩
  obtain ⟨c, only, translate, target, tile, cluster⟩ := bytes offset (by omega)
  have entry : c ∈ (onUnit (p.units k.id).id r.mm.calls).filter fun c => c.Covers (addr + offset) := by
    rw [only]
    exact List.mem_singleton_self c
  obtain ⟨entry, covers⟩ := List.mem_filter.mp entry
  have found : lookup (p.deploy cxt r w).mm (p.units k.id) (addr + offset) = some c :=
    deployed.lookup_eq member entry (of_decide_eq_true covers)
  rw [byteAt, found, bufferWindows_cell (p.deploy cxt r w).cxt here]
  simp only [Option.bind_eq_bind, Option.bind_some, target, translate, tile, cluster]

/-- A kernel finds the register of an event that names it behind the address it has for it. -/
theorem event_behind {k : Kernel} (member : k ∈ r.tg.kernels) {e : Event} (known : e ∈ p.tg.events)
    (names : k.id ∈ e.names) (w : Nat) : ∃ vaddr, r.mm.tlbEvents k.id e.id = some vaddr ∧
      vaddr < Mm.eventBase (p.units k.id).arch + 2^24 ∧
        LeadsTo p (p.deploy cxt r w) (p.units k.id) vaddr e := by
  obtain ⟨asked, f, e', sent, found, address, here, answered, cluster⟩ :=
    deployed.allotted.event_address deployed.mapping (deployed.allotted.guest member) member known names
  have small : f.phyAddr < 2^24 := by
    rw [address]
    exact (deployed.provided.hosted asked sent).window _ _ answered
  have base : Mm.eventBase (p.units k.id).arch + 2^24 ≤ 2^32 := by
    cases (p.units k.id).arch <;> decide
  have vaddr : eventAddress .MM (p.units k.id) f = Mm.eventBase (p.units k.id).arch + f.phyAddr :=
    uint32_of_lt (by omega)
  rw [vaddr] at found
  refine ⟨_, found, by omega, ?_⟩
  have entry : lookup (p.deploy cxt r w).mm (p.units k.id) (Mm.eventBase (p.units k.id).arch + f.phyAddr) =
      some (eventsTlb k (p.units k.id)) := by
    refine deployed.lookup_eq member ?_ ⟨Nat.le_add_right _ _, ?_⟩
    · rw [(deployed.unitMap member).calls]
      simp
    · change _ ≤ Mm.eventBase _ + 0xffffff
      omega
  obtain ⟨asked', sent', _, located⟩ := deployed.allotted.located
  obtain rfl := Option.some.inj (sent.symm.trans sent')
  obtain ⟨task, _, target, _, _, _, onCluster, _⟩ := located.kernels k member
  rw [LeadsTo, slotAt, entry, eventWindows_cell (p.deploy cxt r w).cxt here]
  change some (k.clusterId, 0 + (Mm.eventBase _ + f.phyAddr - Mm.eventBase _)) = _
  rw [onCluster, cluster, Nat.add_sub_cancel_left, Nat.zero_add, address]

theorem not_gn {k : Kernel} (member : k ∈ p.tg.kernels) : (p.units k.id).arch ≠ .GN := by
  have mapped := deployed.provided.assignment.mapped k member
  intro gn
  rw [gn] at mapped
  cases mapped

/-- A kernel whose start-up code reads `argv` has been started on a PEAK unit, and finds in its `argv` what the
    TLB has for its events and its arguments. -/
theorem started {kid : Nat} {k : Kernel} (found : p.kernel kid = some k) (w : Nat) :
    ∃ k' ∈ r.tg.kernels, k'.bare = k.bare ∧ k'.id = k.id ∧ k ∈ p.tg.kernels ∧ k.id = kid ∧
      (p.units k.id).arch = .PEAK ∧ ∃ argv, (p.deploy cxt r w).started kid = some (p.units k.id, argv) ∧
        ∀ (i : Nat) a, (allArguments k' (p.arguments k.id))[i]? = some a → ∃ value,
          a.valueIn (r.mm.tlb k') = some value ∧ argument w argv (1 + i) = some (saturate w value) := by
  obtain ⟨k', member', bare, ids, member, same, reads, stored, on⟩ := deployed.allotted.reads found
  have peak := reads.resolve_right (deployed.not_gn member)
  subst same
  exact ⟨k', member', bare, ids, member, rfl, peak, started_values (d := p.deploy cxt r w) stored on peak
    (deployed.allotted.value_known member bare (deployed.provided.given k member peak))⟩

variable {w : Nat}

theorem pointers (long : 32 ≤ w) {kid j : Nat} {b : Buffer} (found : p.parameter kid j = some b) :
    ∃ unit argv base, (p.deploy cxt r w).started kid = some (unit, argv) ∧
      pointer w (p.kargs kid) argv .pointer j = some base ∧ Behind p (p.deploy cxt r w) unit base b := by
  obtain ⟨k, reads, _⟩ := Option.bind_eq_some_iff.mp found
  obtain ⟨k', member', bare, ids, member, rfl, peak, argv, started, values⟩ := deployed.started reads w
  obtain ⟨known, names, ⟨v, passed⟩, declared⟩ :=
    deployed.allotted.buffer_passed k' (deployed.provided.given k member peak) found
  obtain ⟨addr, here, low, behind⟩ := deployed.buffer_behind member' known (by rw [ids]; exact names) w
  obtain ⟨value, mine, decoded⟩ := values (4 + j) _ passed
  obtain rfl := Option.some.inj (here.symm.trans mine)
  rw [ids] at low behind
  have small : addr < 2^31 := by
    rw [peak] at low
    exact Nat.lt_of_le_of_lt low (by decide)
  refine ⟨_, argv, addr, started, ?_, behind⟩
  rw [← Nat.add_assoc] at decoded
  rw [pointer_eq (by decide) declared decoded, mangoMemoryMap_saturate long small]

theorem eventPointers (long : 32 ≤ w) {kid : Nat} {event : DeviceEvent} {e : Event}
    (found : p.deviceEvent kid event = some e) : ∃ unit argv vaddr,
      (p.deploy cxt r w).started kid = some (unit, argv) ∧
      eventPointer w (p.kargs kid) argv event = some vaddr ∧ LeadsTo p (p.deploy cxt r w) unit vaddr e := by
  obtain ⟨k, reads, _⟩ := Option.bind_eq_some_iff.mp found
  obtain ⟨k', member', bare, ids, member, rfl, peak, argv, started, values⟩ := deployed.started reads w
  obtain ⟨known, names, ⟨v, passed⟩, declared⟩ :=
    deployed.allotted.event_passed reads bare (deployed.provided.given k member peak) found
  obtain ⟨vaddr, here, low, leads⟩ := deployed.event_behind member' known (by rw [ids]; exact names) w
  obtain ⟨value, mine, decoded⟩ := values _ _ passed
  obtain rfl := Option.some.inj (here.symm.trans mine)
  rw [ids] at low leads
  have small : vaddr < 2^31 := by
    rw [peak] at low
    exact Nat.lt_of_lt_of_le low (by decide)
  refine ⟨_, argv, vaddr, started, ?_, leads⟩
  rw [eventPointer_eq (own_given values) decoded declared, mangoMemoryMap_saturate long small]

theorem placed (long : 32 ≤ w) : Placed p (p.deploy cxt r w).platform where
  buffers id b found := by
    obtain ⟨b', _, bare, stored⟩ := deployed.allotted.stored.buffers b (List.mem_of_find?_eq_some found)
    rw [Application.buffer_id found] at stored
    exact ⟨b', stored, bare⟩
  events id e found := by
    obtain ⟨e', _, _, stored⟩ := deployed.allotted.stored.events e (List.mem_of_find?_eq_some found)
    rw [Application.event_id found] at stored
    exact ⟨e', stored⟩
  memory := deployed.allotted.memory_separate
  registers := deployed.allotted.registers_separate
  pointers kid j b found offset inside := by
    obtain ⟨unit, argv, base, started, decoded, behind⟩ := deployed.pointers long found
    have decoded : pointer (p.deploy cxt r w).w ((p.deploy cxt r w).kargs kid) argv .pointer j =
      some base := decoded
    simp only [Deployment.platform, started, decoded, Option.bind_eq_bind, Option.bind_some]
    exact behind offset inside
  deviceEvents kid event e found := by
    obtain ⟨unit, argv, vaddr, started, decoded, leads⟩ := deployed.eventPointers long found
    have decoded : eventPointer (p.deploy cxt r w).w ((p.deploy cxt r w).kargs kid) argv event =
      some vaddr := decoded
    simp only [Deployment.platform, started, decoded, Option.bind_eq_bind, Option.bind_some]
    exact leads

end Deployed

section Transparency

variable {p : Application} {created : Nat} {registrations : List Registration} {given : List Answer}
  {s : Registry} {kernels buffers events : List Nat} {manager : BbqueGraph → BbqueGraph}
  {outcome : Nat → Bool} {regs : Registers} {mm : Mm} {r : Allocated} {w : Nat}

theorem constructed_deployed (registered : History.registerAll created registrations = some (given, s))
    (few : s.created ≤ 2^32) (made : mangoTaskGraphCreate s.cxt kernels buffers events = some p.tg)
    (kernelIds : kernels.Nodup) (bufferIds : buffers.Nodup) (provided : Provided p manager outcome)
    (run : resourceAllocation manager outcome p.tg regs mm = some r) :
    Deployed p s.cxt manager outcome regs mm r := by
  obtain ⟨formed, known⟩ := constructed_formed registered few made kernelIds bufferIds
  exact ⟨formed, known, provided, run⟩

/-- Registration, allocation, the programming of the TLBs, the encoding of the arguments and their decoding
    are transparent: whatever host and kernels do, in whatever order, they get the answers that they would get
    if each buffer were an array and each event a variable. -/
theorem allocation_transparent
    (registered : History.registerAll created registrations = some (given, s)) (few : s.created ≤ 2^32)
    (made : mangoTaskGraphCreate s.cxt kernels buffers events = some p.tg) (kernelIds : kernels.Nodup)
    (bufferIds : buffers.Nodup) (provided : Provided p manager outcome)
    (run : resourceAllocation manager outcome p.tg regs mm = some r) (long : 32 ≤ w)
    {memory : DeviceMemory} {contents contents' : Contents} {commands : List Command}
    {answers : List (List Nat)} (shown : Shows p (OpenCL.store s.cxt r.tg) contents ⟨memory, r.regs⟩)
    (ran : Machine.run p.step contents commands = some (answers, contents')) :
    ∃ h, Machine.run (p.deploy s.cxt r w).platform.step ⟨memory, r.regs⟩ commands = some (answers, h) ∧
      Shows p (OpenCL.store s.cxt r.tg) contents' h := by
  have deployed := constructed_deployed registered few made kernelIds bufferIds provided run
  exact (deployed.placed long).simulated.run shown ran

/-- A kernel on a PEAK unit that makes one buffer of another, and one on a DCT unit with a buffer of its
    own. -/
def pipeline : List Registration :=
  [.kernel 1 (KernelFunction.empty.load (fun _ => true) "peak" .PEAK .BINARY).2 [10] [11],
    .kernel 2 (KernelFunction.empty.load (fun _ => true) "dct" .DCT .HARDWARE).2 [12] [12],
    .memory 10 100 .BUFFER [0] [1], .memory 11 64 .BUFFER [1] [0], .memory 12 32 .BUFFER [0] [2]]

def pipelineGraph : TaskGraph where
  kernels :=
    [{ id := 1, kernel := (KernelFunction.empty.load (fun _ => true) "peak" .PEAK .BINARY).2
       buffersIn := [10], buffersOut := [11], threadCount := 0
       terminationEvent := event 1 1, taskEvents := [event 2 1, event 3 1, event 4 1]
       unit := none, phyAddr := 0, memTile := 0, clusterId := 0 },
     { id := 2, kernel := (KernelFunction.empty.load (fun _ => true) "dct" .DCT .HARDWARE).2
       buffersIn := [12], buffersOut := [12], threadCount := 0
       terminationEvent := event 5 2, taskEvents := [event 6 2, event 7 2, event 8 2]
       unit := none, phyAddr := 0, memTile := 0, clusterId := 0 }]
  buffers :=
    [buffer 10 100 0 1 ⟨9, 0, [0], [1], 0⟩, buffer 11 64 1 0 ⟨10, 0, [1], [0], 0⟩,
      buffer 12 32 0 2 ⟨11, 0, [0], [2], 0⟩]
  events := (List.range' 1 4).map (event · 1) ++ (List.range' 5 4).map (event · 2) ++
    [⟨9, 0, [0], [1], 0⟩, ⟨10, 0, [1], [0], 0⟩, ⟨11, 0, [0], [2], 0⟩]
where
  event (id kid : Nat) : Event := ⟨id, 0, [kid], [kid], 0⟩
  buffer (id size reader writer : Nat) (event : Event) : Buffer :=
    ⟨id, size, .BUFFER, [reader], [writer], event, 0, 0, 0⟩

def pipelineApplication : Application where
  tg := pipelineGraph
  units := twoUnits
  arguments kid := if kid = 1 then [.buffer 10 none, .buffer 11 none, .event 10 none] else []
  kargs kid := if kid = 1 then [.pointer, .pointer, .mangoEvent] else []

def pipelineManager : BbqueGraph → BbqueGraph :=
  placeOn fun id => ((twoUnits id).id, unitToArchType (twoUnits id).arch)

section Asked

variable {asked : BbqueGraph} (sent : toBbque pipelineGraph = some asked)

include sent

theorem pipeline_task {id : Nat} {task : BbqueTask} (found : asked.tasks[id]? = some task) :
    id < 10 ∧ (task.targets (unitToArchType (twoUnits id).arch)).isSome := by
  have offered : (toBbque pipelineGraph).map (fun asked => asked.tasks.toList.map fun entry =>
      (entry.1, (entry.2.targets .PEAK).isSome, (entry.2.targets .DCT).isSome)) =
        some [(1, true, false), (2, false, true)] := by decide
  rw [sent, Option.map_some, Option.some.injEq] at offered
  have listed := List.mem_map_of_mem (f := fun entry : Nat × BbqueTask =>
    (entry.1, (entry.2.targets .PEAK).isSome, (entry.2.targets .DCT).isSome))
    (Std.TreeMap.mem_toList_iff_getElem?_eq_some.mpr found)
  rw [offered] at listed
  simp only [List.mem_cons, List.not_mem_nil, or_false, Prod.mk.injEq] at listed
  rcases listed with ⟨rfl, peak, _⟩ | ⟨rfl, _, dct⟩
  · exact ⟨by decide, peak⟩
  · exact ⟨by decide, dct⟩

theorem pipeline_place {id : Nat} {b : BbqueBuffer} (found : (pipelineManager asked).buffers[id]? = some b) :
    b.memoryBank = id ∧ 10 ≤ id := by
  obtain ⟨_, bufferKeys, _⟩ := toBbque_keys sent
  simp only [pipelineManager, placeOn, Std.TreeMap.getElem?_map, Option.map_eq_some_iff] at found
  obtain ⟨old, found, rfl⟩ := found
  have known : id ∈ asked.buffers := Std.TreeMap.mem_iff_isSome_getElem?.mpr (by rw [found]; rfl)
  have bound : ∀ id ∈ pipelineGraph.buffers.map Buffer.id, 10 ≤ id := by decide
  exact ⟨rfl, bound id ((bufferKeys id).mp known)⟩

theorem pipeline_housed : Housed twoUnits asked (pipelineManager asked) := by
  refine ⟨placeOn_answers fun id t found => (pipeline_task sent found).2, ?_, ?_⟩
  · intro id t found
    simp only [pipelineManager, placeOn, Std.TreeMap.getElem?_map, Option.map_eq_some_iff] at found
    obtain ⟨_, _, rfl⟩ := found
    unfold twoUnits
    split <;> rfl
  · intro id id' old old' b b' _ _ answered answered' other same
    rw [(pipeline_place sent answered).1, (pipeline_place sent answered').1] at same
    exact absurd same other

theorem pipeline_hosted : Hosted twoUnits asked (pipelineManager asked) := by
  obtain ⟨_, _, eventKeys⟩ := toBbque_keys sent
  refine ⟨pipeline_housed sent, ?_, ?_⟩
  · intro id addr found
    simp only [pipelineManager, placeOn, Std.TreeMap.getElem?_map, Option.map_eq_some_iff] at found
    obtain ⟨old, found, rfl⟩ := found
    have known : id ∈ asked.events := Std.TreeMap.mem_iff_isSome_getElem?.mpr (by rw [found]; rfl)
    have bound : ∀ id ∈ pipelineGraph.events.map Event.id, 4 * id + 4 < 2^24 := by decide
    exact bound id ((eventKeys id).mp known)
  · intro id id' t target old b found chosen request answered same
    simp only [pipelineManager, placeOn, Std.TreeMap.getElem?_map, Option.map_eq_some_iff] at found
    obtain ⟨t₀, found, rfl⟩ := found
    obtain ⟨target₀, _, rfl⟩ := Option.map_eq_some_iff.mp chosen
    change id = b.memoryBank at same
    have low := (pipeline_task sent found).1
    have high := pipeline_place sent answered
    omega

end Asked

theorem pipeline_provided : Provided pipelineApplication pipelineManager (fun _ => true) where
  inhabited := by decide
  assignment := ⟨by decide, by decide, by decide⟩
  hosted asked sent := pipeline_hosted sent
  room := by decide
  programmed _ _ := rfl
  given k member peak a inside := by
    have event : (⟨10, 0, [1], [0], 0⟩ : Event) ∈ pipelineGraph.events := by decide
    simp only [pipelineApplication, pipelineGraph, List.mem_cons, List.not_mem_nil, or_false] at member
    rcases member with rfl | rfl
    · simp only [pipelineApplication, ↓reduceIte, List.mem_cons, List.not_mem_nil, or_false] at inside
      rcases inside with rfl | rfl | rfl
      · exact ⟨_, List.mem_cons_self, rfl, by decide⟩
      · exact ⟨_, List.mem_cons_of_mem _ List.mem_cons_self, rfl, by decide⟩
      · exact ⟨_, event, rfl, by decide⟩
    · cases inside

theorem pipeline_constructed : ∃ given s, History.registerAll 1 pipeline = some (given, s) ∧ s.created = 12 ∧
    mangoTaskGraphCreate s.cxt [1, 2] [10, 11, 12] [] = some pipelineGraph := by
  have constructed : (History.registerAll 1 pipeline).bind (fun h =>
      (mangoTaskGraphCreate h.2.cxt [1, 2] [10, 11, 12] []).map fun tg => (h.2.created, tg)) =
        some (12, pipelineGraph) := by rfl
  obtain ⟨⟨given, s⟩, registered, made⟩ := Option.bind_eq_some_iff.mp constructed
  obtain ⟨tg, made, same⟩ := Option.map_eq_some_iff.mp made
  obtain ⟨count, rfl⟩ := Prod.mk.inj same
  exact ⟨given, s, registered, count, made⟩

theorem pipeline_allocated :
    ∃ r, resourceAllocation pipelineManager (fun _ => true) pipelineGraph (fun _ _ => 0) .start = some r := by
  have allocated : (resourceAllocation pipelineManager (fun _ => true) pipelineGraph (fun _ _ => 0)
      .start).isSome = true := by decide
  exact Option.isSome_iff_exists.mp allocated

theorem allocation_transparent_pipeline : ∃ cxt r h,
    resourceAllocation pipelineManager (fun _ => true) pipelineGraph (fun _ _ => 0) .start = some r ∧
      Machine.run (pipelineApplication.deploy cxt r 32).platform.step ⟨fun _ _ _ => 0, r.regs⟩
        [.mangoWrite 10 fun j => j + 1, .load 1 0 41, .store 1 1 3 84, .load 1 1 3,
          .deviceWriteSynchronization 1 (.param 2) 1, .hostReadSynchronization 10] =
        some ([[], [42], [], [84], [], [1]], h) := by
  obtain ⟨given, s, registered, count, made⟩ := pipeline_constructed
  obtain ⟨r, run⟩ := pipeline_allocated
  let contents : Contents := ⟨fun _ _ => 0, fun id =>
    slots r.regs ((eventWindows pipelineApplication (OpenCL.store s.cxt r.tg)).cell id 0)⟩
  have shown : Shows pipelineApplication (OpenCL.store s.cxt r.tg) contents ⟨fun _ _ _ => 0, r.regs⟩ :=
    ⟨fun _ _ _ => rfl, fun _ _ _ => rfl⟩
  obtain ⟨contents', ran⟩ : ∃ contents', Machine.run pipelineApplication.step contents
      [.mangoWrite 10 fun j => j + 1, .load 1 0 41, .store 1 1 3 84, .load 1 1 3,
        .deviceWriteSynchronization 1 (.param 2) 1, .hostReadSynchronization 10] =
      some ([[], [42], [], [84], [], [1]], contents') := ⟨_, rfl⟩
  obtain ⟨h, ran, _⟩ := allocation_transparent (p := pipelineApplication) registered
    (by rw [count]; decide) made (by decide) (by decide) pipeline_provided run (Nat.le_refl 32) shown ran
  exact ⟨s.cxt, r, h, run, ran⟩

end Transparency

end MangoModel.System
