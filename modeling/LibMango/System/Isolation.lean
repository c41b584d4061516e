import LibMango.System.Transparency

namespace MangoModel.System

open Host Device OpenCL Interleave Layout Simulation

section Attack

/-- What is done on the hardware when some kernels do not keep to their parameters. -/
inductive Act where
  | command (c : Command)
  | wild (kernel vaddr byte : Nat)

/-- A kernel stores to a virtual address of its choice; an access that no entry of the TLB covers has no
    effect, and one in the window of the events is a write of a register. -/
def Deployment.wildStore (d : Deployment) (h : Hardware) (kernel vaddr byte : Nat) : Hardware :=
  match d.cxt.kernels[kernel]? with
  | none => h
  | some k =>
    match k.unit with
    | none => h
    | some unit =>
      match byteAt d.mm unit vaddr, slotAt d.mm unit vaddr with
      | some cell, _ => h.storeByte cell byte
      | none, some slot => h.writeRegister slot byte
      | none, none => h

def Deployment.attacked (d : Deployment) (h : Hardware) : Act → Option (List Nat × Hardware)
  | .command c => d.platform.step h c
  | .wild kernel vaddr byte => some ([], d.wildStore h kernel vaddr byte)

variable (hostile : Nat → Bool)

/-- The application without the events, and without the buffers of which a hostile kernel is one of the
    kernels. -/
def Application.sealed (p : Application) : Application :=
  { p with tg := { p.tg with
      buffers := p.tg.buffers.filter fun b => b.names.all fun kid => !hostile kid
      events := [] } }

/-- What hostile kernels do has no effect on the rest. -/
def Application.withstanding (p : Application) (s : Contents) : Act → Option (List Nat × Contents)
  | .command c => (p.sealed hostile).step s c
  | .wild kernel _ _ => do
    let _ ← p.tg.getKernelById kernel
    if hostile kernel then some ([], s) else none

end Attack

section Sealed

variable {p : Application} {hostile : Nat → Bool} {f : Platform} {id : Nat} {b : Buffer}

theorem sealed_buffer (distinct : (p.tg.buffers.map Buffer.id).Nodup)
    (found : (p.sealed hostile).buffer id = some b) :
    p.buffer id = some b ∧ ∀ kid ∈ b.names, hostile kid = false := by
  obtain ⟨member, clean⟩ := List.mem_filter.mp (List.mem_of_find?_eq_some found)
  have ids := Application.buffer_id found
  refine ⟨?_, by simpa using clean⟩
  rw [← ids]
  exact find_of_nodup Buffer.id distinct member

theorem sealed_inside (distinct : (p.tg.buffers.map Buffer.id).Nodup) {cxt : Context} {j : Nat}
    (inside : j < (bufferWindows (p.sealed hostile) cxt).size id) :
    ∃ b, p.buffer id = some b ∧ j < b.size ∧ ∀ kid ∈ b.names, hostile kid = false := by
  obtain ⟨b, found, below⟩ := bufferWindows_inside inside
  obtain ⟨known, clean⟩ := sealed_buffer distinct found
  exact ⟨b, known, below, clean⟩

theorem Placed.sealed (placed : Placed p f) (distinct : (p.tg.buffers.map Buffer.id).Nodup) :
    Placed (p.sealed hostile) f where
  buffers id b found := placed.buffers id b (sealed_buffer distinct found).1
  events id e found := by cases found
  memory id j id' j' inside inside' meets := by
    obtain ⟨b, known, below, _⟩ := sealed_inside distinct inside
    obtain ⟨b', known', below', _⟩ := sealed_inside distinct inside'
    apply placed.memory id j id' j' _ _ meets
    · rw [bufferWindows_size known]
      exact below
    · rw [bufferWindows_size known']
      exact below'
  registers id j id' j' inside := by
    obtain ⟨e, found, _⟩ := eventWindows_inside inside
    cases found
  pointers kid j b found := by
    obtain ⟨k, guest, found⟩ := Option.bind_eq_some_iff.mp found
    apply placed.pointers kid j b
    refine Option.bind_eq_some_iff.mpr ⟨k, guest, ?_⟩
    split at found
    · next id v declared passed =>
      have declared : (p.kargs kid)[j]? = some .pointer := declared
      have passed : (p.arguments kid)[j]? = some (.buffer id v) := passed
      simp only [declared, passed]
      exact (sealed_buffer distinct found).1
    · cases found
  deviceEvents kid event e found := by
    have own := Application.deviceEvent_self found
    cases own

end Sealed

section Stores

variable {p : Application} {cxt : Context} {manager : BbqueGraph → BbqueGraph} {outcome : Nat → Bool}
  {regs : Registers} {mm : Mm} {r : Allocated} {hostile : Nat → Bool} {w : Nat}

/-- The image of a kernel is apart from all buffers. -/
theorem Deployed.image_apart (deployed : Deployed p cxt manager outcome regs mm r) {k : Kernel}
    (member : k ∈ r.tg.kernels) {v : Nat} (covers : (kernelTlb k (p.units k.id)).Covers v) {b : Buffer}
    (known : p.buffer b.id = some b) {j : Nat} (below : j < b.size) :
    (k.clusterId, k.memTile, (kernelTlb k (p.units k.id)).translate v) ≠
      (bufferWindows p (p.deploy cxt r w).cxt).cell b.id j := by
  obtain ⟨asked, sent, hosted, located⟩ := deployed.located
  obtain ⟨b', listed, bare, here⟩ := deployed.allotted.stored.buffers b (List.mem_of_find?_eq_some known)
  obtain ⟨task, found, target, chosen, _, tile, _, image⟩ := located.kernels k member
  obtain ⟨placed, answered, memTile, _, phyAddr⟩ := located.buffers b' listed
  obtain ⟨old, request, size⟩ := deployed.allotted.sent_buffer sent known
  rw [(buffer_names bare).1] at answered
  rw [bufferWindows_cell (p.deploy cxt r w).cxt here]
  intro meets
  simp only [Prod.mk.injEq] at meets
  have apart := hosted.images _ _ _ _ _ _ found chosen request answered (by
    rw [← tile, ← memTile, meets.2.1])
  have mapped := deployed.assigned.arch member (deployed.allotted.on member)
  have inside := (kernelTlb_covers (imageSize_pos mapped)).mp covers
  have offset : (kernelTlb k (p.units k.id)).translate v = k.phyAddr + (v - kernelBase (p.units k.id).arch) := rfl
  simp only [Range.Apart, Range.Contains, Range.stop, imageRange] at apart inside
  omega

/-- What a buffer's entry of a kernel's TLB leads to is a byte of a buffer that names the kernel. -/
theorem Deployed.entry_named (deployed : Deployed p cxt manager outcome regs mm r) {k : Kernel}
    (member : k ∈ r.tg.kernels) {n v : Nat} {q : Range × Buffer}
    (place : q ∈ place 64 Buffer.size (bufferBase (p.units k.id).arch) (visits r.tg.steps k.id))
    (covers : (bufferTlb (p.units k.id) n q).Covers v) : ∃ b, p.buffer b.id = some b ∧ k.id ∈ b.names ∧
      ∃ offset < b.size, (q.2.clusterId, q.2.memTile, (bufferTlb (p.units k.id) n q).translate v) =
        (bufferWindows p (p.deploy cxt r w).cxt).cell b.id offset := by
  have size := place_size place
  obtain ⟨listed, names, _⟩ := mem_visits.mp size.2
  have same : p.tg.buffers.map Buffer.bare = r.tg.buffers.map Buffer.bare :=
    congrArg TaskGraph.buffers deployed.allotted.bare.symm
  obtain ⟨b, inGraph, bare, ids⟩ := exists_of_bare Buffer.bare Buffer.id (fun _ => rfl) same listed
  obtain ⟨b', listed', bare', here⟩ := deployed.allotted.stored.buffers b inGraph
  obtain rfl : b' = q.2 :=
    List.inj_on_of_nodup_map deployed.allotted.bufferIds listed' listed ((buffer_names bare').1.trans ids)
  have length := (bare_fields bare').1
  refine ⟨b, deployed.allotted.buffer_of_mem inGraph, ?_, v - uint32 q.1.first, ?_, ?_⟩
  · rw [(buffer_names bare).2]
    exact List.mem_append.mpr names
  · have bounds := place_bounds place
    have room := deployed.roomy member
    have limit := bufferLimit_le (p.units k.id).arch
    have positive := deployed.provided.inhabited b inGraph
    simp only [Range.stop] at bounds
    simp only [HnTlb.Covers, bufferTlb, uint32] at covers
    simp only [uint32]
    omega
  · rw [bufferWindows_cell (p.deploy cxt r w).cxt here]
    rfl

/-- Where a store of a kernel ends, if it is a store to memory, is not a byte of a buffer that does not name
    the kernel. -/
theorem Deployed.store_apart (deployed : Deployed p cxt manager outcome regs mm r) (long : 32 ≤ w) {k : Kernel}
    (member : k ∈ r.tg.kernels) {c : HnTlb} {v : Nat} (entry : lookup r.mm (p.units k.id) v = some c)
    (memory : c.target = .memory) {b : Buffer} (known : p.buffer b.id = some b) {j : Nat} (below : j < b.size)
    (other : k.id ∉ b.names) : (c.clusterId, c.memTile, c.translate v) ≠
      (bufferWindows p (p.deploy cxt r w).cxt).cell b.id j := by
  have call := List.mem_of_find?_eq_some entry
  have covers : c.Covers v := by
    have test := List.find?_some entry
    simp only [decide_eq_true_eq] at test
    exact test.1
  rw [(deployed.unitMap member).calls] at call
  rcases List.mem_cons.mp call with rfl | rest
  · exact deployed.image_apart member covers known below
  · rcases List.mem_append.mp rest with buffer | last
    · obtain ⟨n, q, place, rfl⟩ := mem_bufferTlbs buffer
      obtain ⟨b', known', names, offset, inside, cell⟩ := deployed.entry_named (w := w) member place covers
      intro meets
      have separate := (deployed.placed long).memory b'.id offset b.id j
        (by rw [bufferWindows_size known']; exact inside) (by rw [bufferWindows_size known]; exact below)
        (cell.symm.trans meets)
      rw [separate.1, known] at known'
      obtain rfl := Option.some.inj known'
      exact other names
    · obtain rfl := List.mem_singleton.mp last
      cases memory

theorem Shows.wildStore (deployed : Deployed p cxt manager outcome regs mm r) (long : 32 ≤ w) {s : Contents}
    {h : Hardware} (shown : Shows (p.sealed hostile) (OpenCL.store cxt r.tg) s h) {kernel : Nat} {k : Kernel}
    (guest : p.tg.getKernelById kernel = some k) (attacks : hostile kernel = true) (vaddr byte : Nat) :
    Shows (p.sealed hostile) (OpenCL.store cxt r.tg) s ((p.deploy cxt r w).wildStore h kernel vaddr byte) := by
  obtain ⟨inGraph, rfl⟩ := TaskGraph.getKernelById_some guest
  obtain ⟨k', member, bare, stored⟩ := deployed.allotted.stored.kernels k inGraph
  have ids : k'.id = k.id := by
    have same := congrArg Kernel.id bare
    exact same
  have here : (p.deploy cxt r w).cxt.kernels[k.id]? = some k' := stored
  refine ⟨fun id j inside => ?_, fun id j inside => ?_⟩
  · obtain ⟨b, known, below, clean⟩ := sealed_inside deployed.formed.bufferIds inside
    rw [← shown.1 id j inside]
    simp only [Deployment.wildStore, here, deployed.allotted.on member]
    split
    · next cell _ reached =>
      obtain ⟨c, entry, reached⟩ := Option.bind_eq_some_iff.mp reached
      split at reached
      · next target =>
        cases reached
        obtain rfl := Application.buffer_id known
        have apart := deployed.store_apart long member entry target known below (w := w) (by
          rw [ids]
          intro named
          rw [clean _ named] at attacks
          cases attacks)
        rw [Hardware.storeByte, cells_store]
        exact Function.update_of_ne apart.symm _ _
      · cases reached
    · rfl
    · rfl
  · obtain ⟨e, found, _⟩ := eventWindows_inside inside
    cases found

/-- Isolation: whatever addresses the hostile kernels store to, at whatever points of a run, the host and the
    other kernels get from the buffers that name no hostile kernel the answers that they would get if each were
    an array of its own. -/
theorem wild_stores_isolated (deployed : Deployed p cxt manager outcome regs mm r) (long : 32 ≤ w)
    {memory : DeviceMemory} {contents contents' : Contents} {acts : List Act} {answers : List (List Nat)}
    (shown : Shows (p.sealed hostile) (OpenCL.store cxt r.tg) contents ⟨memory, r.regs⟩)
    (ran : Machine.run (p.withstanding hostile) contents acts = some (answers, contents')) :
    ∃ h, Machine.run (p.deploy cxt r w).attacked ⟨memory, r.regs⟩ acts = some (answers, h) ∧
      Shows (p.sealed hostile) (OpenCL.store cxt r.tg) contents' h := by
  have placed : Placed (p.sealed hostile) (p.deploy cxt r w).platform :=
    (deployed.placed long).sealed deployed.formed.bufferIds
  have simulated : Machine.Simulated (Shows (p.sealed hostile) (OpenCL.store cxt r.tg)) (p.withstanding hostile)
      (p.deploy cxt r w).attacked := by
    intro s h act answer s' shown run
    cases act with
    | command c => exact placed.simulated s h c answer s' shown run
    | wild kernel vaddr byte =>
      obtain ⟨k, guest, run⟩ := Option.bind_eq_some_iff.mp run
      split at run
      · next attacks =>
        cases run
        exact ⟨_, rfl, shown.wildStore deployed long guest attacks vaddr byte⟩
      · cases run
  exact simulated.run shown ran

/-- The kernel on the DCT unit stores to its own buffer, to its image and to where there is nothing. -/
theorem wild_stores_isolated_pipeline : ∃ cxt r h,
    resourceAllocation pipelineManager (fun _ => true) pipelineGraph (fun _ _ => 0) .start = some r ∧
      Machine.run (pipelineApplication.deploy cxt r 32).attacked ⟨fun _ _ _ => 0, r.regs⟩
        [.command (.mangoWrite 10 fun j => j + 1), .wild 2 0x50000000 7, .wild 2 0x30000000 7,
          .command (.load 1 0 41), .wild 2 0x50000029 7, .command (.load 1 0 41)] =
        some ([[], [], [], [42], [], [42]], h) := by
  obtain ⟨given, s, registered, count, made⟩ := pipeline_constructed
  obtain ⟨r, run⟩ := pipeline_allocated
  let hostile : Nat → Bool := fun kid => kid == 2
  let contents : Contents := ⟨fun _ _ => 0, fun _ => 0⟩
  have shown : Shows (pipelineApplication.sealed hostile) (OpenCL.store s.cxt r.tg) contents
      ⟨fun _ _ _ => 0, r.regs⟩ := by
    refine ⟨fun _ _ _ => rfl, fun id j inside => ?_⟩
    obtain ⟨e, found, _⟩ := eventWindows_inside inside
    cases found
  obtain ⟨contents', ran⟩ : ∃ contents', Machine.run (pipelineApplication.withstanding hostile) contents
      [.command (.mangoWrite 10 fun j => j + 1), .wild 2 0x50000000 7, .wild 2 0x30000000 7,
        .command (.load 1 0 41), .wild 2 0x50000029 7, .command (.load 1 0 41)] =
      some ([[], [], [], [42], [], [42]], contents') := ⟨_, rfl⟩
  have deployed : Deployed pipelineApplication s.cxt pipelineManager (fun _ => true) (fun _ _ => 0) .start r :=
    constructed_deployed registered (by rw [count]; decide) made (by decide) (by decide) pipeline_provided run
  obtain ⟨h, ran, _⟩ := wild_stores_isolated deployed (Nat.le_refl 32) shown ran
  exact ⟨s.cxt, r, h, run, ran⟩

end Stores

end MangoModel.System
