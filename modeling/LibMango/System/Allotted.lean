import LibMango.System.Allocation
import LibMango.System.Pointers

namespace MangoModel.System

open Host Device OpenCL Interleave Layout Fallible

/-- What the argument of a kernel refers to is in the graph, and is for the kernel. -/
def Given (tg : TaskGraph) (k : Kernel) : Arg → Prop
  | .scalar _ _ => True
  | .buffer id _ => ∃ b ∈ tg.buffers, b.id = id ∧ k.id ∈ b.names
  | .event id _ => ∃ e ∈ tg.events, e.id = id ∧ k.id ∈ e.names

/-- An application of which the context has all objects, whose graph has been allocated by a resource manager
    that keeps its promises. -/
structure Allotted (p : Application) (cxt : Context) (manager : BbqueGraph → BbqueGraph)
    (outcome : Nat → Bool) (regs : Registers) (mm : Mm) (r : Allocated) : Prop where
  formed : Formed p.tg
  registered : Registered cxt p.tg
  housed : ∀ asked, toBbque p.tg = some asked → Housed p.units asked (manager asked)
  run : resourceAllocation manager outcome p.tg regs mm = some r

theorem buffer_names {b b' : Buffer} (same : b'.bare = b.bare) : b'.id = b.id ∧ b'.names = b.names := by
  have ids := congrArg Buffer.id same
  have names := congrArg Buffer.names same
  exact ⟨ids, names⟩

theorem event_names {e e' : Event} (same : e'.bare = e.bare) : e'.names = e.names := by
  have names := congrArg Event.names same
  exact names

namespace Allotted

variable {p : Application} {cxt : Context} {manager : BbqueGraph → BbqueGraph} {outcome : Nat → Bool}
  {regs : Registers} {mm : Mm} {r : Allocated} (allotted : Allotted p cxt manager outcome regs mm r)

include allotted

theorem bare : r.tg.bare = p.tg.bare := (resourceAllocation_cases allotted.run).2.1

theorem located : ∃ asked, toBbque p.tg = some asked ∧ Housed p.units asked (manager asked) ∧
    Located (manager asked) r.tg := by
  obtain ⟨asked, sent, _⟩ := Option.bind_eq_some_iff.mp allotted.run
  have housed := allotted.housed asked sent
  exact ⟨asked, sent, housed, resourceAllocation_located allotted.formed.bufferEvents sent housed.answers
    allotted.run⟩

theorem on {k : Kernel} (member : k ∈ r.tg.kernels) : k.unit = some (p.units k.id) := by
  obtain ⟨asked, _, housed, located⟩ := allotted.located
  obtain ⟨task, found, target, _, unit, _⟩ := located.kernels k member
  rw [unit, housed.assigned k.id task found]

theorem listed {k : Kernel} (member : k ∈ r.tg.kernels) :
    ∃ k₀ ∈ p.tg.kernels, k₀.bare = k.bare ∧ k₀.id = k.id := by
  have same : p.tg.kernels.map Kernel.bare = r.tg.kernels.map Kernel.bare :=
    congrArg TaskGraph.kernels allotted.bare.symm
  exact exists_of_bare Kernel.bare Kernel.id (fun _ => rfl) same member

theorem bufferIds : (r.tg.buffers.map Buffer.id).Nodup := by
  have same : r.tg.buffers.map Buffer.bare = p.tg.buffers.map Buffer.bare :=
    congrArg TaskGraph.buffers allotted.bare
  exact nodup_of_bare Buffer.bare Buffer.id (fun _ => rfl) same allotted.formed.bufferIds

theorem stored : Stored (OpenCL.store cxt r.tg) r.tg p.tg :=
  store_stored allotted.formed allotted.registered allotted.bare

theorem event_of_mem {e : Event} (member : e ∈ p.tg.events) : p.event e.id = some e := by
  obtain ⟨e', found⟩ := Option.isSome_iff_exists.mp
    (List.find?_isSome (p := fun other => decide (other.id = e.id)).mpr ⟨e, member, by simp⟩)
  have ids : e'.id = e.id := by simpa using List.find?_some found
  rw [Application.event, found, allotted.formed.same e' (List.mem_of_find?_eq_some found) e member ids]

theorem buffer_of_mem {b : Buffer} (member : b ∈ p.tg.buffers) : p.buffer b.id = some b :=
  find_of_nodup Buffer.id allotted.formed.bufferIds member

theorem given_all {k k' : Kernel} (member : k ∈ p.tg.kernels) (bare : k'.bare = k.bare)
    (given : ∀ a ∈ p.arguments k.id, Given p.tg k a) :
    ∀ a ∈ allArguments k' (p.arguments k.id), Given p.tg k a := by
  have own : ∀ e ∈ k'.events, Given p.tg k (Arg.ofEvent e) := by
    intro e inside
    have same : k'.events.map Event.bare = k.events.map Event.bare := congrArg Kernel.events bare
    obtain ⟨e₀, listed, _, ids⟩ := exists_of_bare Event.bare Event.id (fun _ => rfl) same.symm inside
    obtain ⟨known, names⟩ := allotted.formed.kernelEvents k member e₀ listed
    exact ⟨e₀, known, ids, names⟩
  intro a inside
  rcases List.mem_cons.mp inside with rfl | rest
  · exact own _ List.mem_cons_self
  · rcases List.mem_append.mp rest with task | argument
    · obtain ⟨e, listed, rfl⟩ := List.mem_map.mp task
      exact own e (List.mem_cons_of_mem _ listed)
    · exact given a argument

theorem guest {k : Kernel} (member : k ∈ r.tg.kernels) : k.id ≠ 0 := by
  obtain ⟨k₀, here, _, ids⟩ := allotted.listed member
  rw [← ids]
  exact resourceAllocation_guest allotted.run here

theorem value_known {k k' : Kernel} (member : k ∈ p.tg.kernels) (bare : k'.bare = k.bare)
    (given : ∀ a ∈ p.arguments k.id, Given p.tg k a) :
    ∀ a ∈ allArguments k' (p.arguments k.id), (a.valueIn (r.mm.tlb k')).isSome := by
  have ids : k'.id = k.id := by
    have same := congrArg Kernel.id bare
    exact same
  have guest := resourceAllocation_guest allotted.run member
  have addressed := resourceAllocation_extends allotted.run
  intro a inside
  have given := allotted.given_all member bare given a inside
  cases a with
  | scalar type value => rfl
  | buffer id value =>
    obtain ⟨b, listed, rfl, names⟩ := given
    refine (addressed.buffers k'.id b.id).mpr (.inr ⟨b, listed, ?_, ?_, rfl⟩)
    · rw [ids]
      exact guest
    · rw [ids]
      exact names
  | event id value =>
    obtain ⟨e, listed, rfl, names⟩ := given
    refine (addressed.events k'.id e.id).mpr (.inr (.inl ⟨e, listed, ?_, ?_, rfl⟩))
    · rw [ids]
      exact guest
    · rw [ids]
      exact names

/-- A kernel whose start-up code reads `argv` is placed on its unit. -/
theorem reads {kid : Nat} {k : Kernel} (found : p.kernel kid = some k) :
    ∃ k' ∈ r.tg.kernels, k'.bare = k.bare ∧ k'.id = k.id ∧ k ∈ p.tg.kernels ∧ k.id = kid ∧
      ((p.units k.id).arch = .PEAK ∨ (p.units k.id).arch = .GN) ∧
        (OpenCL.store cxt r.tg).kernels[k.id]? = some k' ∧ k'.unit = some (p.units k.id) := by
  obtain ⟨k₀, inGraph, found⟩ := Option.bind_eq_some_iff.mp found
  split at found
  · next reads =>
    cases found
    obtain ⟨member, rfl⟩ := TaskGraph.getKernelById_some inGraph
    obtain ⟨k', member', bare, stored⟩ := allotted.stored.kernels k member
    have same : k'.id = k.id := by
      have ids := congrArg Kernel.id bare
      exact ids
    have on := allotted.on member'
    rw [same] at on
    exact ⟨k', member', bare, same, member, rfl, reads, stored, on⟩
  · cases found

/-- The event behind a kernel's pointer is among what the kernel is started with, and names the kernel. -/
theorem event_passed {kid : Nat} {k k' : Kernel} (reads : p.kernel kid = some k) (bare : k'.bare = k.bare)
    (given : ∀ a ∈ p.arguments kid, Given p.tg k a) {event : DeviceEvent} {e : Event}
    (found : p.deviceEvent kid event = some e) :
    e ∈ p.tg.events ∧ k.id ∈ e.names ∧
      (∃ v, (allArguments k' (p.arguments kid))[event.index]? = some (.event e.id v)) ∧
        ∀ j, event = .param j → (p.kargs kid)[j]? = some .mangoEvent := by
  obtain ⟨_, _, _, _, member, _⟩ := allotted.reads reads
  have own : ∀ (i : Nat) (f : Event), k.events[i]? = some f → p.event f.id = some e →
      e ∈ p.tg.events ∧ k.id ∈ e.names ∧
        ∃ v, (allArguments k' (p.arguments kid))[i]? = some (.event e.id v) := by
    intro i f place known
    obtain ⟨listed, names⟩ := allotted.formed.kernelEvents k member f (List.mem_of_getElem? place)
    obtain rfl := Option.some.inj ((allotted.event_of_mem listed).symm.trans known)
    have few : i < 4 := by
      have count : k.events.length = 4 := by simp [Kernel.events, k.three]
      have bound := (List.getElem?_eq_some_iff.mp place).1
      omega
    have same : k'.events.map Event.bare = k.events.map Event.bare := congrArg Kernel.events bare
    have copies := congrArg (fun events => (events[i]?).map Event.id) same
    simp only [List.getElem?_map, place, Option.map_some, Option.map_map] at copies
    obtain ⟨f', place', ids⟩ := Option.map_eq_some_iff.mp copies
    have ids : f'.id = f.id := ids
    exact ⟨listed, names, none, by rw [allArguments_own _ _ few, place', Option.map_some, Arg.ofEvent, ids]⟩
  obtain ⟨_, again, found⟩ := Option.bind_eq_some_iff.mp found
  obtain rfl := Option.some.inj (again.symm.trans reads)
  cases event with
  | exit =>
    obtain ⟨listed, names, place⟩ := own 0 _ rfl found
    exact ⟨listed, names, place, fun _ same => by cases same⟩
  | a =>
    obtain ⟨f, task, found⟩ := Option.bind_eq_some_iff.mp found
    obtain ⟨listed, names, place⟩ := own 1 f task found
    exact ⟨listed, names, place, fun _ same => by cases same⟩
  | b =>
    obtain ⟨f, task, found⟩ := Option.bind_eq_some_iff.mp found
    obtain ⟨listed, names, place⟩ := own 2 f task found
    exact ⟨listed, names, place, fun _ same => by cases same⟩
  | r =>
    obtain ⟨f, task, found⟩ := Option.bind_eq_some_iff.mp found
    obtain ⟨listed, names, place⟩ := own 3 f task found
    exact ⟨listed, names, place, fun _ same => by cases same⟩
  | param j =>
    simp only at found
    split at found
    · next id v declared passed =>
      obtain ⟨f, listed, rfl, names⟩ := given _ (List.mem_of_getElem? passed)
      obtain rfl := Option.some.inj ((allotted.event_of_mem listed).symm.trans found)
      refine ⟨listed, names, ⟨v, (allArguments_param k' _ j).trans passed⟩, fun j' same => ?_⟩
      cases same
      exact declared
    · cases found

/-- The buffer behind a kernel's pointer is among what the kernel is started with, and names the kernel. -/
theorem buffer_passed {kid : Nat} {k : Kernel} (k' : Kernel)
    (given : ∀ a ∈ p.arguments kid, Given p.tg k a) {j : Nat} {b : Buffer} (found : p.parameter kid j = some b) :
    p.buffer b.id = some b ∧ k.id ∈ b.names ∧
      (∃ v, (allArguments k' (p.arguments kid))[4 + j]? = some (.buffer b.id v)) ∧
        (p.kargs kid)[j]? = some .pointer := by
  have known := Application.parameter_self found
  obtain ⟨_, _, found⟩ := Option.bind_eq_some_iff.mp found
  split at found
  · next id v declared passed =>
    obtain ⟨b', listed, rfl, names⟩ := given _ (List.mem_of_getElem? passed)
    obtain rfl := Option.some.inj ((allotted.buffer_of_mem listed).symm.trans found)
    exact ⟨known, names, ⟨v, (allArguments_param k' _ j).trans passed⟩, declared⟩
  · cases found

/-- What a kernel has for an event that names it is made of the address that the event's register has. -/
theorem event_address {kind : Manager} (mapping : mm.renew.setVaddr outcome kind r.tg = some r.mm) {k : Kernel}
    (guest : k.id ≠ 0) (member : k ∈ r.tg.kernels) {e : Event} (known : e ∈ p.tg.events)
    (names : k.id ∈ e.names) : ∃ asked f e', toBbque p.tg = some asked ∧
      r.mm.tlbEvents k.id e.id = some (eventAddress kind (p.units k.id) f) ∧ f.phyAddr = e'.phyAddr ∧
        (OpenCL.store cxt r.tg).events[e.id]? = some e' ∧ (manager asked).events[e'.id]? = some e'.phyAddr ∧
          e'.clusterId = (manager asked).cluster := by
  obtain ⟨asked, sent, _, located⟩ := allotted.located
  have same : r.tg.events.map Event.bare = p.tg.events.map Event.bare :=
    congrArg TaskGraph.events allotted.bare
  -- the event of the graph that the third pass goes through
  obtain ⟨e', listed, bare, ids⟩ := exists_of_bare Event.bare Event.id (fun _ => rfl) same known
  have names' : k.id ∈ e'.names := by
    rw [event_names bare]
    exact names
  obtain ⟨k', member', unit, f, ids', on, knows, eventId, found⟩ :=
    setVaddr_eventAt (fun k member => ⟨_, allotted.on member⟩) mapping (.inl ⟨e', listed, guest, names', ids.symm⟩)
  have kernelIds := nodup_of_bare Kernel.bare Kernel.id (fun _ => rfl)
    (congrArg TaskGraph.kernels allotted.bare) allotted.formed.kernelIds
  obtain rfl := List.inj_on_of_nodup_map kernelIds member' member ids'
  obtain rfl := Option.some.inj (on.symm.trans (allotted.on member))
  -- its address is the one that the resource manager has for the id
  have holds : r.tg.Holds f := by
    rcases knows with inGraph | ⟨k₂, here, own⟩
    · exact .inl inGraph
    · exact .inr (.inr ⟨k₂, here, List.mem_cons_of_mem _ own⟩)
  have inIds : ∀ id, id = e.id → id ∈ r.tg.events.map Event.id := by
    rintro _ rfl
    rw [← ids]
    exact List.mem_map_of_mem listed
  obtain ⟨answered, _⟩ := located.events f holds (inIds _ eventId)
  obtain ⟨e'', listed'', ids'', here⟩ := allotted.stored.events e known
  obtain ⟨answered'', cluster⟩ := located.events e'' (.inl listed'') (inIds _ ids'')
  refine ⟨asked, f, e'', sent, found, ?_, here, answered'', cluster⟩
  rw [eventId, ← ids'', answered''] at answered
  exact (Option.some.inj answered).symm

theorem sent_buffer {asked : BbqueGraph} (sent : toBbque p.tg = some asked) {b : Buffer}
    (known : p.buffer b.id = some b) : ∃ old, asked.buffers[b.id]? = some old ∧ old.size = b.size := by
  have member := List.mem_of_find?_eq_some known
  have listed : b.id ∈ asked.buffers := ((toBbque_keys sent).2.1 b.id).mpr (List.mem_map_of_mem member)
  obtain ⟨old, found⟩ := Option.isSome_iff_exists.mp (Std.TreeMap.mem_iff_isSome_getElem?.mp listed)
  refine ⟨old, found, ?_⟩
  rw [toBbque] at sent
  split at sent
  · cases sent
  split at sent
  · cases sent
  cases sent
  rcases foldl_insert_entry Buffer.id bbqueBuffer p.tg.buffers ∅ found with none | ⟨b', here, ids, rfl⟩
  · simp at none
  · rw [List.inj_on_of_nodup_map allotted.formed.bufferIds here member ids]
    rfl

theorem memory_separate : (bufferWindows p (OpenCL.store cxt r.tg)).Separate := by
  intro id j id' j' inside inside' meets
  obtain ⟨b, known, below⟩ := bufferWindows_inside inside
  obtain ⟨b', known', below'⟩ := bufferWindows_inside inside'
  obtain ⟨asked, sent, housed, located⟩ := allotted.located
  obtain rfl := Application.buffer_id known
  obtain rfl := Application.buffer_id known'
  obtain ⟨c, listed, bare, here⟩ := allotted.stored.buffers b (List.mem_of_find?_eq_some known)
  obtain ⟨c', listed', bare', here'⟩ := allotted.stored.buffers b' (List.mem_of_find?_eq_some known')
  rw [bufferWindows_cell (OpenCL.store cxt r.tg) here,
    bufferWindows_cell (OpenCL.store cxt r.tg) here'] at meets
  simp only [Prod.mk.injEq] at meets
  obtain ⟨_, tile, address⟩ := meets
  by_cases same : b.id = b'.id
  · rw [same, here'] at here
    obtain rfl := Option.some.inj here
    exact ⟨same, by omega⟩
  · obtain ⟨placed, answered, memTile, _, phyAddr⟩ := located.buffers c listed
    obtain ⟨placed', answered', memTile', _, phyAddr'⟩ := located.buffers c' listed'
    rw [(buffer_names bare).1] at answered
    rw [(buffer_names bare').1] at answered'
    obtain ⟨old, request, size⟩ := allotted.sent_buffer sent (Application.buffer_self known)
    obtain ⟨old', request', size'⟩ := allotted.sent_buffer sent (Application.buffer_self known')
    have apart := housed.disjoint _ _ _ _ _ _ request request' answered answered' same (by
      rw [← memTile, ← memTile', tile])
    simp only [Range.Apart, Range.stop] at apart
    omega

theorem registers_separate : (eventWindows p (OpenCL.store cxt r.tg)).Separate := by
  intro id j id' j' inside inside' meets
  obtain ⟨e, known, below⟩ := eventWindows_inside inside
  obtain ⟨e', known', below'⟩ := eventWindows_inside inside'
  obtain ⟨asked, sent, housed, located⟩ := allotted.located
  obtain rfl := Application.event_id known
  obtain rfl := Application.event_id known'
  obtain ⟨c, listed, ids, here⟩ := allotted.stored.events e (List.mem_of_find?_eq_some known)
  obtain ⟨c', listed', ids', here'⟩ := allotted.stored.events e' (List.mem_of_find?_eq_some known')
  rw [eventWindows_cell (OpenCL.store cxt r.tg) here,
    eventWindows_cell (OpenCL.store cxt r.tg) here'] at meets
  simp only [Prod.mk.injEq] at meets
  have answered := (located.events c (.inl listed) (List.mem_map_of_mem listed)).1
  have answered' := (located.events c' (.inl listed') (List.mem_map_of_mem listed')).1
  rw [ids] at answered
  rw [ids', ← meets.2] at answered'
  exact ⟨housed.answers.apart _ _ _ answered answered', by omega⟩

end Allotted

end MangoModel.System
