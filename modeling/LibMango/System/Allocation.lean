import LibMango.Host.EventTlb
import LibMango.Host.Translation
import LibMango.System.Placement

namespace MangoModel.System

open Host Device OpenCL Interleave Layout Fallible Numeral

section Located

variable {tg : TaskGraph} {asked answer : BbqueGraph} {regs : Registers} {p : Host.Placement}
  {manager : BbqueGraph → BbqueGraph} {outcome : Nat → Bool} {mm : Mm} {r : Allocated}

/-- A graph whose kernels, buffers and events are where the answer of the resource manager puts them. -/
structure Located (answer : BbqueGraph) (tg : TaskGraph) : Prop where
  kernels : ∀ k ∈ tg.kernels, ∃ task, answer.tasks[k.id]? = some task ∧ k.At answer.cluster task
  buffers : ∀ b ∈ tg.buffers, ∃ placed, answer.buffers[b.id]? = some placed ∧ b.At answer.cluster placed
  events : EventsGiven answer (tg.events.map Event.id) tg

theorem fromBbque_located (listed : ∀ b ∈ tg.buffers, b.event ∈ tg.events)
    (sent : toBbque tg = some asked) (answers : Answers asked answer)
    (run : fromBbque answer tg regs = some p) : Located answer p.1 := by
  obtain ⟨askedTasks, askedBuffers, askedEvents⟩ := toBbque_keys sent
  have same := fromBbque_bare run
  obtain ⟨kernelIds, bufferIds, eventIds⟩ := ids_of_bare same
  rw [fromBbque] at run
  split at run
  · cases run
  obtain ⟨kernels, assigned, run⟩ := Option.bind_eq_some_iff.mp run
  obtain ⟨q, addressed, written⟩ := Option.bind_eq_some_iff.mp run
  -- each pass is the one that is known to succeed
  obtain ⟨kernels', assigned', placed⟩ := assignKernels_succeeds (answers.ready sent) tg.kernels
  obtain rfl := Option.some.inj (assigned'.symm.trans assigned)
  obtain ⟨q', addressed', eventsAt⟩ := assignEvents_succeeds answer ({ tg with kernels := kernels' }, regs)
  obtain rfl := Option.some.inj (addressed'.symm.trans addressed)
  have bare : q'.1.bare = tg.bare := (assignBuffers_bare written).symm.trans same
  have given : EventsGiven answer (tg.events.map Event.id) q'.1 :=
    eventsAt.given rfl fun id => (answers.events id).trans (askedEvents id)
  have nonzero : ∀ b ∈ q'.1.buffers, b.event.phyAddr ≠ 0 := by
    intro b member zero
    have found := (given b.event (.inr (.inl ⟨b, member, rfl⟩)) (bufferEvents_of_bare bare listed b member)).1
    rw [zero] at found
    exact answers.nonzero _ found
  obtain ⟨p', written', buffersAt⟩ := assignBuffers_succeeds answer nonzero
  obtain rfl := Option.some.inj (written'.symm.trans written)
  constructor
  · intro k member
    obtain ⟨f, _, graph⟩ := eventsAt.graph
    rw [buffersAt.alike.kernels, graph] at member
    obtain ⟨old, here, rfl⟩ := List.mem_map.mp member
    have ids := congrArg (List.map Kernel.id) (assignKernels_bare assigned)
    simp only [List.map_map] at ids
    obtain ⟨task, found⟩ := key_of_bare (fun id => (answers.tasks id).trans (askedTasks id)) ids
      (List.mem_map_of_mem here)
    exact ⟨task, found, placed old here task found⟩
  · intro b member
    obtain ⟨place, found⟩ := key_of_bare (fun id => (answers.buffers id).trans (askedBuffers id)) bufferIds
      (List.mem_map_of_mem member)
    exact ⟨place, found, buffersAt.placed b member place (Std.TreeMap.mem_toList_iff_getElem?_eq_some.mpr found)⟩
  · rw [eventIds]
    exact fun e holds => given e (buffersAt.alike.holds holds)

theorem resourceAllocation_located (listed : ∀ b ∈ tg.buffers, b.event ∈ tg.events)
    (sent : toBbque tg = some asked) (answers : Answers asked (manager asked))
    (run : resourceAllocation manager outcome tg regs mm = some r) : Located (manager asked) r.tg := by
  obtain ⟨asked', sent', run⟩ := Option.bind_eq_some_iff.mp run
  obtain rfl := Option.some.inj (sent'.symm.trans sent)
  obtain ⟨p, imported, run⟩ := Option.bind_eq_some_iff.mp run
  obtain ⟨k, _, run⟩ := Option.bind_eq_some_iff.mp run
  obtain ⟨unit, _, run⟩ := Option.bind_eq_some_iff.mp run
  obtain ⟨mm', _, run⟩ := Option.bind_eq_some_iff.mp run
  cases run
  exact fromBbque_located listed sent answers imported

end Located

section Formed

/-- A graph of kernels with events that name them, of buffers, and of one event under each id. -/
structure Formed (tg : TaskGraph) : Prop where
  kernelIds : (tg.kernels.map Kernel.id).Nodup
  bufferIds : (tg.buffers.map Buffer.id).Nodup
  kernelEvents : ∀ k ∈ tg.kernels, ∀ e ∈ k.events, e ∈ tg.events ∧ k.id ∈ e.names
  bufferEvents : ∀ b ∈ tg.buffers, b.event ∈ tg.events
  same : ∀ e ∈ tg.events, ∀ e' ∈ tg.events, e.id = e'.id → e = e'

/-- The objects of the graph are in the context under their ids. -/
structure Registered (cxt : Context) (tg : TaskGraph) : Prop where
  kernels : ∀ k ∈ tg.kernels, cxt.kernels[k.id]? = some k
  buffers : ∀ b ∈ tg.buffers, cxt.buffers[b.id]? = some b
  events : ∀ e ∈ tg.events, cxt.events[e.id]? = some e

/-- What the resource manager promises: the units, and a place of its own in the memories for each buffer. -/
structure Housed (units : Nat → HwUnit) (asked answer : BbqueGraph) : Prop where
  answers : Answers asked answer
  assigned : ∀ (id : Nat) (task : BbqueTask), answer.tasks[id]? = some task →
    units id = ⟨task.mappedProcessor, archToUnitType task.assignedArch⟩
  disjoint : ∀ (id id' : Nat) (old old' b b' : BbqueBuffer), asked.buffers[id]? = some old →
    asked.buffers[id']? = some old' → answer.buffers[id]? = some b → answer.buffers[id']? = some b' →
    id ≠ id' → b.memoryBank = b'.memoryBank →
      (Range.mk b.physicalAddress old.size).Apart ⟨b'.physicalAddress, old'.size⟩

/-- For units with TLBs it promises as well that the kernels' images are apart from the buffers, and that
    the registers of the events are within the window of the TLB entry for events. -/
structure Hosted (units : Nat → HwUnit) (asked answer : BbqueGraph) : Prop extends
    Housed units asked answer where
  window : ∀ (id addr : Nat), answer.events[id]? = some addr → addr < 2^24
  images : ∀ (id id' : Nat) (task : BbqueTask) (target : BbqueTarget) (old b : BbqueBuffer),
    answer.tasks[id]? = some task → task.targets task.assignedArch = some target →
    asked.buffers[id']? = some old → answer.buffers[id']? = some b → target.memoryBank = b.memoryBank →
      (Range.mk target.address (imageSize (units id).arch)).Apart ⟨b.physicalAddress, old.size⟩

variable {tg t : TaskGraph} {k : Kernel} {b : Buffer} {e : Event} {id : Nat}

theorem foldl_insert_entry {α β : Type} (key : α → Nat) (value : α → β) (items : List α) (m : IdMap β)
    {id : Nat} {v : β} (found : (items.foldl (fun m item => m.insert (key item) (value item)) m)[id]? = some v) :
    m[id]? = some v ∨ ∃ item ∈ items, key item = id ∧ value item = v := by
  induction items generalizing m with
  | nil => exact .inl found
  | cons item rest ih =>
    rcases ih _ found with before | ⟨item', member, same⟩
    · rw [Std.TreeMap.getElem?_insert] at before
      split at before
      · next here => exact .inr ⟨item, List.mem_cons_self, Std.LawfulEqCmp.compare_eq_iff_eq.mp here,
          Option.some.inj before⟩
      · exact .inl before
    · exact .inr ⟨item', List.mem_cons_of_mem _ member, same⟩

theorem find_of_nodup {α : Type} (key : α → Nat) {items : List α} (distinct : (items.map key).Nodup)
    {item : α} (member : item ∈ items) : items.find? (fun other => key other = key item) = some item := by
  obtain ⟨found, here⟩ := Option.isSome_iff_exists.mp
    (List.find?_isSome (p := fun other => decide (key other = key item)).mpr ⟨item, member, by simp⟩)
  have listed := List.mem_of_find?_eq_some here
  have ids : key found = key item := by simpa using List.find?_some here
  rw [here, List.inj_on_of_nodup_map distinct listed member ids]

/-- An object of the graph before it is placed has a counterpart of the same id in the one after. -/
theorem exists_of_bare {α : Type} (bare : α → α) (key : α → Nat) {items items' : List α}
    (kept : ∀ item, key (bare item) = key item) (same : items'.map bare = items.map bare) {item : α}
    (member : item ∈ items) : ∃ item' ∈ items', bare item' = bare item ∧ key item' = key item := by
  have listed : bare item ∈ items'.map bare := same ▸ List.mem_map_of_mem member
  obtain ⟨item', member', agree⟩ := List.mem_map.mp listed
  exact ⟨item', member', agree, by rw [← kept item', agree, kept]⟩

theorem nodup_of_bare {α : Type} (bare : α → α) (key : α → Nat) {items items' : List α}
    (kept : ∀ item, key (bare item) = key item) (same : items'.map bare = items.map bare)
    (distinct : (items.map key).Nodup) : (items'.map key).Nodup := by
  have keys : ∀ list : List α, list.map key = (list.map bare).map key := by
    intro list
    rw [List.map_map]
    exact List.map_congr_left fun item _ => (kept item).symm
  rwa [keys items', same, ← keys items]

theorem store_entry {α : Type} (bare : α → α) (key : α → Nat) {items items' : List α} {m : IdMap α}
    (kept : ∀ item, key (bare item) = key item) (same : items'.map bare = items.map bare) {item : α}
    (member : item ∈ items) (registered : m[key item]? = some item) :
    ∃ item' ∈ items', key item' = key item ∧
      (m.map fun id old => (items'.find? fun item => key item = id).getD old)[key item]? = some item' := by
  obtain ⟨other, listed, _, ids⟩ := exists_of_bare bare key kept same member
  obtain ⟨item', here⟩ := Option.isSome_iff_exists.mp
    (List.find?_isSome (p := fun other => decide (key other = key item)).mpr ⟨other, listed, by simp [ids]⟩)
  refine ⟨item', List.mem_of_find?_eq_some here, by simpa using List.find?_some here, ?_⟩
  rw [Std.TreeMap.getElem?_map, registered, Option.map_some, here, Option.getD_some]

/-- After the allocation the context has the graph's objects, placed. -/
structure Stored (cxt : Context) (t : TaskGraph) (tg : TaskGraph) : Prop where
  kernels : ∀ k ∈ tg.kernels, ∃ k' ∈ t.kernels, k'.bare = k.bare ∧ cxt.kernels[k.id]? = some k'
  buffers : ∀ b ∈ tg.buffers, ∃ b' ∈ t.buffers, b'.bare = b.bare ∧ cxt.buffers[b.id]? = some b'
  events : ∀ e ∈ tg.events, ∃ e' ∈ t.events, e'.id = e.id ∧ cxt.events[e.id]? = some e'

theorem store_stored {cxt : Context} (formed : Formed tg) (registered : Registered cxt tg)
    (same : t.bare = tg.bare) : Stored (OpenCL.store cxt t) t tg := by
  have kernels : t.kernels.map Kernel.bare = tg.kernels.map Kernel.bare := congrArg TaskGraph.kernels same
  have buffers : t.buffers.map Buffer.bare = tg.buffers.map Buffer.bare := congrArg TaskGraph.buffers same
  have events : t.events.map Event.bare = tg.events.map Event.bare := congrArg TaskGraph.events same
  have kernelIds := nodup_of_bare Kernel.bare Kernel.id (fun _ => rfl) kernels formed.kernelIds
  have bufferIds := nodup_of_bare Buffer.bare Buffer.id (fun _ => rfl) buffers formed.bufferIds
  refine ⟨fun k member => ?_, fun b member => ?_, fun e member => ?_⟩
  · obtain ⟨k', listed, ids, entry⟩ := store_entry Kernel.bare Kernel.id (fun _ => rfl) kernels member
      (registered.kernels k member)
    obtain ⟨other, there, bare, ids'⟩ := exists_of_bare Kernel.bare Kernel.id (fun _ => rfl) kernels member
    obtain rfl := List.inj_on_of_nodup_map kernelIds listed there (ids.trans ids'.symm)
    exact ⟨k', listed, bare, entry⟩
  · obtain ⟨b', listed, ids, entry⟩ := store_entry Buffer.bare Buffer.id (fun _ => rfl) buffers member
      (registered.buffers b member)
    obtain ⟨other, there, bare, ids'⟩ := exists_of_bare Buffer.bare Buffer.id (fun _ => rfl) buffers member
    obtain rfl := List.inj_on_of_nodup_map bufferIds listed there (ids.trans ids'.symm)
    exact ⟨b', listed, bare, entry⟩
  · exact store_entry Event.bare Event.id (fun _ => rfl) events member (registered.events e member)

end Formed

end MangoModel.System
