import LibMango.Host.EventRegisters
import LibMango.Host.Usability

namespace MangoModel.Host

open Fallible

section Answer

/-- What the resource manager makes of a graph: it has the same tasks, buffers and events, each task is
    assigned one of its targets, and each event has a register of its own. -/
structure Answers (asked answer : BbqueGraph) : Prop where
  tasks : ∀ id, id ∈ answer.tasks ↔ id ∈ asked.tasks
  buffers : ∀ id, id ∈ answer.buffers ↔ id ∈ asked.buffers
  events : ∀ id, id ∈ answer.events ↔ id ∈ asked.events
  targets : ∀ (id : Nat) (old task : BbqueTask), asked.tasks[id]? = some old → answer.tasks[id]? = some task →
    ∀ arch, (task.targets arch).isSome = (old.targets arch).isSome
  assigned : ∀ (id : Nat) (task : BbqueTask), answer.tasks[id]? = some task → (task.targets task.assignedArch).isSome
  nonzero : ∀ id : Nat, answer.events[id]? ≠ some 0
  apart : ∀ (id id' addr : Nat), answer.events[id]? = some addr → answer.events[id']? = some addr → id = id'

def Kernel.At (k : Kernel) (cluster : Nat) (task : BbqueTask) : Prop :=
  ∃ target, task.targets task.assignedArch = some target ∧
    k.unit = some ⟨task.mappedProcessor, archToUnitType task.assignedArch⟩ ∧
    k.memTile = target.memoryBank ∧ k.clusterId = cluster ∧ k.phyAddr = target.address

def Buffer.At (b : Buffer) (cluster : Nat) (placed : BbqueBuffer) : Prop :=
  b.memTile = placed.memoryBank ∧ b.clusterId = cluster ∧ b.phyAddr = placed.physicalAddress

/-- The events of a graph's list, of its buffers and of its kernels. -/
def TaskGraph.Holds (tg : TaskGraph) (e : Event) : Prop :=
  e ∈ tg.events ∨ (∃ b ∈ tg.buffers, b.event = e) ∨ ∃ k ∈ tg.kernels, e ∈ k.events

/-- The answer is in the graph, each register of a buffer holds WRITE, those of the other events hold
    0, and nothing else has changed. -/
structure Imported (answer : BbqueGraph) (tg : TaskGraph) (regs : Registers) (p : Placement) : Prop where
  same : p.1.bare = tg.bare
  kernels : ∀ k ∈ p.1.kernels, ∃ task, answer.tasks[k.id]? = some task ∧ k.At answer.cluster task
  buffers : ∀ b ∈ p.1.buffers, ∃ placed, answer.buffers[b.id]? = some placed ∧ b.At answer.cluster placed
  events : ∀ e, p.1.Holds e → e.id ∈ tg.events.map Event.id →
    answer.events[e.id]? = some e.phyAddr ∧ e.clusterId = answer.cluster
  written : ∀ b ∈ p.1.buffers, p.2 answer.cluster b.event.phyAddr = MangoEventStatus.WRITE.value
  cleared : ∀ e ∈ p.1.events, (∀ b ∈ p.1.buffers, b.event.id ≠ e.id) → p.2 answer.cluster e.phyAddr = 0
  kept : ∀ cluster addr, (cluster = answer.cluster → ∀ e ∈ p.1.events, e.phyAddr ≠ addr) →
    p.2 cluster addr = regs cluster addr

end Answer

section Entries

variable {α : Type} {m : IdMap α} {id : Nat} {v w : α}

theorem entry_unique {entries : List (Nat × α)} (within : entries <+: m.toList) (entry : (id, v) ∈ entries)
    (other : (id, w) ∈ entries) : w = v := by
  have found := Std.TreeMap.mem_toList_iff_getElem?_eq_some.mp (within.subset entry)
  have found' := Std.TreeMap.mem_toList_iff_getElem?_eq_some.mp (within.subset other)
  exact Option.some.inj (found'.symm.trans found)

theorem size_of_keys {ids : List Nat} (distinct : ids.Nodup) (keys : ∀ id, id ∈ m ↔ id ∈ ids) :
    m.size = ids.length := by
  have perm : m.keys.Perm ids := by
    apply (List.perm_ext_iff_of_nodup Std.TreeMap.nodup_keys distinct).mpr
    intro id
    rw [Std.TreeMap.mem_keys, keys]
  rw [← Std.TreeMap.length_keys, perm.length_eq]

end Entries

section Kernels

variable {answer : BbqueGraph} {cluster : Nat} {task : BbqueTask} {k k' : Kernel}

theorem assignKernel_succeeds (cluster : Nat) (known : archToUnitType task.assignedArch ≠ .STOP)
    (target : (task.targets task.assignedArch).isSome) (k : Kernel) :
    ∃ k', assignKernel cluster task k = some k' ∧ k'.At cluster task ∧ k'.id = k.id := by
  obtain ⟨place, found⟩ := Option.isSome_iff_exists.mp target
  simp only [assignKernel, if_neg known, found]
  exact ⟨_, rfl, ⟨place, found, rfl, rfl, rfl, rfl⟩, rfl⟩

theorem assignKernels_succeeds (ready : ∀ (id : Nat) (task : BbqueTask), answer.tasks[id]? = some task →
      archToUnitType task.assignedArch ≠ .STOP ∧ (task.targets task.assignedArch).isSome)
    (kernels : List Kernel) : ∃ kernels', assignKernels answer kernels = some kernels' ∧
      ∀ k ∈ kernels', ∀ task, answer.tasks[k.id]? = some task → k.At answer.cluster task := by
  have pass : ∃ kernels', assignKernels answer kernels = some kernels' ∧
      ∀ k ∈ kernels', ∀ task, (k.id, task) ∈ answer.tasks.toList → k.At answer.cluster task := by
    refine foldlM_succeeds (motive := fun done (kernels : List Kernel) => ∀ k ∈ kernels, ∀ task, (k.id, task) ∈ done →
      k.At answer.cluster task) (fun done entry kernels within placed => ?_) (by simp)
    obtain ⟨id, task⟩ := entry
    have listed : (id, task) ∈ done ++ [(id, task)] := by simp
    obtain ⟨known, target⟩ := ready id task
      (Std.TreeMap.mem_toList_iff_getElem?_eq_some.mp (within.subset listed))
    have each : ∀ k ∈ kernels, ∃ k', (if id = k.id then assignKernel answer.cluster task k else some k) =
        some k' ∧ ∀ other, (k'.id, other) ∈ done ++ [(id, task)] → k'.At answer.cluster other := by
      intro k member
      by_cases mine : id = k.id
      · obtain ⟨k', one, at', ids⟩ := assignKernel_succeeds answer.cluster known target k
        refine ⟨k', by rw [if_pos mine, one], fun other entry => ?_⟩
        rw [ids, ← mine] at entry
        rwa [entry_unique within listed entry]
      · refine ⟨k, if_neg mine, fun other entry => ?_⟩
        rcases List.mem_append.mp entry with earlier | this
        · exact placed k member other earlier
        · exact absurd (Prod.mk.inj (List.mem_singleton.mp this)).1.symm mine
    obtain ⟨kernels', one, placed'⟩ := mapM_succeeds each
    exact ⟨kernels', one, placed'⟩
  obtain ⟨kernels', run, placed⟩ := pass
  refine ⟨kernels', run, fun k member task found => placed k member task ?_⟩
  exact Std.TreeMap.mem_toList_iff_getElem?_eq_some.mpr found

end Kernels

section Events

variable {answer : BbqueGraph} {tg : TaskGraph} {regs : Registers} {p : Placement} {f g : Event → Event}

theorem holds_mapEvents {e : Event} : (tg.mapEvents f).Holds e ↔ ∃ old, tg.Holds old ∧ f old = e := by
  constructor
  · rintro (listed | ⟨b, member, rfl⟩ | ⟨k, member, own⟩)
    · obtain ⟨old, member, same⟩ := List.mem_map.mp listed
      exact ⟨old, .inl member, same⟩
    · obtain ⟨old, listed, rfl⟩ := List.mem_map.mp member
      exact ⟨old.event, .inr (.inl ⟨old, listed, rfl⟩), rfl⟩
    · obtain ⟨old, listed, rfl⟩ := List.mem_map.mp member
      have mapped : e ∈ old.events.map f := own
      obtain ⟨e', own, same⟩ := List.mem_map.mp mapped
      exact ⟨e', .inr (.inr ⟨old, listed, own⟩), same⟩
  · rintro ⟨old, listed | ⟨b, member, rfl⟩ | ⟨k, member, own⟩, rfl⟩
    · exact .inl (List.mem_map_of_mem listed)
    · exact .inr (.inl ⟨_, List.mem_map_of_mem member, rfl⟩)
    · exact .inr (.inr ⟨_, List.mem_map_of_mem member, List.mem_map_of_mem (l := k.events) own⟩)

theorem Kernel.mapEvents_comp (k : Kernel) : (k.mapEvents f).mapEvents g = k.mapEvents (g ∘ f) := by
  simp [Kernel.mapEvents]

theorem TaskGraph.mapEvents_comp (tg : TaskGraph) :
    (tg.mapEvents f).mapEvents g = tg.mapEvents (g ∘ f) := by
  simp [TaskGraph.mapEvents, Kernel.mapEvents_comp]

theorem TaskGraph.mapEvents_self (tg : TaskGraph) : tg.mapEvents (fun e => e) = tg := by
  have kernel : Kernel.mapEvents (fun e => e) = id := by
    funext k
    simp [Kernel.mapEvents]
  simp [TaskGraph.mapEvents, kernel]

theorem assign_again (id cluster addr : Nat) :
    Event.assign id cluster addr ∘ Event.assign id cluster addr = Event.assign id cluster addr := by
  funext e
  by_cases same : e.id = id
  · simp [Event.assign, same]
  · simp [Event.assign, same]

theorem Registers.write_again (regs : Registers) (cluster addr value : Nat) :
    (regs.write cluster addr value).write cluster addr value = regs.write cluster addr value := by
  funext c a
  simp only [write_get]
  split <;> rfl

theorem Registers.clear_eq (regs : Registers) (cluster addr : Nat) :
    regs.clear cluster addr = some (regs.write cluster addr 0) := by
  have empty : regs.write cluster addr 0 cluster addr = 0 := by rw [write_get, if_pos ⟨rfl, rfl⟩]
  simp only [clear, read, empty, ↓reduceIte, write_again]

theorem assignEvent_eq (cluster : Nat) (p : Placement) (id addr : Nat) : assignEvent cluster p id addr =
    some (p.1.mapEvents (Event.assign id cluster addr), p.2.write cluster addr 0) := by
  rw [assignEvent, Registers.clear_eq]
  rfl

/-- Repetitions of an event replay what the first one has done. -/
theorem assignEvent_pass (cluster : Nat) (p : Placement) (id addr : Nat) (items : List Event) :
    items.foldlM (fun p _ => assignEvent cluster p id addr) p = some (if items = [] then p
      else (p.1.mapEvents (Event.assign id cluster addr), p.2.write cluster addr 0)) := by
  induction items generalizing p with
  | nil => rfl
  | cons e rest ih =>
    rw [List.foldlM_cons, assignEvent_eq, if_neg (List.cons_ne_nil _ _)]
    change rest.foldlM _ _ = _
    rw [ih]
    split
    · rfl
    · rw [TaskGraph.mapEvents_comp, assign_again, Registers.write_again]

/-- The events that the entries have been for, and their registers. -/
structure EventsAt (answer : BbqueGraph) (before : Placement) (done : List (Nat × Nat)) (p : Placement) :
    Prop where
  graph : ∃ f, (∀ e : Event, (f e).id = e.id) ∧ p.1 = before.1.mapEvents f
  placed : ∀ e, p.1.Holds e → e.id ∈ before.1.events.map Event.id → ∀ addr, (e.id, addr) ∈ done →
    e.phyAddr = addr ∧ e.clusterId = answer.cluster
  cleared : ∀ id ∈ before.1.events.map Event.id, ∀ addr, (id, addr) ∈ done → p.2 answer.cluster addr = 0
  kept : ∀ cluster addr, (cluster = answer.cluster →
    ∀ id ∈ before.1.events.map Event.id, (id, addr) ∉ done) → p.2 cluster addr = before.2 cluster addr

variable {before : Placement} {done : List (Nat × Nat)} {id addr : Nat}

theorem EventsAt.start : EventsAt answer p [] p where
  graph := ⟨fun e => e, fun _ => rfl, (TaskGraph.mapEvents_self _).symm⟩
  placed _ _ _ _ listed := by cases listed
  cleared _ _ _ listed := by cases listed
  kept _ _ _ := rfl

theorem EventsAt.ids (at' : EventsAt answer before done p) :
    p.1.events.map Event.id = before.1.events.map Event.id := by
  obtain ⟨f, kept, graph⟩ := at'.graph
  simp [graph, TaskGraph.mapEvents, kept]

/-- An entry without an event in the graph's list. -/
theorem EventsAt.skip (at' : EventsAt answer before done p) (absent : id ∉ before.1.events.map Event.id) :
    EventsAt answer before (done ++ [(id, addr)]) p where
  graph := at'.graph
  placed e holds listed other entry := by
    rcases List.mem_append.mp entry with earlier | this
    · exact at'.placed e holds listed other earlier
    · rw [(Prod.mk.inj (List.mem_singleton.mp this)).1] at listed
      exact absurd listed absent
  cleared id' listed other entry := by
    rcases List.mem_append.mp entry with earlier | this
    · exact at'.cleared id' listed other earlier
    · rw [(Prod.mk.inj (List.mem_singleton.mp this)).1] at listed
      exact absurd listed absent
  kept cluster other outside := by
    apply at'.kept
    intro same id' listed entry
    exact outside same id' listed (List.mem_append_left _ entry)

theorem EventsAt.assign (at' : EventsAt answer before done p) (listed : id ∈ before.1.events.map Event.id)
    (unique : ∀ other, (id, other) ∈ done → other = addr) :
    EventsAt answer before (done ++ [(id, addr)])
      (p.1.mapEvents (Event.assign id answer.cluster addr), p.2.write answer.cluster addr 0) where
  graph := by
    obtain ⟨f, kept, graph⟩ := at'.graph
    refine ⟨Event.assign id answer.cluster addr ∘ f, fun e => ?_, ?_⟩
    · rw [Function.comp_apply, assign_id, kept]
    · rw [graph, TaskGraph.mapEvents_comp]
  placed e holds member other entry := by
    obtain ⟨old, held, rfl⟩ := holds_mapEvents.mp holds
    rw [assign_id] at member entry
    by_cases same : old.id = id
    · rw [Event.assign, if_pos same]
      rcases List.mem_append.mp entry with earlier | this
      · exact ⟨(unique other (same ▸ earlier)).symm, rfl⟩
      · exact ⟨(Prod.mk.inj (List.mem_singleton.mp this)).2.symm, rfl⟩
    · rw [Event.assign, if_neg same]
      rcases List.mem_append.mp entry with earlier | this
      · exact at'.placed old held member other earlier
      · exact absurd (Prod.mk.inj (List.mem_singleton.mp this)).1 same
  cleared id' member other entry := by
    change p.2.write _ _ _ _ _ = _
    rw [Registers.write_get]
    split
    · rfl
    · next apart =>
      rcases List.mem_append.mp entry with earlier | this
      · exact at'.cleared id' member other earlier
      · exact absurd ⟨rfl, (Prod.mk.inj (List.mem_singleton.mp this)).2⟩ apart
  kept cluster other outside := by
    change p.2.write _ _ _ _ _ = _
    rw [Registers.write_get, if_neg]
    · apply at'.kept
      intro same id' member entry
      exact outside same id' member (List.mem_append_left _ entry)
    · rintro ⟨same, rfl⟩
      exact outside same id listed (List.mem_append_right _ (List.mem_singleton_self _))

theorem assignEvents_succeeds (answer : BbqueGraph) (p : Placement) :
    ∃ p', assignEvents answer p = some p' ∧ EventsAt answer p answer.events.toList p' := by
  refine foldlM_succeeds (motive := EventsAt answer p) (fun done entry q within at' => ?_) EventsAt.start
  obtain ⟨id, addr⟩ := entry
  have entry : (id, addr) ∈ done ++ [(id, addr)] := List.mem_append_right _ (List.mem_singleton_self _)
  have pass := assignEvent_pass answer.cluster q id addr (q.1.events.filter fun e => e.id = id)
  refine ⟨_, pass, ?_⟩
  by_cases absent : (q.1.events.filter fun e => e.id = id) = []
  · rw [if_pos absent]
    apply at'.skip
    rw [← at'.ids]
    simpa [List.filter_eq_nil_iff] using absent
  · rw [if_neg absent]
    apply at'.assign
    · rw [← at'.ids]
      obtain ⟨e, member⟩ := List.exists_mem_of_ne_nil _ absent
      obtain ⟨listed, same⟩ := List.mem_filter.mp member
      exact List.mem_map.mpr ⟨e, listed, of_decide_eq_true same⟩
    · intro other earlier
      exact entry_unique within entry (List.mem_append_left _ earlier)

end Events

section Buffers

variable {answer : BbqueGraph} {p before : Placement} {done : List (Nat × BbqueBuffer)} {cluster id : Nat}
  {placed : BbqueBuffer} {b : Buffer}

theorem assignBuffer_eq (cluster id : Nat) (placed : BbqueBuffer) (given : b.event.phyAddr ≠ 0) (p : Placement) :
    assignBuffer cluster p id placed b = some ({ p.1 with buffers := p.1.buffers.map fun b =>
        if b.id = id then
          { b with memTile := placed.memoryBank, clusterId := cluster, phyAddr := placed.physicalAddress }
        else b }, p.2.write b.event.clusterId b.event.phyAddr MangoEventStatus.WRITE.value) := by
  have rewritten : (p.2.write b.event.clusterId b.event.phyAddr 0).write b.event.clusterId
      b.event.phyAddr MangoEventStatus.WRITE.value =
        p.2.write b.event.clusterId b.event.phyAddr MangoEventStatus.WRITE.value := by
    funext c a
    simp only [Registers.write_get]
    split <;> rfl
  rw [assignBuffer, if_neg given, Registers.clear_eq]
  change some (_, (p.2.write _ _ 0).write _ _ _) = _
  rw [rewritten]

/-- What a pass over the buffers with an id has done for those it has seen. -/
structure Passed (cluster id : Nat) (placed : BbqueBuffer) (before : Placement) (seen : List Buffer)
    (p : Placement) : Prop where
  alike : Alike p.1 before.1
  placed : seen ≠ [] → ∀ b ∈ p.1.buffers, b.id = id → b.At cluster placed
  others : ∀ b ∈ p.1.buffers, b.id ≠ id → b ∈ before.1.buffers
  written : ∀ b ∈ seen, Written p.2 b
  kept : ∀ c a, (∀ b ∈ seen, ¬ (c = b.event.clusterId ∧ a = b.event.phyAddr)) → p.2 c a = before.2 c a
  still : ∀ b, Written before.2 b → Written p.2 b

theorem Passed.step {seen : List Buffer} (passed : Passed cluster id placed before seen p)
    (given : b.event.phyAddr ≠ 0) : ∃ p', assignBuffer cluster p id placed b = some p' ∧
      Passed cluster id placed before (seen ++ [b]) p' := by
  have run := assignBuffer_eq cluster id placed given p
  obtain ⟨same, now, still⟩ := assignBuffer_written run
  refine ⟨_, run, passed.alike.trans same, ?_, ?_, ?_, ?_, fun b written => still b (passed.still b written)⟩
  · intro _ b' member ids
    obtain ⟨old, _, rfl⟩ := List.mem_map.mp member
    by_cases mine : old.id = id
    · rw [if_pos mine]
      exact ⟨rfl, rfl, rfl⟩
    · rw [if_neg mine] at ids
      exact absurd ids mine
  · intro b' member ids
    obtain ⟨old, listed, rfl⟩ := List.mem_map.mp member
    by_cases mine : old.id = id
    · rw [if_pos mine] at ids
      exact absurd mine ids
    · rw [if_neg mine] at ids ⊢
      exact passed.others old listed ids
  · intro b' member
    rcases List.mem_append.mp member with earlier | this
    · exact still b' (passed.written b' earlier)
    · obtain rfl := List.mem_singleton.mp this
      exact now
  · intro c a outside
    change p.2.write _ _ _ _ _ = _
    rw [Registers.write_get, if_neg (outside b (by simp))]
    exact passed.kept c a fun b' member => outside b' (List.mem_append_left _ member)

theorem assignBuffer_passed (cluster id : Nat) (placed : BbqueBuffer) {items : List Buffer}
    (given : ∀ b ∈ items, b.event.phyAddr ≠ 0) (p : Placement) : ∃ p', items.foldlM (fun p b => assignBuffer cluster p id placed b) p = some p' ∧
      Passed cluster id placed p items p' := by
  apply foldlM_succeeds (motive := Passed cluster id placed p)
  · intro seen b q within passed
    exact passed.step (given b (within.subset (by simp)))
  · exact ⟨⟨rfl, rfl, rfl⟩, fun seen => absurd rfl seen, fun _ member _ => member,
      (fun _ listed => by cases listed), fun _ _ _ => rfl, fun _ written => written⟩

/-- The buffers that the entries have been for, and the registers of their events. -/
structure BuffersAt (answer : BbqueGraph) (before : Placement) (done : List (Nat × BbqueBuffer))
    (p : Placement) : Prop where
  alike : Alike p.1 before.1
  placed : ∀ b ∈ p.1.buffers, ∀ placed, (b.id, placed) ∈ done → b.At answer.cluster placed
  written : ∀ b ∈ p.1.buffers, ∀ placed, (b.id, placed) ∈ done → Written p.2 b
  kept : ∀ c a, (∀ b ∈ p.1.buffers, ¬ (c = b.event.clusterId ∧ a = b.event.phyAddr)) →
    p.2 c a = before.2 c a

theorem BuffersAt.start : BuffersAt answer p [] p where
  alike := ⟨rfl, rfl, rfl⟩
  placed _ _ _ listed := by cases listed
  written _ _ _ listed := by cases listed
  kept _ _ _ := rfl

theorem BuffersAt.pass {q : Placement} (at' : BuffersAt answer before done p)
    (passed : Passed answer.cluster id placed p (p.1.buffers.filter fun b => b.id = id) q)
    (unique : ∀ other, (id, other) ∈ done → other = placed) :
    BuffersAt answer before (done ++ [(id, placed)]) q where
  alike := at'.alike.trans passed.alike
  placed b member other entry := by
    by_cases same : b.id = id
    · have seen : p.1.buffers.filter (fun b => b.id = id) ≠ [] := by
        obtain ⟨old, listed, ids, _⟩ := passed.alike.symm.exists_buffer member
        exact List.ne_nil_of_mem (List.mem_filter.mpr ⟨listed, by simp [ids, same]⟩)
      have its : other = placed := by
        rcases List.mem_append.mp entry with earlier | this
        · exact unique other (same ▸ earlier)
        · exact (Prod.mk.inj (List.mem_singleton.mp this)).2
      rw [its]
      exact passed.placed seen b member same
    · rcases List.mem_append.mp entry with earlier | this
      · exact at'.placed b (passed.others b member same) other earlier
      · exact absurd (Prod.mk.inj (List.mem_singleton.mp this)).1 same
  written b member other entry := by
    by_cases same : b.id = id
    · obtain ⟨old, listed, ids, event⟩ := passed.alike.symm.exists_buffer member
      have written := passed.written old (List.mem_filter.mpr ⟨listed, by simp [ids, same]⟩)
      rwa [Written, event] at written
    · rcases List.mem_append.mp entry with earlier | this
      · exact passed.still b (at'.written b (passed.others b member same) other earlier)
      · exact absurd (Prod.mk.inj (List.mem_singleton.mp this)).1 same
  kept c a outside := by
    have earlier : ∀ b ∈ p.1.buffers, ¬ (c = b.event.clusterId ∧ a = b.event.phyAddr) := by
      intro b member
      obtain ⟨b', listed, _, event⟩ := passed.alike.exists_buffer member
      rw [← event]
      exact outside b' listed
    rw [passed.kept c a fun b member => earlier b (List.mem_filter.mp member).1]
    exact at'.kept c a earlier

theorem assignBuffers_succeeds (answer : BbqueGraph) (given : ∀ b ∈ p.1.buffers, b.event.phyAddr ≠ 0) :
    ∃ p', assignBuffers answer p = some p' ∧ BuffersAt answer p answer.buffers.toList p' := by
  refine foldlM_succeeds (motive := BuffersAt answer p) (fun done entry q within at' => ?_) BuffersAt.start
  obtain ⟨id, placed⟩ := entry
  have entry : (id, placed) ∈ done ++ [(id, placed)] := List.mem_append_right _ (List.mem_singleton_self _)
  have given' : ∀ b ∈ q.1.buffers.filter (fun b => b.id = id), b.event.phyAddr ≠ 0 := by
    intro b member
    obtain ⟨b', listed, _, event⟩ := at'.alike.symm.exists_buffer (List.mem_filter.mp member).1
    rw [← event]
    exact given b' listed
  obtain ⟨q', run, passed⟩ := assignBuffer_passed answer.cluster id placed given' q
  refine ⟨q', run, at'.pass passed fun other earlier => ?_⟩
  exact entry_unique within entry (List.mem_append_left _ earlier)

end Buffers

section Asked

variable {tg : TaskGraph} {asked answer : BbqueGraph}

theorem bbqueTargets_unit {f : KernelFunction} {arch : ArchType} (target : (bbqueTargets f arch).isSome) :
    archToUnitType arch ≠ .STOP := by
  cases arch <;> first | decide | cases target

theorem foldl_insert_some {α β : Type} (key : α → Nat) (value : α → β) (items : List α) (m : IdMap β)
    {id : Nat} {v : β} (found : (items.foldl (fun m item => m.insert (key item) (value item)) m)[id]? = some v) :
    m[id]? = some v ∨ ∃ item ∈ items, value item = v := by
  induction items generalizing m with
  | nil => exact .inl found
  | cons item rest ih =>
    rcases ih _ found with before | ⟨item', member, same⟩
    · rw [Std.TreeMap.getElem?_insert] at before
      split at before
      · exact .inr ⟨item, List.mem_cons_self, Option.some.inj before⟩
      · exact .inl before
    · exact .inr ⟨item', List.mem_cons_of_mem _ member, same⟩

theorem toBbque_targets (run : toBbque tg = some asked) {id : Nat} {task : BbqueTask}
    (found : asked.tasks[id]? = some task) {arch : ArchType} (target : (task.targets arch).isSome) :
    archToUnitType arch ≠ .STOP := by
  rw [toBbque] at run
  split at run
  · cases run
  split at run
  · cases run
  cases run
  rcases foldl_insert_some Kernel.id bbqueTask tg.kernels ∅ found with none | ⟨k, _, rfl⟩
  · simp at none
  · exact bbqueTargets_unit target

end Asked

section Import

variable {tg : TaskGraph} {asked answer : BbqueGraph}

theorem Answers.ready (answers : Answers asked answer) (run : toBbque tg = some asked) :
    ∀ (id : Nat) (task : BbqueTask), answer.tasks[id]? = some task →
      archToUnitType task.assignedArch ≠ .STOP ∧ (task.targets task.assignedArch).isSome := by
  intro id task found
  have target := answers.assigned id task found
  have known : id ∈ answer.tasks := by
    rw [Std.TreeMap.mem_iff_isSome_getElem?, found]
    rfl
  obtain ⟨old, found'⟩ := Option.isSome_iff_exists.mp
    (Std.TreeMap.mem_iff_isSome_getElem?.mp ((answers.tasks id).mp known))
  have offered : (old.targets task.assignedArch).isSome := by
    rw [← answers.targets id old task found' found]
    exact target
  exact ⟨toBbque_targets run found' offered, target⟩

theorem key_of_bare {α : Type} {m : IdMap α} {ids ids' : List Nat} (keys : ∀ id, id ∈ m ↔ id ∈ ids)
    (same : ids' = ids) {id : Nat} (member : id ∈ ids') : ∃ v, m[id]? = some v := by
  rw [same] at member
  exact Option.isSome_iff_exists.mp (Std.TreeMap.mem_iff_isSome_getElem?.mp ((keys id).mpr member))

theorem Alike.holds {t : TaskGraph} (alike : Alike t tg) {e : Event} (holds : t.Holds e) : tg.Holds e := by
  rcases holds with listed | ⟨b, member, rfl⟩ | own
  · exact .inl (alike.events ▸ listed)
  · obtain ⟨b', member', _, event⟩ := alike.symm.exists_buffer member
    exact .inr (.inl ⟨b', member', event⟩)
  · exact .inr (.inr (alike.kernels ▸ own))

theorem bufferEvents_of_bare {t : TaskGraph} (bare : t.bare = tg.bare)
    (listed : ∀ b ∈ tg.buffers, b.event ∈ tg.events) :
    ∀ b ∈ t.buffers, b.event.id ∈ tg.events.map Event.id := by
  intro b member
  have ids := congrArg (fun t => t.buffers.map fun b => b.event.id) bare
  simp only [TaskGraph.bare, List.map_map] at ids
  have same : b.event.id ∈ tg.buffers.map fun b => b.event.id := by
    rw [show (tg.buffers.map fun b => b.event.id) = t.buffers.map fun b => b.event.id from ids.symm]
    exact List.mem_map_of_mem member
  obtain ⟨b', member', same⟩ := List.mem_map.mp same
  exact List.mem_map.mpr ⟨b'.event, listed b' member', same⟩

/-- Each event of a graph has the address the answer has for its id. -/
def EventsGiven (answer : BbqueGraph) (ids : List Nat) (tg : TaskGraph) : Prop :=
  ∀ e, tg.Holds e → e.id ∈ ids → answer.events[e.id]? = some e.phyAddr ∧ e.clusterId = answer.cluster

theorem EventsAt.given {before q : Placement} {ids : List Nat} (at' : EventsAt answer before answer.events.toList q)
    (listed : before.1.events.map Event.id = ids) (events : ∀ id, id ∈ answer.events ↔ id ∈ ids) :
    EventsGiven answer ids q.1 := by
  intro e holds member
  obtain ⟨addr, found⟩ := key_of_bare events rfl member
  obtain ⟨rfl, cluster⟩ := at'.placed e holds (listed ▸ member) addr
    (Std.TreeMap.mem_toList_iff_getElem?_eq_some.mpr found)
  exact ⟨found, cluster⟩

/-- A buffer's register is written last, and no register of another event is the same one. -/
theorem imported_registers {before q p : Placement} {ids : List Nat}
    (apart : ∀ (id id' addr : Nat), answer.events[id]? = some addr → answer.events[id']? = some addr → id = id')
    (eventsAt : EventsAt answer before answer.events.toList q) (first : before.1.events.map Event.id = ids)
    (buffersAt : BuffersAt answer q answer.buffers.toList p) (given : EventsGiven answer ids p.1)
    (listed : ∀ b ∈ p.1.buffers, b.event.id ∈ ids) (events : p.1.events.map Event.id = ids) :
    (∀ e ∈ p.1.events, (∀ b ∈ p.1.buffers, b.event.id ≠ e.id) → p.2 answer.cluster e.phyAddr = 0) ∧
    ∀ cluster addr, (cluster = answer.cluster → ∀ e ∈ p.1.events, e.phyAddr ≠ addr) →
      p.2 cluster addr = before.2 cluster addr := by
  have own : ∀ b ∈ p.1.buffers, answer.events[b.event.id]? = some b.event.phyAddr ∧
      b.event.clusterId = answer.cluster := fun b member =>
    given b.event (.inr (.inl ⟨b, member, rfl⟩)) (listed b member)
  have entry : ∀ id ∈ ids, ∀ addr, (id, addr) ∈ answer.events.toList →
      ∃ e ∈ p.1.events, e.id = id ∧ e.phyAddr = addr := by
    intro id member addr found
    obtain ⟨e, listed, rfl⟩ := List.mem_map.mp (events ▸ member)
    have found := Std.TreeMap.mem_toList_iff_getElem?_eq_some.mp found
    rw [(given e (.inl listed) member).1] at found
    exact ⟨e, listed, rfl, Option.some.inj found⟩
  constructor
  · intro e member other
    have mine := given e (.inl member) (events ▸ List.mem_map_of_mem member)
    rw [buffersAt.kept]
    · apply eventsAt.cleared e.id (first ▸ events ▸ List.mem_map_of_mem member)
      exact Std.TreeMap.mem_toList_iff_getElem?_eq_some.mpr mine.1
    · rintro b here ⟨_, same⟩
      have its := (own b here).1
      rw [← same] at its
      exact other b here (apart _ _ _ its mine.1)
  · intro cluster addr outside
    rw [buffersAt.kept, eventsAt.kept]
    · intro same id member found
      obtain ⟨e, here, _, given⟩ := entry id (first ▸ member) addr found
      exact outside same e here given
    · rintro b here ⟨same, address⟩
      obtain ⟨found, cluster⟩ := own b here
      obtain ⟨e, listed, _, given⟩ := entry _ (listed b here) _
        (Std.TreeMap.mem_toList_iff_getElem?_eq_some.mpr found)
      exact outside (same.trans cluster) e listed (given.trans address.symm)

/-- Whatever the resource manager answers, `from_bbque` comes to its end, and its answer is in the graph
    and in the registers. -/
theorem fromBbque_imports (kernelIds : (tg.kernels.map Kernel.id).Nodup)
    (bufferIds : (tg.buffers.map Buffer.id).Nodup) (listed : ∀ b ∈ tg.buffers, b.event ∈ tg.events)
    (run : toBbque tg = some asked) (answers : Answers asked answer) (regs : Registers) :
    ∃ p, fromBbque answer tg regs = some p ∧ Imported answer tg regs p := by
  obtain ⟨askedTasks, askedBuffers, askedEvents⟩ := toBbque_keys run
  have tasks := fun id => (answers.tasks id).trans (askedTasks id)
  have buffers := fun id => (answers.buffers id).trans (askedBuffers id)
  have events := fun id => (answers.events id).trans (askedEvents id)
  have sizes : ¬ (answer.tasks.size ≠ tg.kernels.length ∨ answer.buffers.size ≠ tg.buffers.length) := by
    rw [size_of_keys kernelIds (by simpa using tasks), size_of_keys bufferIds (by simpa using buffers)]
    simp
  obtain ⟨kernels, assigned, placed⟩ := assignKernels_succeeds (answers.ready run) tg.kernels
  obtain ⟨q, addressed, eventsAt⟩ := assignEvents_succeeds answer ({ tg with kernels := kernels }, regs)
  have bare : q.1.bare = tg.bare := by
    rw [assignEvents_bare addressed]
    simp only [TaskGraph.bare, assignKernels_bare assigned]
  have given : EventsGiven answer (tg.events.map Event.id) q.1 := eventsAt.given rfl events
  have bufferEvents := bufferEvents_of_bare bare listed
  have nonzero : ∀ b ∈ q.1.buffers, b.event.phyAddr ≠ 0 := by
    intro b member zero
    have found := (given b.event (.inr (.inl ⟨b, member, rfl⟩)) (bufferEvents b member)).1
    rw [zero] at found
    exact answers.nonzero _ found
  obtain ⟨p, written, buffersAt⟩ := assignBuffers_succeeds answer nonzero
  have whole : fromBbque answer tg regs = some p := by
    rw [fromBbque, if_neg sizes, assigned]
    change (assignEvents answer _ >>= assignBuffers answer) = _
    rw [addressed]
    exact written
  have same := fromBbque_bare whole
  obtain ⟨_, bufferIds', eventIds⟩ := ids_of_bare same
  have given' : EventsGiven answer (tg.events.map Event.id) p.1 := fun e holds =>
    given e (buffersAt.alike.holds holds)
  have eventsListed := bufferEvents_of_bare same listed
  obtain ⟨cleared, kept⟩ := imported_registers answers.apart eventsAt rfl buffersAt given' eventsListed eventIds
  refine ⟨p, whole, same, fun k member => ?_, fun b member => ?_, given', fun b member => ?_, cleared, kept⟩
  · obtain ⟨f, _, graph⟩ := eventsAt.graph
    rw [buffersAt.alike.kernels, graph] at member
    obtain ⟨old, here, rfl⟩ := List.mem_map.mp member
    have ids := congrArg (List.map Kernel.id) (assignKernels_bare assigned)
    simp only [List.map_map] at ids
    obtain ⟨task, found⟩ := key_of_bare tasks ids (List.mem_map_of_mem here)
    exact ⟨task, found, placed old here task found⟩
  · obtain ⟨place, found⟩ := key_of_bare buffers bufferIds' (List.mem_map_of_mem member)
    exact ⟨place, found, buffersAt.placed b member place (Std.TreeMap.mem_toList_iff_getElem?_eq_some.mpr found)⟩
  · obtain ⟨place, found⟩ := key_of_bare buffers bufferIds' (List.mem_map_of_mem member)
    have done := buffersAt.written b member place (Std.TreeMap.mem_toList_iff_getElem?_eq_some.mpr found)
    have cluster := (given' b.event (.inr (.inl ⟨b, member, rfl⟩)) (eventsListed b member)).2
    rwa [Written, cluster] at done

theorem placeOn_answers {units : Nat → Nat × ArchType} (assigned : ∀ (id : Nat) (task : BbqueTask),
    asked.tasks[id]? = some task → (task.targets (units id).2).isSome) : Answers asked (placeOn units asked) where
  tasks id := Std.TreeMap.mem_map
  buffers id := Std.TreeMap.mem_map
  events id := Std.TreeMap.mem_map
  targets id old task found found' arch := by
    simp only [placeOn, Std.TreeMap.getElem?_map, found, Option.map_some, Option.some.injEq] at found'
    rw [← found', Option.isSome_map]
  assigned id task found := by
    simp only [placeOn, Std.TreeMap.getElem?_map, Option.map_eq_some_iff] at found
    obtain ⟨old, found, rfl⟩ := found
    rw [Option.isSome_map]
    exact assigned id old found
  nonzero id found := by
    simp only [placeOn, Std.TreeMap.getElem?_map, Option.map_eq_some_iff] at found
    obtain ⟨_, _, zero⟩ := found
    omega
  apart id id' addr here here' := by
    simp only [placeOn, Std.TreeMap.getElem?_map, Option.map_eq_some_iff] at here here'
    obtain ⟨_, _, same⟩ := here
    obtain ⟨_, _, same'⟩ := here'
    omega

theorem fromBbque_imports_two_kernels : ∃ asked p, toBbque twoKernels = some asked ∧
    fromBbque (placeOn (fun id => if id = 1 then (5, .PEAK) else (6, .DCT)) asked) twoKernels
      (fun _ _ => 7) = some p ∧
    Imported (placeOn (fun id => if id = 1 then (5, .PEAK) else (6, .DCT)) asked) twoKernels
      (fun _ _ => 7) p := by
  have tasks : (toBbque twoKernels).map (fun asked => asked.tasks.toList.map fun entry =>
      (entry.1, (entry.2.targets .PEAK).isSome, (entry.2.targets .DCT).isSome)) =
        some [(1, true, false), (2, false, true)] := by decide
  obtain ⟨asked, run, tasks⟩ := Option.map_eq_some_iff.mp tasks
  have assigned : ∀ (id : Nat) (task : BbqueTask), asked.tasks[id]? = some task →
      (task.targets (if id = 1 then (5, ArchType.PEAK) else (6, .DCT)).2).isSome := by
    intro id task found
    have entry := Std.TreeMap.mem_toList_iff_getElem?_eq_some.mpr found
    have listed := List.mem_map_of_mem (f := fun entry : Nat × BbqueTask =>
      (entry.1, (entry.2.targets .PEAK).isSome, (entry.2.targets .DCT).isSome)) entry
    rw [tasks] at listed
    simp only [List.mem_cons, List.not_mem_nil, or_false, Prod.mk.injEq] at listed
    rcases listed with ⟨rfl, peak, _⟩ | ⟨rfl, _, dct⟩
    · exact peak
    · exact dct
  obtain ⟨p, imported⟩ := fromBbque_imports (by decide) (by decide) (by decide) run
    (placeOn_answers assigned) (fun _ _ => 7)
  exact ⟨asked, p, run, imported⟩

end Import

end MangoModel.Host
