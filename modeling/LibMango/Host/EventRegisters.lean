import LibMango.Host.Allocation
import LibMango.Host.Construction

namespace MangoModel.Host

open Fallible

section Wired

/-- The events of kernels and buffers are in the graph's list, which has one event under each id. -/
structure TaskGraph.Wired (tg : TaskGraph) : Prop where
  buffers : ∀ b ∈ tg.buffers, b.event ∈ tg.events
  kernels : ∀ k ∈ tg.kernels, k.terminationEvent ∈ tg.events
  same : ∀ e ∈ tg.events, ∀ e' ∈ tg.events, e.id = e'.id → e = e'

variable {tg : TaskGraph} {s : Registry} {answers : List Answer}

theorem Built.wired (built : Built s tg) (recorded : History.Recorded (answers, s))
    (few : s.created ≤ 2^32) : tg.Wired where
  buffers b member := by
    obtain ⟨bid, found⟩ := built.buffers b member
    exact (built.events _).mpr ⟨_, recorded.bufferEvents few bid b found⟩
  kernels k member := by
    obtain ⟨kid, found⟩ := built.kernels k member
    exact (built.events _).mpr ⟨_, (recorded.kernels few kid k found).1⟩
  same e member e' member' ids := by
    obtain ⟨id, found⟩ := (built.events e).mp member
    obtain ⟨id', found'⟩ := (built.events e').mp member'
    have key : id = id' := by
      rw [← recorded.eventIds id e found, ids]
      exact recorded.eventIds id' e' found'
    subst key
    exact Option.some.inj (found.symm.trans found')

theorem TaskGraph.Wired.mapEvents {f : Event → Event} (wired : tg.Wired) (kept : ∀ e, (f e).id = e.id) :
    (tg.mapEvents f).Wired where
  buffers b member := by
    obtain ⟨b', member', rfl⟩ := List.mem_map.mp member
    exact List.mem_map_of_mem (wired.buffers b' member')
  kernels k member := by
    obtain ⟨k', member', rfl⟩ := List.mem_map.mp member
    exact List.mem_map_of_mem (wired.kernels k' member')
  same e member e' member' ids := by
    obtain ⟨old, listed, rfl⟩ := List.mem_map.mp member
    obtain ⟨old', listed', rfl⟩ := List.mem_map.mp member'
    rw [kept, kept] at ids
    rw [wired.same old listed old' listed' ids]

theorem TaskGraph.Wired.congr {t : TaskGraph} (wired : tg.Wired)
    (kernels : t.kernels.map Kernel.terminationEvent = tg.kernels.map Kernel.terminationEvent)
    (buffers : t.buffers.map Buffer.event = tg.buffers.map Buffer.event) (events : t.events = tg.events) :
    t.Wired where
  buffers b member := by
    have listed : b.event ∈ tg.buffers.map Buffer.event := buffers ▸ List.mem_map_of_mem member
    obtain ⟨b', member', same⟩ := List.mem_map.mp listed
    rw [events, ← same]
    exact wired.buffers b' member'
  kernels k member := by
    have listed : k.terminationEvent ∈ tg.kernels.map Kernel.terminationEvent :=
      kernels ▸ List.mem_map_of_mem member
    obtain ⟨k', member', same⟩ := List.mem_map.mp listed
    rw [events, ← same]
    exact wired.kernels k' member'
  same := by
    rw [events]
    exact wired.same

end Wired

section Addresses

variable {answer : BbqueGraph} {tg tg' : TaskGraph} {p p' : Placement} {regs : Registers}

theorem assignKernels_wired {kernels : List Kernel} (wired : tg.Wired)
    (run : assignKernels answer tg.kernels = some kernels) : { tg with kernels := kernels }.Wired := by
  refine wired.congr ?_ rfl rfl
  refine foldlM_invariant (motive := fun _ list =>
    list.map Kernel.terminationEvent = tg.kernels.map Kernel.terminationEvent)
    (fun _ entry list list' _ same one => ?_) rfl run
  rw [← same]
  apply mapM_map one
  intro k k' one
  split at one
  · rw [assignKernel] at one
    simp only at one
    split at one
    · cases one
    · obtain ⟨target, _, one⟩ := Option.bind_eq_some_iff.mp one
      cases one
      rfl
  · cases one
    rfl

theorem assign_id (id cluster addr : Nat) (e : Event) : (e.assign id cluster addr).id = e.id := by
  unfold Event.assign
  split <;> rfl

/-- The events that the entries have been for have their addresses. -/
structure Addressed (cluster : Nat) (entries : List (Nat × Nat)) (tg : TaskGraph) : Prop where
  wired : tg.Wired
  placed : ∀ e ∈ tg.events, ∀ addr, (e.id, addr) ∈ entries → e.phyAddr = addr ∧ e.clusterId = cluster

theorem Addressed.assign {cluster id addr : Nat} {entries : List (Nat × Nat)}
    (addressed : Addressed cluster entries tg) (unique : ∀ other, (id, other) ∈ entries → other = addr) :
    Addressed cluster entries (tg.mapEvents (Event.assign id cluster addr)) where
  wired := addressed.wired.mapEvents (assign_id id cluster addr)
  placed e member other listed := by
    obtain ⟨e', member', rfl⟩ := List.mem_map.mp member
    rw [assign_id] at listed
    by_cases same : e'.id = id
    · rw [unique other (same ▸ listed), Event.assign, if_pos same]
      exact ⟨rfl, rfl⟩
    · rw [Event.assign, if_neg same]
      exact addressed.placed e' member' other listed

theorem assignEvents_addressed (wired : p.1.Wired) (run : assignEvents answer p = some p') :
    Addressed answer.cluster answer.events.toList p'.1 := by
  refine foldlM_invariant (motive := fun done q => Addressed answer.cluster done q.1)
    (fun done entry q q' within addressed one => ?_) ⟨wired, fun _ _ _ listed => by cases listed⟩ run
  obtain ⟨id, addr⟩ := entry
  have unique : ∀ other, (id, other) ∈ done ++ [(id, addr)] → other = addr := by
    intro other listed
    have found := Std.TreeMap.mem_toList_iff_getElem?_eq_some.mp (within.subset listed)
    have found' := Std.TreeMap.mem_toList_iff_getElem?_eq_some.mp
      (within.subset (List.mem_append_right _ (List.mem_singleton_self (id, addr))))
    exact Option.some.inj (found.symm.trans found')
  -- from the first event of the id on, the events of that id have the address
  have placed : Addressed answer.cluster done q'.1 ∧
      q'.1.events.map Event.id = q.1.events.map Event.id ∧
      (q.1.events.filter (fun e => e.id = id) ≠ [] →
        ∀ e ∈ q'.1.events, e.id = id → e.phyAddr = addr ∧ e.clusterId = answer.cluster) := by
    refine foldlM_invariant (motive := fun seen r => Addressed answer.cluster done r.1 ∧
      r.1.events.map Event.id = q.1.events.map Event.id ∧ (seen ≠ [] →
        ∀ e ∈ r.1.events, e.id = id → e.phyAddr = addr ∧ e.clusterId = answer.cluster))
      (fun seen e r r' _ kept one => ?_) ⟨addressed, rfl, fun seen => absurd rfl seen⟩ one
    obtain ⟨regs, _, one⟩ := Option.bind_eq_some_iff.mp one
    cases one
    refine ⟨kept.1.assign fun other listed => unique other (List.mem_append_left _ listed), ?_, ?_⟩
    · rw [← kept.2.1]
      simp [TaskGraph.mapEvents, assign_id]
    · intro _ e' member same
      obtain ⟨old, _, rfl⟩ := List.mem_map.mp member
      rw [assign_id] at same
      rw [Event.assign, if_pos same]
      exact ⟨rfl, rfl⟩
  obtain ⟨before, ids, now⟩ := placed
  refine ⟨before.wired, fun e member other listed => ?_⟩
  rcases List.mem_append.mp listed with earlier | this
  · exact before.placed e member other earlier
  · obtain ⟨same, rfl⟩ := Prod.mk.inj (List.mem_singleton.mp this)
    refine now ?_ e member same
    have listed : e.id ∈ q.1.events.map Event.id := ids ▸ List.mem_map_of_mem member
    obtain ⟨old, member', same'⟩ := List.mem_map.mp listed
    exact List.ne_nil_of_mem (List.mem_filter.mpr ⟨member', by simpa [same] using same'⟩)

end Addresses

section Written

variable {answer : BbqueGraph} {tg tg' : TaskGraph} {p p' : Placement} {regs regs' : Registers}

theorem Registers.write_get (cluster addr value c a : Nat) :
    regs.write cluster addr value c a = if c = cluster ∧ a = addr then value else regs c a := by
  by_cases same : c = cluster
  · subst same
    by_cases same' : a = addr
    · subst same'
      simp [write]
    · simp [write, same']
  · simp [write, same]

theorem Registers.clear_get {cluster addr c a : Nat} (run : regs.clear cluster addr = some regs') :
    regs' c a = if c = cluster ∧ a = addr then 0 else regs c a := by
  have empty : regs.write cluster addr 0 cluster addr = 0 := by rw [write_get, if_pos ⟨rfl, rfl⟩]
  simp only [clear, read, empty, ↓reduceIte] at run
  cases run
  rw [write_get, write_get]
  split <;> rfl

def Written (regs : Registers) (b : Buffer) : Prop :=
  regs b.event.clusterId b.event.phyAddr = MangoEventStatus.WRITE.value

/-- The graphs differ in where their buffers are. -/
structure Alike (t tg : TaskGraph) : Prop where
  kernels : t.kernels = tg.kernels
  events : t.events = tg.events
  buffers : t.buffers.map (fun b => (b.id, b.event)) = tg.buffers.map fun b => (b.id, b.event)

theorem Alike.trans {u : TaskGraph} (first : Alike tg' tg) (rest : Alike u tg') : Alike u tg :=
  ⟨rest.kernels.trans first.kernels, rest.events.trans first.events, rest.buffers.trans first.buffers⟩

theorem Alike.exists_buffer {b : Buffer} (alike : Alike tg' tg) (member : b ∈ tg.buffers) :
    ∃ b' ∈ tg'.buffers, b'.id = b.id ∧ b'.event = b.event := by
  have listed : (b.id, b.event) ∈ tg'.buffers.map (fun b => (b.id, b.event)) :=
    alike.buffers ▸ List.mem_map_of_mem (f := fun b : Buffer => (b.id, b.event)) member
  obtain ⟨b', member', same⟩ := List.mem_map.mp listed
  exact ⟨b', member', Prod.mk.inj same⟩

theorem Alike.symm (alike : Alike tg' tg) : Alike tg tg' :=
  ⟨alike.kernels.symm, alike.events.symm, alike.buffers.symm⟩

theorem Alike.wired (alike : Alike tg' tg) (wired : tg.Wired) : tg'.Wired := by
  have events := congrArg (List.map Prod.snd) alike.buffers
  simp only [List.map_map] at events
  exact wired.congr (congrArg _ alike.kernels) events alike.events

theorem assignBuffer_written {cluster id : Nat} {placed : BbqueBuffer} {b : Buffer}
    (run : assignBuffer cluster p id placed b = some p') :
    Alike p'.1 p.1 ∧ Written p'.2 b ∧ ∀ other, Written p.2 other → Written p'.2 other := by
  rw [assignBuffer] at run
  split at run
  · cases run
  obtain ⟨regs, cleared, run⟩ := Option.bind_eq_some_iff.mp run
  cases run
  refine ⟨⟨rfl, rfl, ?_⟩, ?_, ?_⟩
  · rw [List.map_map]
    apply List.map_congr_left
    intro b' _
    simp only [Function.comp_apply]
    split <;> rfl
  · change regs.write _ _ _ _ _ = _
    rw [Registers.write_get, if_pos ⟨rfl, rfl⟩]
  · intro other written
    change regs.write _ _ _ _ _ = _
    rw [Registers.write_get, Registers.clear_get cleared]
    split
    · rfl
    · exact written

theorem assignBuffer_pass {cluster id : Nat} {placed : BbqueBuffer} {buffers : List Buffer}
    (run : buffers.foldlM (fun p b => assignBuffer cluster p id placed b) p = some p') :
    Alike p'.1 p.1 ∧ (∀ b ∈ buffers, Written p'.2 b) ∧ ∀ other, Written p.2 other → Written p'.2 other := by
  refine foldlM_invariant (motive := fun seen q => Alike q.1 p.1 ∧ (∀ b ∈ seen, Written q.2 b) ∧
    ∀ other, Written p.2 other → Written q.2 other)
    (fun seen b q q' _ kept one => ?_) ⟨⟨rfl, rfl, rfl⟩, (fun _ listed => by cases listed),
      fun _ written => written⟩ run
  obtain ⟨alike, before, older⟩ := kept
  obtain ⟨same, now, still⟩ := assignBuffer_written one
  refine ⟨alike.trans same, ?_, fun other written => still other (older other written)⟩
  intro b' listed
  rcases List.mem_append.mp listed with earlier | this
  · exact still b' (before b' earlier)
  · obtain rfl := List.mem_singleton.mp this
    exact now

theorem assignBuffers_written (run : assignBuffers answer p = some p') :
    Alike p'.1 p.1 ∧ ∀ b ∈ p.1.buffers, b.id ∈ answer.buffers → Written p'.2 b := by
  have kept : Alike p'.1 p.1 ∧
      ∀ b ∈ p.1.buffers, ∀ placed, (b.id, placed) ∈ answer.buffers.toList → Written p'.2 b := by
    refine foldlM_invariant (motive := fun done q => Alike q.1 p.1 ∧
      ∀ b ∈ p.1.buffers, ∀ placed, (b.id, placed) ∈ done → Written q.2 b)
      (fun done entry q q' _ kept one => ?_) ⟨⟨rfl, rfl, rfl⟩, fun _ _ _ listed => by cases listed⟩ run
    obtain ⟨id, placed⟩ := entry
    obtain ⟨alike, written⟩ := kept
    obtain ⟨same, now, still⟩ := assignBuffer_pass one
    refine ⟨alike.trans same, fun b member other listed => ?_⟩
    rcases List.mem_append.mp listed with earlier | this
    · exact still b (written b member other earlier)
    · -- the buffer is one of those that the pass is for
      have here : b.id = id := (Prod.mk.inj (List.mem_singleton.mp this)).1
      obtain ⟨b', member', ids, event⟩ := alike.exists_buffer member
      have done := now b' (List.mem_filter.mpr ⟨member', by simpa [here] using ids⟩)
      rw [Written, event] at done
      exact done
  refine ⟨kept.1, fun b member answered => ?_⟩
  obtain ⟨placed, found⟩ := Option.isSome_iff_exists.mp
    (Std.TreeMap.mem_iff_isSome_getElem?.mp answered)
  exact kept.2 b member placed (Std.TreeMap.mem_toList_iff_getElem?_eq_some.mpr found)

end Written

section Registers

/-- The resource manager answers for the buffers and the events it is asked for, and gives each event
    a register of its own. -/
structure Faithful (manager : BbqueGraph → BbqueGraph) : Prop where
  buffers : ∀ g id, id ∈ g.buffers → id ∈ (manager g).buffers
  events : ∀ g id, id ∈ g.events → id ∈ (manager g).events
  apart : ∀ g (id id' addr : Nat), (manager g).events[id]? = some addr →
    (manager g).events[id']? = some addr → id = id'

theorem mem_foldl_insert {α β : Type} (key : α → Nat) (value : α → β) (items : List α) (m : IdMap β)
    (id : Nat) : id ∈ items.foldl (fun m item => m.insert (key item) (value item)) m ↔
      id ∈ m ∨ id ∈ items.map key := by
  induction items generalizing m with
  | nil => simp
  | cons item items ih =>
    rw [List.foldl_cons, ih, Std.TreeMap.mem_insert, Std.LawfulEqCmp.compare_eq_iff_eq, List.map_cons,
      List.mem_cons, eq_comm]
    tauto

variable {tg : TaskGraph}

theorem toBbque_keys {asked : BbqueGraph} (run : toBbque tg = some asked) :
    (∀ id, id ∈ asked.tasks ↔ id ∈ tg.kernels.map Kernel.id) ∧
    (∀ id, id ∈ asked.buffers ↔ id ∈ tg.buffers.map Buffer.id) ∧
    ∀ id, id ∈ asked.events ↔ id ∈ tg.events.map Event.id := by
  rw [toBbque] at run
  split at run
  · cases run
  split at run
  · cases run
  cases run
  refine ⟨fun id => ?_, fun id => ?_, fun id => ?_⟩ <;>
    simp only [mem_foldl_insert, Std.TreeMap.not_mem_emptyc, false_or]

/-- The ids of a graph are among what is the same before and after it is placed. -/
theorem ids_of_bare {t : TaskGraph} (bare : t.bare = tg.bare) :
    t.kernels.map Kernel.id = tg.kernels.map Kernel.id ∧ t.buffers.map Buffer.id = tg.buffers.map Buffer.id ∧
      t.events.map Event.id = tg.events.map Event.id := by
  have kernels := congrArg (fun t => t.kernels.map Kernel.id) bare
  have buffers := congrArg (fun t => t.buffers.map Buffer.id) bare
  have events := congrArg (fun t => t.events.map Event.id) bare
  simp only [TaskGraph.bare, List.map_map] at kernels buffers events
  exact ⟨kernels, buffers, events⟩

/-- An allocated graph: its events have registers of their own, and those of the buffers hold WRITE. -/
structure OwnRegisters (tg : TaskGraph) (regs : Registers) : Prop where
  wired : tg.Wired
  apart : ∀ e ∈ tg.events, ∀ e' ∈ tg.events, e.clusterId = e'.clusterId → e.phyAddr = e'.phyAddr → e = e'
  written : ∀ b ∈ tg.buffers, Written regs b

variable {outcome : Nat → Bool} {regs : Registers} {mm : Mm} {r : Allocated}
  {manager : BbqueGraph → BbqueGraph}

theorem answered_of_bare {t : TaskGraph} {g : BbqueGraph} (faithful : Faithful manager)
    (asked : toBbque tg = some g) (bare : t.bare = tg.bare) :
    (∀ b ∈ t.buffers, b.id ∈ (manager g).buffers) ∧
      ∀ e ∈ t.events, ∃ addr, (manager g).events[e.id]? = some addr := by
  obtain ⟨_, askedBuffers, askedEvents⟩ := toBbque_keys asked
  obtain ⟨_, buffers, events⟩ := ids_of_bare bare
  constructor
  · intro b member
    have listed := List.mem_map_of_mem (f := Buffer.id) member
    rw [buffers] at listed
    exact faithful.buffers g b.id ((askedBuffers b.id).mpr listed)
  · intro e member
    have listed := List.mem_map_of_mem (f := Event.id) member
    rw [events] at listed
    have known := faithful.events g e.id ((askedEvents e.id).mpr listed)
    exact Option.isSome_iff_exists.mp (Std.TreeMap.mem_iff_isSome_getElem?.mp known)

theorem Addressed.apart {g : BbqueGraph} (faithful : Faithful manager)
    (addressed : Addressed (manager g).cluster (manager g).events.toList tg)
    (answered : ∀ e ∈ tg.events, ∃ addr, (manager g).events[e.id]? = some addr) :
    ∀ e ∈ tg.events, ∀ e' ∈ tg.events, e.phyAddr = e'.phyAddr → e = e' := by
  intro e member e' member' addresses
  obtain ⟨addr, known⟩ := answered e member
  obtain ⟨addr', known'⟩ := answered e' member'
  have here := (addressed.placed e member addr (Std.TreeMap.mem_toList_iff_getElem?_eq_some.mpr known)).1
  have here' := (addressed.placed e' member' addr' (Std.TreeMap.mem_toList_iff_getElem?_eq_some.mpr known')).1
  have one : addr' = addr := by rw [← here', ← addresses, here]
  exact addressed.wired.same e member e' member' (faithful.apart g e.id e'.id addr known (one ▸ known'))

theorem resourceAllocation_registers (faithful : Faithful manager) (wired : tg.Wired)
    (run : resourceAllocation manager outcome tg regs mm = some r) : OwnRegisters r.tg r.regs := by
  obtain ⟨g, asked, run⟩ := Option.bind_eq_some_iff.mp run
  obtain ⟨p, imported, run⟩ := Option.bind_eq_some_iff.mp run
  obtain ⟨k, _, run⟩ := Option.bind_eq_some_iff.mp run
  obtain ⟨unit, _, run⟩ := Option.bind_eq_some_iff.mp run
  obtain ⟨mm', _, run⟩ := Option.bind_eq_some_iff.mp run
  cases run
  have bare := fromBbque_bare imported
  rw [fromBbque] at imported
  split at imported
  · cases imported
  obtain ⟨kernels, assigned, imported⟩ := Option.bind_eq_some_iff.mp imported
  obtain ⟨q, addressed, written⟩ := Option.bind_eq_some_iff.mp imported
  have wiredKernels : { tg with kernels := kernels }.Wired := assignKernels_wired wired assigned
  have placed := assignEvents_addressed (p := ({ tg with kernels := kernels }, regs)) wiredKernels addressed
  have imports : q.1.bare = tg.bare := (assignBuffers_bare written).symm.trans bare
  obtain ⟨answeredBuffers, answeredEvents⟩ := answered_of_bare faithful asked imports
  obtain ⟨alike, written⟩ := assignBuffers_written written
  have apart := placed.apart faithful answeredEvents
  refine ⟨alike.wired placed.wired, ?_, ?_⟩
  · rw [alike.events]
    exact fun e member e' member' _ addresses => apart e member e' member' addresses
  · intro b member
    obtain ⟨b', member', _, event⟩ := alike.symm.exists_buffer member
    have here := written b' member' (answeredBuffers b' member')
    rw [Written, event] at here
    exact here

end Registers

end MangoModel.Host
