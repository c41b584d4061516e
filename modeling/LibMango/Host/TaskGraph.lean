import LibMango.Host.Construction

namespace MangoModel.Host

namespace TaskGraph

/-- The constructor that takes lists; the default one is that of empty lists. -/
def ofLists (lkernels : List Kernel) (lbuffers : List Buffer) (levents : List Event) : TaskGraph where
  kernels := lkernels
  buffers := lbuffers
  events := levents ++ lkernels.flatMap Kernel.events ++ lbuffers.map Buffer.event

/-- What is added to a graph. -/
inductive Part where
  | kernel (k : Kernel)
  | buffer (b : Buffer)
  | event (e : Event)

/-- `operator+=` -/
def add (tg : TaskGraph) : Part → TaskGraph
  | .kernel k => { tg with kernels := tg.kernels ++ [k] }
  | .buffer b => { tg with buffers := tg.buffers ++ [b] }
  | .event e => { tg with events := tg.events ++ [e] }

def addAll (tg : TaskGraph) (parts : List Part) : TaskGraph := parts.foldl add tg

/-- The list of events includes those that the kernels and the buffers have generated. -/
structure Complete (tg : TaskGraph) : Prop where
  kernels : ∀ k ∈ tg.kernels, ∀ e ∈ k.events, e ∈ tg.events
  buffers : ∀ b ∈ tg.buffers, b.event ∈ tg.events

/-- The events that an object has generated. -/
def Part.generated : Part → List Event
  | .kernel k => k.events
  | .buffer b => [b.event]
  | .event _ => []

variable {tg : TaskGraph} {parts : List Part} {k : Kernel} {b : Buffer} {e : Event}

theorem mem_kernels_addAll : k ∈ (tg.addAll parts).kernels ↔ k ∈ tg.kernels ∨ .kernel k ∈ parts := by
  induction parts generalizing tg with
  | nil => simp [addAll]
  | cons part parts ih =>
    rw [addAll, List.foldl_cons, ← addAll, ih]
    cases part <;> simp [add, or_assoc]

theorem mem_buffers_addAll : b ∈ (tg.addAll parts).buffers ↔ b ∈ tg.buffers ∨ .buffer b ∈ parts := by
  induction parts generalizing tg with
  | nil => simp [addAll]
  | cons part parts ih =>
    rw [addAll, List.foldl_cons, ← addAll, ih]
    cases part <;> simp [add, or_assoc]

theorem mem_events_addAll : e ∈ (tg.addAll parts).events ↔ e ∈ tg.events ∨ .event e ∈ parts := by
  induction parts generalizing tg with
  | nil => simp [addAll]
  | cons part parts ih =>
    rw [addAll, List.foldl_cons, ← addAll, ih]
    cases part <;> simp [add, or_assoc]

theorem ofLists_complete (kernels : List Kernel) (buffers : List Buffer) (events : List Event) :
    (ofLists kernels buffers events).Complete where
  kernels k member e own := by
    apply List.mem_append_left
    exact List.mem_append_right _ (List.mem_flatMap.mpr ⟨k, member, own⟩)
  buffers b member := List.mem_append_right _ (List.mem_map_of_mem member)

/-- A graph stays complete exactly when the events of what is added are there or are added as well. -/
theorem Complete.addAll_iff (complete : tg.Complete) : (tg.addAll parts).Complete ↔
    ∀ part ∈ parts, ∀ e ∈ part.generated, e ∈ tg.events ∨ .event e ∈ parts := by
  constructor
  · intro after part member e own
    apply mem_events_addAll.mp
    cases part with
    | kernel k => exact after.kernels k (mem_kernels_addAll.mpr (.inr member)) e own
    | buffer b =>
      obtain rfl := List.mem_singleton.mp own
      exact after.buffers b (mem_buffers_addAll.mpr (.inr member))
    | event e => cases own
  · intro own
    constructor
    · intro k member e generated
      apply mem_events_addAll.mpr
      rcases mem_kernels_addAll.mp member with before | added
      · exact .inl (complete.kernels k before e generated)
      · exact own (.kernel k) added e generated
    · intro b member
      apply mem_events_addAll.mpr
      rcases mem_buffers_addAll.mp member with before | added
      · exact .inl (complete.buffers b before)
      · exact own (.buffer b) added b.event (List.mem_singleton_self _)

/-- A graph that has been constructed from lists and extended is complete exactly when the events of
    each kernel and each buffer that was added to it were added or given as well. -/
theorem constructed_complete_iff (kernels : List Kernel) (buffers : List Buffer) (events : List Event)
    (parts : List Part) : ((ofLists kernels buffers events).addAll parts).Complete ↔
      ∀ part ∈ parts, ∀ e ∈ part.generated,
        e ∈ (ofLists kernels buffers events).events ∨ .event e ∈ parts :=
  (ofLists_complete kernels buffers events).addAll_iff

theorem added_buffer_incomplete :
    ¬ ((ofLists [] [] []).addAll [.buffer ⟨1, 64, .BUFFER, [0], [1], ⟨0, 0, [0], [1], 0⟩, 0, 0, 0⟩]).Complete := by
  intro complete
  have listed := complete.buffers _ List.mem_cons_self
  exact absurd listed (by decide)

end TaskGraph

end MangoModel.Host
