import LibMango.Host.Context
import LibMango.Host.MmTrace

namespace MangoModel.Host

section Names

def Event.names (e : Event) : List Nat := e.kernelsIn ++ e.kernelsOut

def Buffer.names (b : Buffer) : List Nat := b.kernelsIn ++ b.kernelsOut

/-- The kernels that an object names; a kernel's events name the kernel. -/
def Answer.names : Answer → List Nat
  | .kernel (some k) => [k.id]
  | .kernel none => []
  | .buffer b => b.names
  | .event e => e.names
  | .nothing => []

namespace TaskGraph

variable {tg : TaskGraph} {id : Nat}

/-- Each kernel that the memory manager looks up for the buffers and the events is in the graph. -/
structure Resolved (tg : TaskGraph) : Prop where
  buffers : ∀ b ∈ tg.buffers, ∀ kId ∈ b.names, kId ≠ 0 → (tg.getKernelById kId).isSome
  events : ∀ e ∈ tg.events, ∀ kId ∈ e.names, kId ≠ 0 → (tg.getKernelById kId).isSome

theorem getKernelById_isSome : (tg.getKernelById id).isSome ↔ id ∈ tg.kernels.map Kernel.id := by
  simp [getKernelById, List.find?_isSome]

end TaskGraph

end Names

section Api

inductive Registration where
  | kernel (kernelId : Nat) (f : KernelFunction) (inBuffers outBuffers : List Nat)
  | memory (bufferId size : Nat) (mode : BufferType) (kernelsIn kernelsOut : List Nat)
  | event (kernelsIn kernelsOut : List Nat)

namespace Registry

variable (s : Registry)

/-- `none` where an assertion fails, as below. -/
def mangoRegisterKernel (kernelId : Nat) (f : KernelFunction) (inBuffers outBuffers : List Nat) :
    Option (Option Kernel × Registry) :=
  if kernelId = 0 ∨ f.loaded = false then none
  else s.registerKernel kernelId f inBuffers outBuffers

def mangoRegisterMemory (bufferId size : Nat) (mode : BufferType) (kernelsIn kernelsOut : List Nat) :
    Option (Buffer × Registry) :=
  if bufferId = 0 ∨ size = 0 then none
  else
    let (b, s) := s.newBuffer bufferId (uint32 size) kernelsIn kernelsOut mode
    some (s.registerBuffer b bufferId)

def mangoRegisterEvent (kernelsIn kernelsOut : List Nat) : Option (Event × Registry) :=
  if kernelsIn ++ kernelsOut = [] then none
  else
    let (e, s) := s.registerNewEvent kernelsIn kernelsOut
    if e.id = 0 then none else some (e, s)

def register : Registration → Option (Answer × Registry)
  | .kernel kernelId f inBuffers outBuffers =>
    (s.mangoRegisterKernel kernelId f inBuffers outBuffers).map fun (k, s) => (.kernel k, s)
  | .memory bufferId size mode kernelsIn kernelsOut =>
    (s.mangoRegisterMemory bufferId size mode kernelsIn kernelsOut).map fun (b, s) => (.buffer b, s)
  | .event kernelsIn kernelsOut =>
    (s.mangoRegisterEvent kernelsIn kernelsOut).map fun (e, s) => (.event e, s)

end Registry

/-- What has been registered in a context, the latest first. -/
abbrev History : Type := List Answer × Registry

def History.register (h : History) (r : Registration) : Option History := do
  let (answer, s) ← h.2.register r
  return (answer :: h.1, s)

/-- The registrations of a process that has made some events before. -/
def History.registerAll (created : Nat) (registrations : List Registration) : Option History :=
  registrations.foldlM History.register ([], .empty created)

/-- `none` where an assertion fails, or a map lacks an id. -/
def mangoTaskGraphCreate (cxt : Context) (kernels buffers events : List Nat) : Option TaskGraph := do
  if kernels = [] ∨ buffers = [] then none
  let ks ← kernels.mapM (cxt.kernels[·]?)
  let bs ← buffers.mapM (cxt.buffers[·]?)
  let es ← events.mapM (cxt.events[·]?)
  return ⟨ks, bs, es ++ IdMap.objects cxt.events⟩

end Api

section Histories

/-- Each event and each buffer of a context names only what one of the answers names, and what an
    answer names is named by an event, unless the ids of events have come round. Until then kernels
    and buffers have their own events. -/
structure History.Recorded (h : History) : Prop where
  ids : ∀ bid b, h.2.getBuffer bid = some b → b.id = bid
  eventIds : ∀ id e, h.2.getEvent id = some e → e.id = id
  buffers : ∀ bid b, h.2.getBuffer bid = some b → ∃ answer ∈ h.1, ∀ kId ∈ b.names, kId ∈ answer.names
  events : ∀ id e, h.2.getEvent id = some e → ∃ answer ∈ h.1, ∀ kId ∈ e.names, kId ∈ answer.names
  fresh : h.2.created ≤ 2^32 → ∀ id e, h.2.getEvent id = some e → id < h.2.created
  present : h.2.created ≤ 2^32 → ∀ answer ∈ h.1, ∀ kId ∈ answer.names,
    ∃ id e, h.2.getEvent id = some e ∧ kId ∈ e.names
  kernels : h.2.created ≤ 2^32 → ∀ kid k, h.2.getKernel kid = some k →
    h.2.getEvent k.terminationEvent.id = some k.terminationEvent ∧ k.id ∈ k.terminationEvent.names
  bufferEvents : h.2.created ≤ 2^32 → ∀ bid b, h.2.getBuffer bid = some b →
    h.2.getEvent b.event.id = some b.event

namespace Registry

variable {s t : Registry} {e : Event} {id : Nat}

theorem getEvent_addEvents_old {events : List Event} (found : s.getEvent id = some e) :
    (s.addEvents events).getEvent id = some e := by
  induction events generalizing s with
  | nil => exact found
  | cons first events step => exact step (IdMap.emplace_old found)

theorem getEvent_addEvents_first {events : List Event} (free : s.getEvent e.id = none) :
    (s.addEvents (e :: events)).getEvent e.id = some e :=
  getEvent_addEvents_old (s := s.addEvent e) (IdMap.emplace_new free)

@[simp] theorem created_addEvents (events : List Event) :
    (s.addEvents events).created = s.created := by
  induction events generalizing s with
  | nil => rfl
  | cons e events step => exact step

end Registry

open Registry

variable {answers : List Answer} {answer : Answer} {s t : Registry} {e : Event} {events : List Event}

theorem History.recorded_empty (created : Nat) : History.Recorded ([], .empty created) where
  ids _ _ found := by simp [empty, getBuffer] at found
  eventIds _ _ found := by simp [empty, getEvent] at found
  buffers _ _ found := by simp [empty, getBuffer] at found
  events _ _ found := by simp [empty, getEvent] at found
  fresh _ _ _ found := by simp [empty, getEvent] at found
  present _ _ member := by cases member
  kernels _ _ _ found := by simp [empty, getKernel] at found
  bufferEvents _ _ _ found := by simp [empty, getBuffer] at found

/-- An object is added with events of its own, the first of which has the next id; `t` is what is
    in the context when the events are added. -/
structure Addition (s : Registry) (answer : Answer) (t : Registry) (e : Event) (events : List Event) :
    Prop where
  kept : t.cxt.events = s.cxt.events
  made : s.created < t.created
  first : e.id = uint32 s.created
  all : ∀ kId ∈ answer.names, kId ∈ e.names
  own : ∀ e' ∈ e :: events, ∀ kId ∈ e'.names, kId ∈ answer.names
  ids : ∀ e' ∈ e :: events, e'.id < t.created
  keptBuffer : ∀ bid b, s.getBuffer bid = some b → t.getBuffer bid = some b
  keptKernel : ∀ kid k, s.getKernel kid = some k → t.getKernel kid = some k
  buffers : ∀ bid b, t.getBuffer bid = some b →
    s.getBuffer bid = some b ∨ b.id = bid ∧ ∀ kId ∈ b.names, kId ∈ answer.names
  kernels : ∀ kid k, t.getKernel kid = some k →
    s.getKernel kid = some k ∨ k.terminationEvent = e ∧ k.id ∈ e.names
  bufferEvent : ∀ bid b, t.getBuffer bid = some b → s.getBuffer bid = some b ∨ b.event = e

theorem History.Recorded.free (recorded : History.Recorded (answers, s))
    (addition : Addition s answer t e events) (few : t.created ≤ 2^32) : t.getEvent e.id = none := by
  have next : e.id = s.created := by
    rw [addition.first, uint32]
    exact Nat.mod_eq_of_lt (Nat.lt_of_lt_of_le addition.made few)
  rw [getEvent, addition.kept]
  rcases found : s.cxt.events[e.id]? with _ | old
  · rfl
  · have before : e.id < s.created :=
      recorded.fresh (Nat.le_trans addition.made.le few) e.id old found
    omega

theorem Addition.keptEvent (addition : Addition s answer t e events) {id : Nat} {old : Event}
    (found : s.getEvent id = some old) : (t.addEvents (e :: events)).getEvent id = some old := by
  apply getEvent_addEvents_old
  rw [getEvent, addition.kept]
  exact found

theorem History.Recorded.add (recorded : History.Recorded (answers, s))
    (addition : Addition s answer t e events) :
    History.Recorded (answer :: answers, t.addEvents (e :: events)) where
  ids bid b found := by
    rw [getBuffer_addEvents] at found
    rcases addition.buffers bid b found with before | ⟨own, _⟩
    · exact recorded.ids bid b before
    · exact own
  eventIds id e' found := by
    rcases getEvent_addEvents _ found with before | ⟨_, same⟩
    · rw [getEvent, addition.kept] at before
      exact recorded.eventIds id e' before
    · exact same
  buffers bid b found := by
    rw [getBuffer_addEvents] at found
    rcases addition.buffers bid b found with before | ⟨_, new⟩
    · obtain ⟨old, member, named⟩ := recorded.buffers bid b before
      exact ⟨old, List.mem_cons_of_mem _ member, named⟩
    · exact ⟨answer, List.mem_cons_self, new⟩
  events id e' found := by
    rcases getEvent_addEvents _ found with before | ⟨new, _⟩
    · rw [getEvent, addition.kept] at before
      obtain ⟨old, member, named⟩ := recorded.events id e' before
      exact ⟨old, List.mem_cons_of_mem _ member, named⟩
    · exact ⟨answer, List.mem_cons_self, addition.own e' new⟩
  fresh few id e' found := by
    rw [created_addEvents] at few ⊢
    rcases getEvent_addEvents _ found with before | ⟨new, rfl⟩
    · rw [getEvent, addition.kept] at before
      have below : id < s.created :=
        recorded.fresh (Nat.le_trans addition.made.le few) id e' before
      exact Nat.lt_trans below addition.made
    · exact addition.ids e' new
  present few other member kId named := by
    rw [created_addEvents] at few
    rcases List.mem_cons.mp member with rfl | member
    · have free := recorded.free addition few
      exact ⟨e.id, e, getEvent_addEvents_first free, addition.all kId named⟩
    · obtain ⟨id, e', found, named⟩ :=
        recorded.present (Nat.le_trans addition.made.le few) other member kId named
      exact ⟨id, e', addition.keptEvent found, named⟩
  kernels few kid k found := by
    rw [created_addEvents] at few
    rw [getKernel_addEvents] at found
    rcases addition.kernels kid k found with before | ⟨rfl, named⟩
    · obtain ⟨event, named⟩ := recorded.kernels (Nat.le_trans addition.made.le few) kid k before
      exact ⟨addition.keptEvent event, named⟩
    · exact ⟨getEvent_addEvents_first (recorded.free addition few), named⟩
  bufferEvents few bid b found := by
    rw [created_addEvents] at few
    rw [getBuffer_addEvents] at found
    rcases addition.bufferEvent bid b found with before | rfl
    · exact addition.keptEvent (recorded.bufferEvents (Nat.le_trans addition.made.le few) bid b before)
    · exact getEvent_addEvents_first (recorded.free addition few)

theorem History.Recorded.idle (recorded : History.Recorded (answers, s)) (void : answer.names = []) :
    History.Recorded (answer :: answers, s) where
  ids := recorded.ids
  eventIds := recorded.eventIds
  buffers bid b found := by
    obtain ⟨old, member, named⟩ := recorded.buffers bid b found
    exact ⟨old, List.mem_cons_of_mem _ member, named⟩
  events id e found := by
    obtain ⟨old, member, named⟩ := recorded.events id e found
    exact ⟨old, List.mem_cons_of_mem _ member, named⟩
  fresh := recorded.fresh
  present few other member kId named := by
    rcases List.mem_cons.mp member with rfl | member
    · rw [void] at named
      cases named
    · exact recorded.present few other member kId named
  kernels := recorded.kernels
  bufferEvents := recorded.bufferEvents

theorem uint32_lt {n m : Nat} (below : n < m) : uint32 n < m :=
  Nat.lt_of_le_of_lt (Nat.mod_le n _) below

theorem newKernel_addition (s : Registry) (kid : Nat) (f : KernelFunction)
    (inBuffers outBuffers : List Nat) :
    let (k, t) := s.newKernel kid f inBuffers outBuffers
    Addition s (.kernel (some k)) (t.addKernel kid k) k.terminationEvent k.taskEvents where
  kept := rfl
  made := by change s.created < s.created + 4; omega
  first := rfl
  all kId named := List.mem_append_left _ named
  own e' member kId named := by
    have same : e'.names = [kid, kid] := by
      simp only [List.mem_cons, List.not_mem_nil, or_false] at member
      rcases member with rfl | rfl | rfl | rfl <;> rfl
    simpa [same, Answer.names, newKernel] using named
  ids e' member := by
    change e'.id < s.created + 4
    simp only [List.mem_cons, List.not_mem_nil, or_false] at member
    rcases member with rfl | rfl | rfl | rfl <;> exact uint32_lt (by omega)
  keptBuffer _ _ found := found
  keptKernel _ _ found := IdMap.emplace_old found
  buffers _ _ found := .inl found
  kernels id k found := by
    rcases IdMap.emplace_some found with before | ⟨_, rfl⟩
    · exact .inl before
    · exact .inr ⟨rfl, List.mem_cons_self⟩
  bufferEvent _ _ found := .inl found

theorem newBuffer_addition (s : Registry) (bid size : Nat) (kernelsIn kernelsOut : List Nat)
    (type : BufferType) :
    let (b, t) := s.newBuffer bid size kernelsIn kernelsOut type
    Addition s (.buffer b) (t.addBuffer bid b) b.event [] where
  kept := rfl
  made := Nat.lt_succ_self _
  first := rfl
  all _ named := named
  own e' member kId named := by
    obtain rfl := List.mem_singleton.mp member
    exact named
  ids e' member := by
    obtain rfl := List.mem_singleton.mp member
    exact uint32_lt (Nat.lt_succ_self _)
  keptBuffer _ _ found := IdMap.emplace_old found
  keptKernel _ _ found := found
  buffers id b found := by
    rcases IdMap.emplace_some found with before | ⟨rfl, rfl⟩
    · exact .inl before
    · exact .inr ⟨rfl, fun _ named => named⟩
  kernels _ _ found := .inl found
  bufferEvent id b found := by
    rcases IdMap.emplace_some found with before | ⟨_, rfl⟩
    · exact .inl before
    · exact .inr rfl

theorem newEvent_addition (s : Registry) (kernelsIn kernelsOut : List Nat) :
    let (e, t) := s.newEvent kernelsIn kernelsOut
    Addition s (.event e) { t with user := e :: t.user } e [] where
  kept := rfl
  made := Nat.lt_succ_self _
  first := rfl
  all _ named := named
  own e' member kId named := by
    obtain rfl := List.mem_singleton.mp member
    exact named
  ids e' member := by
    obtain rfl := List.mem_singleton.mp member
    exact uint32_lt (Nat.lt_succ_self _)
  keptBuffer _ _ found := found
  keptKernel _ _ found := found
  buffers _ _ found := .inl found
  kernels _ _ found := .inl found
  bufferEvent _ _ found := .inl found

theorem register_cases {r : Registration} {s' : Registry} (run : s.register r = some (answer, s')) :
    answer.names = [] ∧ s' = s ∨
      ∃ t e events, Addition s answer t e events ∧ s' = t.addEvents (e :: events) := by
  cases r with
  | kernel kernelId f inBuffers outBuffers =>
    obtain ⟨⟨made, after⟩, called, same⟩ := Option.map_eq_some_iff.mp run
    cases same
    rw [mangoRegisterKernel] at called
    split at called
    · cases called
    · obtain ⟨length, _, called⟩ := Option.bind_eq_some_iff.mp called
      split at called
      · cases called
        exact .inl ⟨rfl, rfl⟩
      · cases called
        exact .inr ⟨_, _, _, newKernel_addition s kernelId f inBuffers outBuffers, rfl⟩
  | memory bufferId size mode kernelsIn kernelsOut =>
    obtain ⟨⟨made, after⟩, called, same⟩ := Option.map_eq_some_iff.mp run
    cases same
    rw [mangoRegisterMemory] at called
    split at called
    · cases called
    · cases called
      exact .inr ⟨_, _, _, newBuffer_addition s bufferId (uint32 size) kernelsIn kernelsOut mode, rfl⟩
  | event kernelsIn kernelsOut =>
    obtain ⟨⟨made, after⟩, called, same⟩ := Option.map_eq_some_iff.mp run
    cases same
    rw [mangoRegisterEvent] at called
    split at called
    · cases called
    · change (if uint32 s.created = 0 then none else some (s.registerNewEvent kernelsIn kernelsOut)) =
        some _ at called
      split at called
      · cases called
      · cases called
        exact .inr ⟨_, _, _, newEvent_addition s kernelsIn kernelsOut, rfl⟩

theorem Registry.register_kept {r : Registration} (run : s.register r = some (answer, t)) :
    (∀ kid k, s.getKernel kid = some k → t.getKernel kid = some k) ∧
    (∀ bid b, s.getBuffer bid = some b → t.getBuffer bid = some b) ∧
      ∀ id e, s.getEvent id = some e → t.getEvent id = some e := by
  rcases register_cases run with ⟨_, rfl⟩ | ⟨t', e, events, addition, rfl⟩
  · exact ⟨fun _ _ found => found, fun _ _ found => found, fun _ _ found => found⟩
  · refine ⟨?_, ?_, fun id old found => addition.keptEvent found⟩
    · intro kid k found
      exact (getKernel_addEvents _).trans (addition.keptKernel kid k found)
    · intro bid b found
      exact (getBuffer_addEvents _).trans (addition.keptBuffer bid b found)

namespace History

variable {h h' : History} {r : Registration}

theorem Recorded.register (recorded : h.Recorded) (run : h.register r = some h') : h'.Recorded := by
  obtain ⟨⟨answer, s'⟩, called, same⟩ := Option.bind_eq_some_iff.mp run
  cases same
  rcases register_cases called with ⟨void, rfl⟩ | ⟨t, e, events, addition, rfl⟩
  · exact recorded.idle void
  · exact recorded.add addition

theorem register_kept (run : h.register r = some h') :
    (∀ bid b, h.2.getBuffer bid = some b → h'.2.getBuffer bid = some b) ∧
      ∀ kid k, h.2.getKernel kid = some k → h'.2.getKernel kid = some k := by
  obtain ⟨⟨answer, s'⟩, called, same⟩ := Option.bind_eq_some_iff.mp run
  cases same
  obtain ⟨kernels, buffers, _⟩ := Registry.register_kept called
  exact ⟨buffers, kernels⟩

theorem registerAll_recorded {created : Nat} {registrations : List Registration}
    (run : registerAll created registrations = some h) : h.Recorded :=
  Fallible.foldlM_invariant (motive := fun _ h => h.Recorded)
    (fun _ _ _ _ _ recorded one => recorded.register one) (recorded_empty created) run

end History

end Histories

section Graphs

/-- All the context's events are in a graph, and what kernels and buffers it has are the
    context's. -/
structure Built (s : Registry) (tg : TaskGraph) : Prop where
  kernels : ∀ k ∈ tg.kernels, ∃ kid, s.getKernel kid = some k
  buffers : ∀ b ∈ tg.buffers, ∃ bid, s.getBuffer bid = some b
  events : ∀ e, e ∈ tg.events ↔ ∃ id, s.getEvent id = some e

/-- Each kernel that has been registered, and each one that a registered buffer or event names, the
    host apart, is in the graph. -/
def Named (answers : List Answer) (tg : TaskGraph) : Prop :=
  ∀ answer ∈ answers, ∀ kId ∈ answer.names, kId ≠ 0 → kId ∈ tg.kernels.map Kernel.id

variable {answers : List Answer} {s : Registry} {tg : TaskGraph}

theorem Built.resolved (built : Built s tg) (recorded : History.Recorded (answers, s))
    (named : Named answers tg) : tg.Resolved where
  buffers b member kId listed guest := by
    obtain ⟨bid, found⟩ := built.buffers b member
    obtain ⟨answer, answered, names⟩ := recorded.buffers bid b found
    exact TaskGraph.getKernelById_isSome.mpr (named answer answered kId (names kId listed) guest)
  events e member kId listed guest := by
    obtain ⟨id, found⟩ := (built.events e).mp member
    obtain ⟨answer, answered, names⟩ := recorded.events id e found
    exact TaskGraph.getKernelById_isSome.mpr (named answer answered kId (names kId listed) guest)

theorem Built.named (built : Built s tg) (recorded : History.Recorded (answers, s))
    (few : s.created ≤ 2^32) (resolved : tg.Resolved) : Named answers tg := by
  intro answer member kId listed guest
  obtain ⟨id, e, found, names⟩ := recorded.present few answer member kId listed
  have inside := (built.events e).mpr ⟨id, found⟩
  exact TaskGraph.getKernelById_isSome.mp (resolved.events e inside kId names guest)

theorem mangoTaskGraphCreate_built {kernels buffers events : List Nat}
    (run : mangoTaskGraphCreate s.cxt kernels buffers events = some tg) : Built s tg := by
  rw [mangoTaskGraphCreate] at run
  split at run
  · cases run
  obtain ⟨ks, given, run⟩ := Option.bind_eq_some_iff.mp run
  obtain ⟨bs, chosen, run⟩ := Option.bind_eq_some_iff.mp run
  obtain ⟨es, others, run⟩ := Option.bind_eq_some_iff.mp run
  cases run
  constructor
  · exact Fallible.forall₂_right (Fallible.mapM_forall₂ given) fun kid k found => ⟨kid, found⟩
  · exact Fallible.forall₂_right (Fallible.mapM_forall₂ chosen) fun bid b found => ⟨bid, found⟩
  · have registered := Fallible.forall₂_right (motive := fun e => ∃ id, s.getEvent id = some e)
      (Fallible.mapM_forall₂ others) fun id e found => ⟨id, found⟩
    intro e
    constructor
    · intro member
      rcases List.mem_append.mp member with given | all
      · exact registered e given
      · exact IdMap.mem_objects.mp all
    · intro found
      exact List.mem_append_right _ (IdMap.mem_objects.mpr found)

end Graphs

end MangoModel.Host
