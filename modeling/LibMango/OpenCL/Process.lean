import LibMango.Host.Write
import LibMango.OpenCL.KernelArgs
import LibMango.OpenCL.Resolution

namespace MangoModel.OpenCL

open Host Interleave Device

section Model

/-- `Buffer::read`, and the one of `FIFOBuffer` up to the end of its thread. -/
def bufferRead (b : Buffer) (globalSize : Nat) : Text Unit Unit :=
  match b.type with
  | .BUFFER =>
    let globalSize := if globalSize = 0 then b.size else globalSize
    hnReadMemory b.phyAddr globalSize 0
  | .FIFO => do
    let _ ← synchRead b.fifo globalSize

def mangoRead (cxt : Context) (buffer : Nat) (mode : CommunicationMode) (globalSize : Nat) :
    Option (Buffer × Text Unit Unit) := do
  if mode = .BURST ∧ globalSize = 0 then none
  let b ← cxt.buffers[buffer]?
  if b.event.id = 0 then none
  return (b, bufferRead b (uint32 globalSize))

inductive StartError where
  | kernel
  | event
  | args
  deriving DecidableEq, Repr

/-- Up to the call of `BBQContext::start_kernel`; an error is an exception of the first two lookups,
    or the assertion on the arguments. -/
def mangoStartKernel (cxt : Context) (kernel : Nat) (args : Option (List Arg)) (event : Nat) :
    Except StartError (Kernel × Event × List Arg) :=
  match cxt.kernels[kernel]? with
  | none => .error .kernel
  | some k =>
    match cxt.events[event]?, args with
    | none, _ => .error .event
    | some _, none => .error .args
    | some e, some args => .ok (k, e, args)

/-- A task graph has the context's own objects, so that they are what an allocation leaves of them. -/
def store (cxt : Context) (tg : TaskGraph) : Context where
  kernels := cxt.kernels.map fun kid k => (tg.kernels.find? fun k => k.id = kid).getD k
  buffers := cxt.buffers.map fun bid b => (tg.buffers.find? fun b => b.id = bid).getD b
  events := cxt.events.map fun id e => (tg.events.find? fun e => e.id = id).getD e

/-- What `cxt` points to; it is not set back when the context is deleted. -/
inductive Pointer where
  | null
  | valid
  | dangling
  deriving DecidableEq, Repr

/-- The context, which is empty when there is none; the events that the process has made, and the
    ids of events that it has been given. -/
structure Process where
  cxt : Pointer
  registry : Registry
  made : List Event
  handed : List Nat

inductive Operation where
  | init (applicationName recipe : String)
  | release
  | register (r : Registration)
  | deregisterMemory (mem : Nat)
  | getBufferEvent (buffer : Nat)
  | write (data : Nat → Nat) (buffer : Nat) (mode : CommunicationMode) (globalSize : Nat)
  | read (buffer : Nat) (mode : CommunicationMode) (globalSize : Nat)
  | allocate (kernels buffers events : List Nat) (manager : BbqueGraph → BbqueGraph)
      (outcome : Nat → Bool) (regs : Registers) (mm : Mm)

def madeBy : Answer → List Event
  | .kernel (some k) => k.events
  | .kernel none => []
  | .buffer b => [b.event]
  | .event e => [e]
  | .nothing => []

/-- `mango_register_event` is the only registration that returns the id of an event. -/
def handedBy : Answer → List Nat
  | .event e => [e.id]
  | _ => []

namespace Process

variable (w : Process)

def start : Process := ⟨.null, .empty 0, [], []⟩

/-- `none` where the pointer is used and there is no context. -/
def context : Option Registry := if w.cxt = .valid then some w.registry else none

def init (applicationName recipe : String) : Option Process :=
  if applicationName = "" ∨ recipe = "" then none
  else some { w with cxt := .valid, registry := .empty w.registry.created }

def release : Option Process :=
  match w.cxt with
  | .null => some w
  | .valid => some { w with cxt := .dangling, registry := .empty w.registry.created }
  | .dangling => none

def register (r : Registration) : Option Process := do
  let s ← w.context
  let (answer, s) ← s.register r
  return { w with registry := s, made := w.made ++ madeBy answer, handed := w.handed ++ handedBy answer }

def deregisterMemory (mem : Nat) : Option Process := do
  let s ← w.context
  let s ← s.deregisterBuffer mem
  return { w with registry := s }

def hand (id : Nat) : Process := { w with handed := w.handed ++ [id] }

def getBufferEvent (buffer : Nat) : Option Process := do
  let s ← w.context
  let id ← mangoGetBufferEvent s.cxt buffer
  return w.hand id

def write (data : Nat → Nat) (buffer : Nat) (mode : CommunicationMode) (globalSize : Nat) :
    Option Process := do
  let s ← w.context
  let (b, _) ← mangoWrite s.cxt data buffer mode globalSize
  return w.hand b.event.id

def read (buffer : Nat) (mode : CommunicationMode) (globalSize : Nat) : Option Process := do
  let s ← w.context
  let (b, _) ← mangoRead s.cxt buffer mode globalSize
  return w.hand b.event.id

def allocate (kernels buffers events : List Nat) (manager : BbqueGraph → BbqueGraph)
    (outcome : Nat → Bool) (regs : Registers) (mm : Mm) : Option Process := do
  let s ← w.context
  let tg ← mangoTaskGraphCreate s.cxt kernels buffers events
  let r ← resourceAllocation manager outcome tg regs mm
  return { w with registry := { s with cxt := store s.cxt r.tg } }

/-- `none` where an operation throws, ends the process or uses a deleted context. -/
def step : Operation → Option Process
  | .init applicationName recipe => w.init applicationName recipe
  | .release => w.release
  | .register r => w.register r
  | .deregisterMemory mem => w.deregisterMemory mem
  | .getBufferEvent buffer => w.getBufferEvent buffer
  | .write data buffer mode globalSize => w.write data buffer mode globalSize
  | .read buffer mode globalSize => w.read buffer mode globalSize
  | .allocate kernels buffers events manager outcome regs mm =>
    w.allocate kernels buffers events manager outcome regs mm

def allocated (kernel : Nat) : Prop := ∃ k, w.registry.getKernel kernel = some k ∧ k.unit.isSome

/-- An id that has been given is positive, and is the id of one event until they come round; a kernel
    that is registered and allocated can be started without an event. -/
structure StartsWithoutEvent : Prop where
  positive : ∀ id ∈ w.handed, 0 < id
  alone : w.made.length ≤ 2^32 → ∀ id ∈ w.handed, (w.made.map Event.id).count id = 1
  starts : ∀ kernel args, w.allocated kernel →
    mangoStartKernel w.registry.cxt kernel args 0 ≠ .error .event

end Process

end Model

section Zero

/-- How many events a registration makes. -/
def makes : Registration → Nat
  | .kernel _ f _ _ => if f.length = some 0 then 0 else 4
  | .memory _ _ _ _ _ => 1
  | .event _ _ => 1

/-- Whether the context has an event with id 0 after an operation, if it had one before or not. -/
def Process.zeroAfter (w : Process) (zero : Prop) : Operation → Prop
  | .init _ _ | .release => False
  | .register r => zero ∨ ∃ i < makes r, (w.registry.created + i) % 2^32 = 0
  | .deregisterMemory mem => zero ∧ ∀ b, w.registry.getBuffer mem = some b → b.event.id ≠ 0
  | _ => zero

/-- Since the context was made, the event with id 0, which is the first of the process, has been made
    in it, and its buffer has not been deregistered. -/
def ZeroKept : List Operation → Process → Prop → Prop
  | [], _, zero => zero
  | op :: rest, w, zero => ∀ w', w.step op = some w' → ZeroKept rest w' (w.zeroAfter zero op)

variable {s s' : Registry} {r : Registration} {answer : Answer} {w w' : Process} {op : Operation}

/-- What a registration adds to the events and the buffers of a context. -/
structure Enlarged (s : Registry) (r : Registration) (answer : Answer) (s' : Registry) : Prop where
  ids : (madeBy answer).map Event.id = (List.range (makes r)).map fun i => uint32 (s.created + i)
  created : s'.created = s.created + makes r
  events : ∀ id, id ∈ s'.cxt.events ↔ id ∈ s.cxt.events ∨ id ∈ (madeBy answer).map Event.id
  buffers : ∀ bid b, s'.getBuffer bid = some b → s.getBuffer bid = some b ∨ b.event ∈ madeBy answer

theorem registerKernel_enlarged {kernelId : Nat} {f : KernelFunction} {inBuffers outBuffers : List Nat}
    (run : s.register (.kernel kernelId f inBuffers outBuffers) = some (answer, s')) :
    Enlarged s (.kernel kernelId f inBuffers outBuffers) answer s' := by
  obtain ⟨⟨made, after⟩, called, same⟩ := Option.map_eq_some_iff.mp run
  cases same
  rw [Registry.mangoRegisterKernel] at called
  split at called
  · cases called
  · obtain ⟨length, known, called⟩ := Option.bind_eq_some_iff.mp called
    split at called
    · next void =>
      cases called
      have none_made : makes (.kernel kernelId f inBuffers outBuffers) = 0 := by
        rw [makes, if_pos (by rw [known, void])]
      constructor
      · rw [none_made]
        rfl
      · rw [none_made, Nat.add_zero]
      · simp [madeBy]
      · exact fun bid b found => .inl found
    · next filled =>
      cases called
      have four_made : makes (.kernel kernelId f inBuffers outBuffers) = 4 := by
        rw [makes, if_neg (by rw [known, Option.some.injEq]; exact filled)]
      constructor
      · rw [four_made]
        rfl
      · rw [four_made, Registry.created_addEvents]
        rfl
      · intro id
        let k := (s.newKernel kernelId f inBuffers outBuffers).1
        let t := (s.newKernel kernelId f inBuffers outBuffers).2.addKernel kernelId k
        exact Registry.mem_addEvents (s := t) k.events
      · intro bid b found
        rw [Registry.getBuffer_addEvents] at found
        exact .inl found

theorem registerMemory_enlarged {bufferId size : Nat} {mode : BufferType} {kernelsIn kernelsOut : List Nat}
    (run : s.register (.memory bufferId size mode kernelsIn kernelsOut) = some (answer, s')) :
    Enlarged s (.memory bufferId size mode kernelsIn kernelsOut) answer s' := by
  obtain ⟨⟨made, after⟩, called, same⟩ := Option.map_eq_some_iff.mp run
  cases same
  rw [Registry.mangoRegisterMemory] at called
  split at called
  · cases called
  · cases called
    constructor
    · rfl
    · rfl
    · intro id
      change id ∈ IdMap.emplace _ _ _ ↔ _
      rw [IdMap.mem_emplace, madeBy, List.map_singleton, List.mem_singleton]
      rfl
    · intro bid b found
      rcases IdMap.emplace_some found with before | ⟨_, rfl⟩
      · exact .inl before
      · exact .inr List.mem_cons_self

theorem registerEvent_enlarged {kernelsIn kernelsOut : List Nat}
    (run : s.register (.event kernelsIn kernelsOut) = some (answer, s')) :
    Enlarged s (.event kernelsIn kernelsOut) answer s' := by
  obtain ⟨⟨made, after⟩, called, same⟩ := Option.map_eq_some_iff.mp run
  cases same
  rw [Registry.mangoRegisterEvent] at called
  split at called
  · cases called
  · change (if uint32 s.created = 0 then none else some (s.registerNewEvent kernelsIn kernelsOut)) =
      some _ at called
    split at called
    · cases called
    · cases called
      constructor
      · rfl
      · rfl
      · intro id
        change id ∈ IdMap.emplace _ _ _ ↔ _
        rw [IdMap.mem_emplace, madeBy, List.map_singleton, List.mem_singleton]
      · exact fun bid b found => .inl found

theorem register_enlarged (run : s.register r = some (answer, s')) : Enlarged s r answer s' := by
  cases r with
  | kernel => exact registerKernel_enlarged run
  | memory => exact registerMemory_enlarged run
  | event => exact registerEvent_enlarged run

theorem mem_store {cxt : Context} {tg : TaskGraph} {id : Nat} :
    id ∈ (store cxt tg).events ↔ id ∈ cxt.events :=
  Std.TreeMap.mem_map

theorem context_some (valid : w.context = some s) : w.cxt = .valid ∧ s = w.registry := by
  rw [Process.context] at valid
  split at valid
  · next present => exact ⟨present, (Option.some.inj valid).symm⟩
  · cases valid

theorem deregisterBuffer_zero {mem : Nat} (run : s.deregisterBuffer mem = some s') :
    0 ∈ s'.cxt.events ↔ 0 ∈ s.cxt.events ∧ ∀ b, s.getBuffer mem = some b → b.event.id ≠ 0 := by
  obtain ⟨b, found, done⟩ := Option.bind_eq_some_iff.mp run
  cases done
  change 0 ∈ s.cxt.events.erase b.event.id ↔ _
  have found : s.getBuffer mem = some b := found
  rw [Std.TreeMap.mem_erase, ne_eq, Std.LawfulEqCmp.compare_eq_iff_eq, and_comm]
  simp only [found, Option.some.injEq, forall_eq', ne_eq]

theorem register_zero (run : s.register r = some (answer, s')) :
    0 ∈ s'.cxt.events ↔ 0 ∈ s.cxt.events ∨ ∃ i < makes r, (s.created + i) % 2^32 = 0 := by
  have enlarged := register_enlarged run
  rw [enlarged.events, enlarged.ids]
  simp only [List.mem_map, List.mem_range, uint32]

/-- Every event that has been made has had the next id, and the buffers of the context and the ids
    that have been given come from these events. -/
structure Process.Logged (w : Process) : Prop where
  absent : w.cxt ≠ .valid → w.registry = .empty w.registry.created
  ids : w.made.map Event.id = (List.range w.registry.created).map uint32
  buffers : ∀ bid b, w.registry.getBuffer bid = some b → b.event.id ∈ w.made.map Event.id
  handed : ∀ id ∈ w.handed, 0 < id ∧ id ∈ w.made.map Event.id

theorem start_logged : Process.start.Logged where
  absent _ := rfl
  ids := rfl
  buffers bid b found := by simp [Process.start, Registry.empty, Registry.getBuffer] at found
  handed id member := by cases member

theorem Process.Logged.empty (logged : w.Logged) (pointer : Pointer) :
    ({ w with cxt := pointer, registry := .empty w.registry.created } : Process).Logged where
  absent _ := rfl
  ids := logged.ids
  buffers bid b found := by simp [Registry.empty, Registry.getBuffer] at found
  handed := logged.handed

theorem Process.Logged.hand {buffer : Nat} {b : Buffer} (logged : w.Logged)
    (found : w.registry.getBuffer buffer = some b) (positive : b.event.id ≠ 0) :
    (w.hand b.event.id).Logged where
  absent := logged.absent
  ids := logged.ids
  buffers := logged.buffers
  handed id member := by
    rcases List.mem_append.mp member with before | now
    · exact logged.handed id before
    · obtain rfl := List.mem_singleton.mp now
      exact ⟨Nat.pos_of_ne_zero positive, logged.buffers buffer b found⟩

theorem handed_positive (run : s.register r = some (answer, s')) :
    ∀ id ∈ handedBy answer, 0 < id ∧ id ∈ (madeBy answer).map Event.id := by
  cases r with
  | kernel kernelId f inBuffers outBuffers =>
    obtain ⟨_, _, same⟩ := Option.map_eq_some_iff.mp run
    cases same
    simp [handedBy]
  | memory bufferId size mode kernelsIn kernelsOut =>
    obtain ⟨_, _, same⟩ := Option.map_eq_some_iff.mp run
    cases same
    simp [handedBy]
  | event kernelsIn kernelsOut =>
    obtain ⟨⟨e, after⟩, called, same⟩ := Option.map_eq_some_iff.mp run
    cases same
    intro id member
    obtain rfl := List.mem_singleton.mp member
    refine ⟨?_, List.mem_singleton_self _⟩
    rw [Registry.mangoRegisterEvent] at called
    split at called
    · cases called
    · change (if uint32 s.created = 0 then none else some (s.registerNewEvent kernelsIn kernelsOut)) =
        some _ at called
      split at called
      · cases called
      · next positive =>
        cases called
        exact Nat.pos_of_ne_zero positive

theorem Process.Logged.register (logged : w.Logged) (run : w.register r = some w') : w'.Logged := by
  obtain ⟨s, valid, run⟩ := Option.bind_eq_some_iff.mp run
  obtain ⟨⟨answer, after⟩, registered, run⟩ := Option.bind_eq_some_iff.mp run
  cases run
  obtain ⟨present, rfl⟩ := context_some valid
  have enlarged := register_enlarged registered
  constructor
  · exact fun absent => absurd present absent
  · rw [List.map_append, logged.ids, enlarged.ids, enlarged.created, List.range_add, List.map_append,
      List.map_map]
    rfl
  · intro bid b found
    rw [List.map_append]
    rcases enlarged.buffers bid b found with before | new
    · exact List.mem_append_left _ (logged.buffers bid b before)
    · exact List.mem_append_right _ (List.mem_map_of_mem new)
  · intro id member
    rw [List.map_append]
    rcases List.mem_append.mp member with before | now
    · obtain ⟨positive, mine⟩ := logged.handed id before
      exact ⟨positive, List.mem_append_left _ mine⟩
    · obtain ⟨positive, mine⟩ := handed_positive registered id now
      exact ⟨positive, List.mem_append_right _ mine⟩

theorem store_buffers {cxt : Context} {tg tg' : TaskGraph} {events : List Nat}
    (cover : ∀ b ∈ tg.buffers, ∃ bid : Nat, cxt.buffers[bid]? = some b) (same : tg'.bare = tg.bare)
    (mine : ∀ (bid : Nat) b, cxt.buffers[bid]? = some b → b.event.id ∈ events) :
    ∀ (bid : Nat) b, (store cxt tg').buffers[bid]? = some b → b.event.id ∈ events := by
  intro bid b found
  rw [store, Std.TreeMap.getElem?_map] at found
  obtain ⟨old, present, rfl⟩ := Option.map_eq_some_iff.mp found
  rcases named : tg'.buffers.find? fun b => b.id = bid with _ | b'
  · rw [named]
    exact mine bid old present
  · have bares : tg'.buffers.map Buffer.bare = tg.buffers.map Buffer.bare := congrArg TaskGraph.buffers same
    have member : b'.bare ∈ tg.buffers.map Buffer.bare := by
      rw [← bares]
      exact List.mem_map_of_mem (List.mem_of_find?_eq_some named)
    obtain ⟨b, inside, alike⟩ := List.mem_map.mp member
    obtain ⟨bid', found'⟩ := cover b inside
    have ids : b.event.id = b'.event.id := congrArg (fun b => b.event.id) alike
    rw [named, Option.getD_some, ← ids]
    exact mine bid' b found'

theorem mangoGetBufferEvent_some {cxt : Context} {buffer id : Nat}
    (run : mangoGetBufferEvent cxt buffer = some id) :
    ∃ b, cxt.buffers[buffer]? = some b ∧ id = b.event.id ∧ id ≠ 0 := by
  obtain ⟨b, found, run⟩ := Option.bind_eq_some_iff.mp run
  split at run
  · cases run
  · next positive =>
    cases run
    exact ⟨b, found, rfl, positive⟩

theorem mangoWrite_some {cxt : Context} {data : Nat → Nat} {buffer globalSize : Nat}
    {mode : CommunicationMode} {result : Buffer × Text Unit Unit}
    (run : mangoWrite cxt data buffer mode globalSize = some result) :
    cxt.buffers[buffer]? = some result.1 ∧ result.1.event.id ≠ 0 := by
  rw [mangoWrite] at run
  split at run
  · cases run
  · obtain ⟨b, found, run⟩ := Option.bind_eq_some_iff.mp run
    split at run
    · cases run
    · next positive =>
      cases run
      exact ⟨found, positive⟩

theorem mangoRead_some {cxt : Context} {buffer globalSize : Nat} {mode : CommunicationMode}
    {result : Buffer × Text Unit Unit} (run : mangoRead cxt buffer mode globalSize = some result) :
    cxt.buffers[buffer]? = some result.1 ∧ result.1.event.id ≠ 0 := by
  rw [mangoRead] at run
  split at run
  · cases run
  · obtain ⟨b, found, run⟩ := Option.bind_eq_some_iff.mp run
    split at run
    · cases run
    · next positive =>
      cases run
      exact ⟨found, positive⟩

theorem Process.Logged.deregisterMemory {mem : Nat} (logged : w.Logged)
    (run : w.deregisterMemory mem = some w') : w'.Logged := by
  obtain ⟨s, valid, run⟩ := Option.bind_eq_some_iff.mp run
  obtain ⟨after, removed, run⟩ := Option.bind_eq_some_iff.mp run
  cases run
  obtain ⟨present, rfl⟩ := context_some valid
  obtain ⟨b, _, done⟩ := Option.bind_eq_some_iff.mp removed
  cases done
  constructor
  · exact fun absent => absurd present absent
  · exact logged.ids
  · intro bid b found
    exact logged.buffers bid b (IdMap.erase_some found).2
  · exact logged.handed

theorem Process.Logged.allocate {kernels buffers events : List Nat} {manager : BbqueGraph → BbqueGraph}
    {outcome : Nat → Bool} {regs : Registers} {mm : Mm} (logged : w.Logged)
    (run : w.allocate kernels buffers events manager outcome regs mm = some w') : w'.Logged := by
  obtain ⟨s, valid, run⟩ := Option.bind_eq_some_iff.mp run
  obtain ⟨tg, created, run⟩ := Option.bind_eq_some_iff.mp run
  obtain ⟨r, placed, run⟩ := Option.bind_eq_some_iff.mp run
  cases run
  obtain ⟨present, rfl⟩ := context_some valid
  obtain ⟨_, same, _⟩ := resourceAllocation_cases placed
  constructor
  · exact fun absent => absurd present absent
  · exact logged.ids
  · exact store_buffers (mangoTaskGraphCreate_built created).buffers same logged.buffers
  · exact logged.handed

theorem Process.Logged.step (logged : w.Logged) (run : w.step op = some w') : w'.Logged := by
  cases op with
  | init applicationName recipe =>
    change w.init applicationName recipe = some w' at run
    rw [Process.init] at run
    split at run
    · cases run
    · cases run
      exact logged.empty .valid
  | release =>
    change w.release = some w' at run
    rw [Process.release] at run
    split at run
    · cases run
      exact logged
    · cases run
      exact logged.empty .dangling
    · cases run
  | register r => exact logged.register run
  | deregisterMemory mem => exact logged.deregisterMemory run
  | getBufferEvent buffer =>
    obtain ⟨s, valid, run⟩ := Option.bind_eq_some_iff.mp run
    obtain ⟨id, given, run⟩ := Option.bind_eq_some_iff.mp run
    cases run
    obtain ⟨_, rfl⟩ := context_some valid
    obtain ⟨b, found, rfl, positive⟩ := mangoGetBufferEvent_some given
    exact logged.hand found positive
  | write data buffer mode globalSize =>
    obtain ⟨s, valid, run⟩ := Option.bind_eq_some_iff.mp run
    obtain ⟨_, given, run⟩ := Option.bind_eq_some_iff.mp run
    cases run
    obtain ⟨_, rfl⟩ := context_some valid
    obtain ⟨found, positive⟩ := mangoWrite_some given
    exact logged.hand found positive
  | read buffer mode globalSize =>
    obtain ⟨s, valid, run⟩ := Option.bind_eq_some_iff.mp run
    obtain ⟨_, given, run⟩ := Option.bind_eq_some_iff.mp run
    cases run
    obtain ⟨_, rfl⟩ := context_some valid
    obtain ⟨found, positive⟩ := mangoRead_some given
    exact logged.hand found positive
  | allocate kernels buffers events manager outcome regs mm => exact logged.allocate run

theorem step_zero (logged : w.Logged) (run : w.step op = some w') :
    0 ∈ w'.registry.cxt.events ↔ w.zeroAfter (0 ∈ w.registry.cxt.events) op := by
  cases op with
  | init applicationName recipe =>
    change w.init applicationName recipe = some w' at run
    rw [Process.init] at run
    split at run
    · cases run
    · cases run
      simp [Process.zeroAfter, Registry.empty]
  | release =>
    change w.release = some w' at run
    rw [Process.release] at run
    split at run
    · next absent =>
      cases run
      rw [logged.absent (by rw [absent]; decide)]
      simp [Process.zeroAfter, Registry.empty]
    · cases run
      simp [Process.zeroAfter, Registry.empty]
    · cases run
  | register r =>
    obtain ⟨s, valid, run⟩ := Option.bind_eq_some_iff.mp run
    obtain ⟨⟨answer, after⟩, registered, run⟩ := Option.bind_eq_some_iff.mp run
    cases run
    obtain ⟨_, rfl⟩ := context_some valid
    exact register_zero registered
  | deregisterMemory mem =>
    obtain ⟨s, valid, run⟩ := Option.bind_eq_some_iff.mp run
    obtain ⟨after, removed, run⟩ := Option.bind_eq_some_iff.mp run
    cases run
    obtain ⟨_, rfl⟩ := context_some valid
    exact deregisterBuffer_zero removed
  | getBufferEvent buffer =>
    obtain ⟨s, _, run⟩ := Option.bind_eq_some_iff.mp run
    obtain ⟨id, _, run⟩ := Option.bind_eq_some_iff.mp run
    cases run
    rfl
  | write data buffer mode globalSize =>
    obtain ⟨s, _, run⟩ := Option.bind_eq_some_iff.mp run
    obtain ⟨_, _, run⟩ := Option.bind_eq_some_iff.mp run
    cases run
    rfl
  | read buffer mode globalSize =>
    obtain ⟨s, _, run⟩ := Option.bind_eq_some_iff.mp run
    obtain ⟨_, _, run⟩ := Option.bind_eq_some_iff.mp run
    cases run
    rfl
  | allocate kernels buffers events manager outcome regs mm =>
    obtain ⟨s, valid, run⟩ := Option.bind_eq_some_iff.mp run
    obtain ⟨tg, _, run⟩ := Option.bind_eq_some_iff.mp run
    obtain ⟨r, _, run⟩ := Option.bind_eq_some_iff.mp run
    cases run
    obtain ⟨_, rfl⟩ := context_some valid
    exact mem_store

variable {operations : List Operation}

theorem run_logged (run : operations.foldlM Process.step .start = some w) : w.Logged :=
  Fallible.foldlM_invariant (motive := fun _ w => w.Logged)
    (fun _ _ _ _ _ logged one => logged.step one) start_logged run

theorem run_zero (logged : w.Logged) (run : operations.foldlM Process.step w = some w') {zero : Prop}
    (before : 0 ∈ w.registry.cxt.events ↔ zero) :
    0 ∈ w'.registry.cxt.events ↔ ZeroKept operations w zero := by
  induction operations generalizing w zero with
  | nil =>
    cases run
    exact before
  | cons op rest ih =>
    obtain ⟨next, one, more⟩ := Option.bind_eq_some_iff.mp run
    have after := ih (logged.step one) more (step_zero logged one)
    rw [after, ZeroKept, propext before]
    constructor
    · intro kept w' again
      obtain rfl := Option.some.inj (one.symm.trans again)
      exact kept
    · exact fun kept => kept next one

theorem start_zero : 0 ∈ Process.start.registry.cxt.events ↔ False := by
  simp [Process.start, Registry.empty]

theorem mangoStartKernel_zero {cxt : Context} {kernel : Nat} {k : Kernel} {args : Option (List Arg)}
    (found : cxt.kernels[kernel]? = some k) :
    mangoStartKernel cxt kernel args 0 ≠ .error .event ↔ 0 ∈ cxt.events := by
  rw [Std.TreeMap.mem_iff_isSome_getElem?]
  simp only [mangoStartKernel, found]
  rcases cxt.events[0]? with _ | e
  · simp
  · rcases args with _ | args <;> simp

/-- In every run of a process the ids that are given are positive and unique, and a kernel that is
    registered and allocated can be started without an event if and only if the first event that the
    process made is in the context. -/
theorem starts_without_event_iff (run : operations.foldlM Process.step .start = some w) :
    w.StartsWithoutEvent ↔ ((∃ kernel, w.allocated kernel) → ZeroKept operations .start False) := by
  have logged := run_logged run
  have zero := run_zero start_logged run start_zero
  constructor
  · rintro starts ⟨kernel, allocated⟩
    have found := starts.starts kernel none allocated
    obtain ⟨k, registered, _⟩ := allocated
    exact zero.mp ((mangoStartKernel_zero registered).mp found)
  · intro kept
    constructor
    · intro id member
      exact (logged.handed id member).1
    · intro few id member
      have count : w.made.length = w.registry.created := by
        rw [← List.length_map (f := Event.id), logged.ids, List.length_map, List.length_range]
      apply List.count_eq_one_of_mem
      · rw [logged.ids, List.nodup_map_iff_inj_on List.nodup_range]
        intro i below j below' same
        rw [List.mem_range] at below below'
        rwa [uint32_of_lt (by omega), uint32_of_lt (by omega)] at same
      · exact (logged.handed id member).2
    · intro kernel args allocated
      have present := zero.mpr (kept ⟨kernel, allocated⟩)
      obtain ⟨k, registered, _⟩ := allocated
      exact (mangoStartKernel_zero registered).mpr present

/-- A buffer that a kernel reads, and all that an allocation needs to place them. -/
def setUp : List Operation :=
  [.init "application" "recipe", .register (.kernel 1 oneKernel [1] []),
    .register (.memory 1 64 .BUFFER [0] [1]),
    .allocate [1] [1] [] (placeOn fun _ => (5, .GN)) (fun _ => true) (fun _ _ => 0) .start]

/-- Whether the kernel has been allocated, and whether there is an event with id 0. -/
def outcomeOf (operations : List Operation) : Option (Option Bool × Bool) :=
  (operations.foldlM Process.step .start).map fun w =>
    ((w.registry.getKernel 1).map fun k => k.unit.isSome, (w.registry.getEvent 0).isSome)

theorem outcomeOf_some {zero : Bool} (known : outcomeOf operations = some (some true, zero)) :
    ∃ w, operations.foldlM Process.step .start = some w ∧ w.allocated 1 ∧
      (0 ∈ w.registry.cxt.events ↔ zero = true) := by
  obtain ⟨w, run, parts⟩ := Option.map_eq_some_iff.mp known
  rw [Prod.mk.injEq] at parts
  obtain ⟨kernel, event⟩ := parts
  obtain ⟨k, found, placed⟩ := Option.map_eq_some_iff.mp kernel
  refine ⟨w, run, ⟨k, found, placed⟩, ?_⟩
  rw [Std.TreeMap.mem_iff_isSome_getElem?, ← event]
  rfl

theorem starts_without_event_first : ∃ w, setUp.foldlM Process.step .start = some w ∧ w.allocated 1 ∧
    w.StartsWithoutEvent := by
  have known : outcomeOf setUp = some (some true, true) := by decide
  obtain ⟨w, run, allocated, zero⟩ := outcomeOf_some known
  have kept := (run_zero start_logged run start_zero).mp (zero.mpr rfl)
  exact ⟨w, run, allocated, (starts_without_event_iff run).mpr fun _ => kept⟩

/-- A second context has no event with id 0, and no kernel can be started in it without an event. -/
theorem starts_without_event_again : ∃ w,
    (setUp ++ .release :: setUp).foldlM Process.step .start = some w ∧ w.allocated 1 ∧
      mangoStartKernel w.registry.cxt 1 (some []) 0 = .error .event ∧ ¬ w.StartsWithoutEvent := by
  have known : outcomeOf (setUp ++ .release :: setUp) = some (some true, false) := by decide
  obtain ⟨w, run, allocated, zero⟩ := outcomeOf_some known
  obtain ⟨k, registered, _⟩ := id allocated
  have fails : mangoStartKernel w.registry.cxt 1 (some []) 0 = .error .event := by
    by_contra other
    simpa using zero.mp ((mangoStartKernel_zero registered).mp other)
  exact ⟨w, run, allocated, fails, fun starts => starts.starts 1 (some []) allocated fails⟩

end Zero

end MangoModel.OpenCL
