import LibMango.Host.Graph
import LibMango.Machine

namespace MangoModel.Host

section Maps

/-- `std::map` with ids as keys, in the order of the ids. -/
abbrev IdMap (α : Type) : Type := Std.TreeMap Nat α

namespace IdMap

variable {α : Type} (m : IdMap α) (k : Nat) (v : α)

abbrev emplace : IdMap α := m.insertIfNew k v

variable {m k v} {a : Nat}

theorem emplace_new (absent : m[k]? = none) : (m.emplace k v)[k]? = some v := by
  have missing : k ∉ m := by simp [Std.TreeMap.mem_iff_isSome_getElem?, absent]
  rw [emplace, Std.TreeMap.getElem?_insertIfNew, if_pos ⟨Std.ReflCmp.compare_self, missing⟩]

theorem emplace_other (other : a ≠ k) : (m.emplace k v)[a]? = m[a]? := by
  have apart : ¬ (compare k a = .eq ∧ k ∉ m) :=
    fun both => other (Std.LawfulEqCmp.compare_eq_iff_eq.mp both.1).symm
  rw [emplace, Std.TreeMap.getElem?_insertIfNew, if_neg apart]

theorem emplace_old {old : α} (present : m[a]? = some old) : (m.emplace k v)[a]? = some old := by
  by_cases same : a = k
  · subst same
    have found : a ∈ m := by
      rw [Std.TreeMap.mem_iff_isSome_getElem?, present]
      rfl
    rw [emplace, Std.TreeMap.getElem?_insertIfNew, if_neg (fun both => both.2 found), present]
  · rw [emplace_other same, present]

theorem emplace_some {found : α} (entry : (m.emplace k v)[a]? = some found) :
    m[a]? = some found ∨ a = k ∧ found = v := by
  rcases old : m[a]? with _ | present
  · by_cases same : a = k
    · subst same
      rw [emplace_new old] at entry
      exact .inr ⟨rfl, (Option.some.inj entry).symm⟩
    · rw [emplace_other same, old] at entry
      cases entry
  · rw [emplace_old old] at entry
    exact .inl entry

theorem mem_emplace : a ∈ m.emplace k v ↔ a ∈ m ∨ a = k := by
  rw [emplace, Std.TreeMap.mem_insertIfNew, Std.LawfulEqCmp.compare_eq_iff_eq, or_comm, eq_comm]

theorem erase_other (other : a ≠ k) : (m.erase k)[a]? = m[a]? := by
  rw [Std.TreeMap.getElem?_erase,
    if_neg (fun same => other (Std.LawfulEqCmp.compare_eq_iff_eq.mp same).symm)]

theorem erase_self : (m.erase k)[k]? = none := by
  rw [Std.TreeMap.getElem?_erase, if_pos Std.ReflCmp.compare_self]

theorem erase_some {found : α} (entry : (m.erase k)[a]? = some found) :
    a ≠ k ∧ m[a]? = some found := by
  by_cases same : a = k
  · subst same
    rw [erase_self] at entry
    cases entry
  · rw [erase_other same] at entry
    exact ⟨same, entry⟩

def objects (m : IdMap α) : List α := m.toList.map Prod.snd

theorem mem_objects : v ∈ objects m ↔ ∃ k : Nat, m[k]? = some v := by
  simp [objects, Std.TreeMap.mem_toList_iff_getElem?_eq_some]

end IdMap

end Maps

section Context

structure Context where
  kernels : IdMap Kernel
  buffers : IdMap Buffer
  events : IdMap Event

/-- The context, and how many events the process has made; `user` are the events that
    `register_event` was given. -/
structure Registry where
  cxt : Context
  created : Nat
  user : List Event

def Kernel.events (k : Kernel) : List Event := k.terminationEvent :: k.taskEvents

namespace Registry

def empty (created : Nat) : Registry := ⟨⟨∅, ∅, ∅⟩, created, []⟩

variable (s : Registry)

/-- The constructor of `Event`: the next id, in 32 bits. -/
def newEvent (kernelsIn kernelsOut : List Nat) : Event × Registry :=
  (⟨uint32 s.created, 0, kernelsIn, kernelsOut, 0⟩, { s with created := s.created + 1 })

def addKernel (kid : Nat) (k : Kernel) : Registry :=
  { s with cxt := { s.cxt with kernels := s.cxt.kernels.emplace kid k } }

def addBuffer (bid : Nat) (b : Buffer) : Registry :=
  { s with cxt := { s.cxt with buffers := s.cxt.buffers.emplace bid b } }

def addEvent (e : Event) : Registry :=
  { s with cxt := { s.cxt with events := s.cxt.events.emplace e.id e } }

def addEvents (events : List Event) : Registry := events.foldl addEvent s

def newKernel (kid : Nat) (f : KernelFunction) (inBuffers outBuffers : List Nat) :
    Kernel × Registry :=
  let (termination, s) := s.newEvent [kid] [kid]
  let (first, s) := s.newEvent [kid] [kid]
  let (second, s) := s.newEvent [kid] [kid]
  let (third, s) := s.newEvent [kid] [kid]
  ({ id := kid
     kernel := f
     buffersIn := inBuffers
     buffersOut := outBuffers
     threadCount := 0
     terminationEvent := termination
     taskEvents := [first, second, third]
     unit := none
     phyAddr := 0
     memTile := 0
     clusterId := 0 }, s)

/-- `none` where an assertion fails; no kernel is made of an empty function. -/
def registerKernel (kid : Nat) (f : KernelFunction) (inBuffers outBuffers : List Nat) :
    Option (Option Kernel × Registry) := do
  let length ← f.length
  if length = 0 then return (none, s)
  let (k, s) := s.newKernel kid f inBuffers outBuffers
  let s := s.addKernel kid k
  let s := s.addEvent k.terminationEvent
  return (some k, s.addEvents k.taskEvents)

def newBuffer (bid size : Nat) (kernelsIn kernelsOut : List Nat) (type : BufferType) :
    Buffer × Registry :=
  let (event, s) := s.newEvent kernelsIn kernelsOut
  (⟨bid, size, type, kernelsIn, kernelsOut, event, 0, 0, 0⟩, s)

def registerBuffer (b : Buffer) (bid : Nat) : Buffer × Registry :=
  (b, (s.addBuffer bid b).addEvent b.event)

/-- The overload that makes the buffer; `none` where its assertion fails. -/
def registerNewBuffer (bid size : Nat) (kernelsIn kernelsOut : List Nat) (type : BufferType) :
    Option (Buffer × Registry) :=
  if size = 0 then none
  else
    let (b, s) := s.newBuffer bid size kernelsIn kernelsOut type
    some (s.registerBuffer b bid)

def removeBuffer (bid : Nat) : Registry :=
  { s with cxt := { s.cxt with buffers := s.cxt.buffers.erase bid } }

def removeEvent (id : Nat) : Registry :=
  { s with cxt := { s.cxt with events := s.cxt.events.erase id } }

/-- `none` where the source reads the event of a buffer that is not there. -/
def deregisterBuffer (bid : Nat) : Option Registry := do
  let b ← s.cxt.buffers[bid]?
  return (s.removeEvent b.event.id).removeBuffer bid

def registerEvent (e : Event) : Event × Registry :=
  (e, { s.addEvent e with user := e :: s.user })

def registerNewEvent (kernelsIn kernelsOut : List Nat) : Event × Registry :=
  let (e, s) := s.newEvent kernelsIn kernelsOut
  s.registerEvent e

def getKernel (id : Nat) : Option Kernel := s.cxt.kernels[id]?

def getBuffer (id : Nat) : Option Buffer := s.cxt.buffers[id]?

def getEvent (id : Nat) : Option Event := s.cxt.events[id]?

end Registry

end Context

section Calls

inductive Request where
  | registerKernel (kid : Nat) (f : KernelFunction) (inBuffers outBuffers : List Nat)
  | registerBuffer (b : Buffer) (bid : Nat)
  | registerNewBuffer (bid size : Nat) (kernelsIn kernelsOut : List Nat) (type : BufferType)
  | deregisterBuffer (bid : Nat)
  | registerEvent (e : Event)
  | registerNewEvent (kernelsIn kernelsOut : List Nat)

inductive Answer where
  | kernel (k : Option Kernel)
  | buffer (b : Buffer)
  | event (e : Event)
  | nothing

namespace Registry

variable (s : Registry)

/-- `none` where the call does not come back. -/
def perform : Request → Option (Answer × Registry)
  | .registerKernel kid f inBuffers outBuffers =>
    (s.registerKernel kid f inBuffers outBuffers).map fun (k, s) => (.kernel k, s)
  | .registerBuffer b bid => let (b, s) := s.registerBuffer b bid; some (.buffer b, s)
  | .registerNewBuffer bid size kernelsIn kernelsOut type =>
    (s.registerNewBuffer bid size kernelsIn kernelsOut type).map fun (b, s) => (.buffer b, s)
  | .deregisterBuffer bid => (s.deregisterBuffer bid).map fun s => (.nothing, s)
  | .registerEvent e => let (e, s) := s.registerEvent e; some (.event e, s)
  | .registerNewEvent kernelsIn kernelsOut =>
    let (e, s) := s.registerNewEvent kernelsIn kernelsOut; some (.event e, s)

def ownedIds : List Nat :=
  (s.cxt.kernels.toList.flatMap fun (_, k) => k.events.map Event.id) ++
    (s.cxt.buffers.toList.map fun (_, b) => b.event.id) ++ s.user.map Event.id

structure Consistent : Prop where
  keys : ∀ id, id ∈ s.cxt.events ↔ id ∈ s.ownedIds
  kernels : ∀ kid k, s.getKernel kid = some k → k.id = kid
  buffers : ∀ bid b, s.getBuffer bid = some b → b.id = bid
  events : ∀ id e, s.getEvent id = some e → e.id = id

/-- What a call returned is what the context now has under its id. -/
def Agrees : Request → Answer → Prop
  | .registerKernel kid _ _ _, .kernel (some k) => s.getKernel kid = some k
  | .registerBuffer _ bid, .buffer b => s.getBuffer bid = some b
  | .registerNewBuffer bid _ _ _ _, .buffer b => s.getBuffer bid = some b
  | _, _ => True

/-- No call of the sequence reads an object that is not there, each returns what is then found
    under its id, and the context is consistent all along. -/
def Upheld : List Request → Registry → Prop
  | [], s => s.Consistent
  | q :: rest, s => s.Consistent ∧ (∀ bid, q = .deregisterBuffer bid → (s.perform q).isSome) ∧
    ∀ answer s', s.perform q = some (answer, s') → s'.Agrees q answer ∧ Upheld rest s'

/-- A new object goes under an id of its own that is free, and a buffer is taken out that is there
    and whose event nobody else has. -/
def Admissible : Request → Prop
  | .registerKernel kid f _ _ => ∀ length, f.length = some length → length ≠ 0 → s.getKernel kid = none
  | .registerBuffer b bid => b.id = bid ∧ ∀ old, s.getBuffer bid = some old → old = b
  | .registerNewBuffer bid size _ _ _ => size ≠ 0 → s.getBuffer bid = none
  | .deregisterBuffer bid =>
    ∃ b, s.getBuffer bid = some b ∧ b.event.id ∉ (s.removeBuffer bid).ownedIds
  | .registerEvent _ => True
  | .registerNewEvent _ _ => True

def Admitted : List Request → Registry → Prop
  | [], _ => True
  | q :: rest, s => s.Admissible q ∧ ∀ answer s', s.perform q = some (answer, s') → Admitted rest s'

end Registry

end Calls

section Consistency

namespace Registry

variable {s : Registry} {e : Event} {b : Buffer} {k : Kernel} {id kid bid : Nat}

theorem mem_ownedIds : id ∈ s.ownedIds ↔
    (∃ kid k, s.getKernel kid = some k ∧ id ∈ k.events.map Event.id) ∨
      (∃ bid b, s.getBuffer bid = some b ∧ b.event.id = id) ∨ id ∈ s.user.map Event.id := by
  simp only [ownedIds, List.mem_append, List.mem_flatMap, List.mem_map, Prod.exists, or_assoc,
    getKernel, getBuffer, Std.TreeMap.mem_toList_iff_getElem?_eq_some]

@[simp] theorem getKernel_addEvents (events : List Event) :
    (s.addEvents events).getKernel kid = s.getKernel kid := by
  induction events generalizing s with
  | nil => rfl
  | cons e events step => exact step

@[simp] theorem getBuffer_addEvents (events : List Event) :
    (s.addEvents events).getBuffer bid = s.getBuffer bid := by
  induction events generalizing s with
  | nil => rfl
  | cons e events step => exact step

@[simp] theorem user_addEvents (events : List Event) : (s.addEvents events).user = s.user := by
  induction events generalizing s with
  | nil => rfl
  | cons e events step => exact step

theorem mem_addEvents (events : List Event) :
    id ∈ (s.addEvents events).cxt.events ↔ id ∈ s.cxt.events ∨ id ∈ events.map Event.id := by
  induction events generalizing s with
  | nil => simp [addEvents]
  | cons e events step =>
    have found := step (s := s.addEvent e)
    rw [addEvents, List.foldl_cons, ← addEvents, found, addEvent, IdMap.mem_emplace, List.map_cons,
      List.mem_cons, or_assoc]

theorem getEvent_addEvents (events : List Event) (found : (s.addEvents events).getEvent id = some e) :
    s.getEvent id = some e ∨ e ∈ events ∧ e.id = id := by
  induction events generalizing s with
  | nil => exact .inl found
  | cons first events step =>
    rcases step found with before | ⟨later, same⟩
    · rcases IdMap.emplace_some before with before | ⟨rfl, rfl⟩
      · exact .inl before
      · exact .inr ⟨List.mem_cons_self, rfl⟩
    · exact .inr ⟨List.mem_cons_of_mem _ later, same⟩

theorem Consistent.addEvents {t : Registry} {events : List Event} (consistent : s.Consistent)
    (kept : t.cxt.events = s.cxt.events)
    (owned : ∀ id, id ∈ t.ownedIds ↔ id ∈ s.ownedIds ∨ id ∈ events.map Event.id)
    (kernels : ∀ kid k, t.getKernel kid = some k → k.id = kid)
    (buffers : ∀ bid b, t.getBuffer bid = some b → b.id = bid) : (t.addEvents events).Consistent where
  keys id := by
    have same : id ∈ (t.addEvents events).ownedIds ↔ id ∈ t.ownedIds := by
      simp only [mem_ownedIds, getKernel_addEvents, getBuffer_addEvents, user_addEvents]
    rw [same, owned, mem_addEvents, kept, consistent.keys]
  kernels kid k found := kernels kid k (by simpa using found)
  buffers bid b found := buffers bid b (by simpa using found)
  events id e found := by
    rcases getEvent_addEvents events found with before | ⟨_, same⟩
    · rw [getEvent, kept] at before
      exact consistent.events id e before
    · exact same

theorem getKernel_addKernel {found : Kernel} {id : Nat} (free : s.getKernel kid = none) :
    (s.addKernel kid k).getKernel id = some found ↔
      s.getKernel id = some found ∨ id = kid ∧ k = found := by
  by_cases same : id = kid
  · subst same
    rw [free, show (s.addKernel id k).getKernel id = some k from IdMap.emplace_new free]
    simp
  · rw [show (s.addKernel kid k).getKernel id = s.getKernel id from IdMap.emplace_other same]
    simp [same]

theorem getBuffer_addBuffer {found : Buffer} {id : Nat}
    (free : ∀ old, s.getBuffer bid = some old → old = b) :
    (s.addBuffer bid b).getBuffer id = some found ↔
      s.getBuffer id = some found ∨ id = bid ∧ b = found := by
  by_cases same : id = bid
  · subst same
    rcases present : s.getBuffer id with _ | old
    · rw [show (s.addBuffer id b).getBuffer id = some b from IdMap.emplace_new present]
      simp
    · obtain rfl := free old present
      rw [show (s.addBuffer id old).getBuffer id = some old from IdMap.emplace_old present]
      simp
  · rw [show (s.addBuffer bid b).getBuffer id = s.getBuffer id from IdMap.emplace_other same]
    simp [same]

theorem Consistent.addKernel (consistent : s.Consistent) (free : s.getKernel kid = none)
    (own : k.id = kid) : ((s.addKernel kid k).addEvents k.events).Consistent := by
  apply consistent.addEvents
  · rfl
  · intro id
    simp only [mem_ownedIds, getKernel_addKernel free]
    constructor
    · rintro (⟨kid', k', found | ⟨rfl, rfl⟩, listed⟩ | others)
      · exact .inl (.inl ⟨kid', k', found, listed⟩)
      · exact .inr listed
      · exact .inl (.inr others)
    · rintro ((⟨kid', k', found, listed⟩ | others) | listed)
      · exact .inl ⟨kid', k', .inl found, listed⟩
      · exact .inr others
      · exact .inl ⟨kid, k, .inr ⟨rfl, rfl⟩, listed⟩
  · intro id found' entry
    rcases (getKernel_addKernel free).mp entry with before | ⟨rfl, rfl⟩
    · exact consistent.kernels id found' before
    · exact own
  · exact consistent.buffers

theorem Consistent.addBuffer (consistent : s.Consistent)
    (free : ∀ old, s.getBuffer bid = some old → old = b) (own : b.id = bid) :
    ((s.addBuffer bid b).addEvents [b.event]).Consistent := by
  apply consistent.addEvents
  · rfl
  · intro id
    simp only [mem_ownedIds, getBuffer_addBuffer free, List.map_cons, List.map_nil,
      List.mem_singleton]
    constructor
    · rintro (kernels | ⟨bid', b', found | ⟨rfl, rfl⟩, same⟩ | user)
      · exact .inl (.inl kernels)
      · exact .inl (.inr (.inl ⟨bid', b', found, same⟩))
      · exact .inr same.symm
      · exact .inl (.inr (.inr user))
    · rintro ((kernels | ⟨bid', b', found, same⟩ | user) | same)
      · exact .inl kernels
      · exact .inr (.inl ⟨bid', b', .inl found, same⟩)
      · exact .inr (.inr user)
      · exact .inr (.inl ⟨bid, b, .inr ⟨rfl, rfl⟩, same.symm⟩)
  · exact consistent.kernels
  · intro id found' entry
    rcases (getBuffer_addBuffer free).mp entry with before | ⟨rfl, rfl⟩
    · exact consistent.buffers id found' before
    · exact own

theorem Consistent.addUser (consistent : s.Consistent) :
    ({ s with user := e :: s.user }.addEvents [e]).Consistent := by
  apply consistent.addEvents
  · rfl
  · intro id
    simp only [mem_ownedIds, getKernel, getBuffer, List.map_cons, List.map_nil, List.mem_cons,
      List.not_mem_nil, or_false]
    constructor
    · rintro (kernels | buffers | same | user)
      · exact .inl (.inl kernels)
      · exact .inl (.inr (.inl buffers))
      · exact .inr same
      · exact .inl (.inr (.inr user))
    · rintro ((kernels | buffers | user) | same)
      · exact .inl kernels
      · exact .inr (.inl buffers)
      · exact .inr (.inr (.inr user))
      · exact .inr (.inr (.inl same))
  · exact consistent.kernels
  · exact consistent.buffers

theorem getBuffer_removeBuffer {found : Buffer} {id : Nat} :
    (s.removeBuffer bid).getBuffer id = some found ↔ id ≠ bid ∧ s.getBuffer id = some found := by
  constructor
  · exact fun entry => IdMap.erase_some entry
  · rintro ⟨other, entry⟩
    exact (IdMap.erase_other other).trans entry

theorem getEvent_isSome : (s.getEvent id).isSome ↔ id ∈ s.cxt.events :=
  Std.TreeMap.mem_iff_isSome_getElem?.symm

theorem getKernel_addKernel_isSome (kid : Nat) (k : Kernel) (events : List Event) :
    (((s.addKernel kid k).addEvents events).getKernel kid).isSome := by
  rw [getKernel_addEvents]
  exact Std.TreeMap.mem_iff_isSome_getElem?.mp (IdMap.mem_emplace.mpr (.inr rfl))

theorem getBuffer_addBuffer_isSome (bid : Nat) (b : Buffer) (events : List Event) :
    (((s.addBuffer bid b).addEvents events).getBuffer bid).isSome := by
  rw [getBuffer_addEvents]
  exact Std.TreeMap.mem_iff_isSome_getElem?.mp (IdMap.mem_emplace.mpr (.inr rfl))

theorem getEvent_removeEvent_self (id : Nat) : (s.removeEvent id).getEvent id = none := IdMap.erase_self

theorem getEvent_removeEvent_other {other : Nat} (apart : other ≠ id) :
    (s.removeEvent id).getEvent other = s.getEvent other := IdMap.erase_other apart

theorem deregisterBuffer_some {t : Registry} (run : s.deregisterBuffer bid = some t) :
    ∃ b, s.getBuffer bid = some b ∧ t = (s.removeEvent b.event.id).removeBuffer bid := by
  obtain ⟨b, found, done⟩ := Option.bind_eq_some_iff.mp run
  cases done
  exact ⟨b, found, rfl⟩

theorem Consistent.removeBuffer (consistent : s.Consistent) (present : s.getBuffer bid = some b)
    (alone : b.event.id ∉ (s.removeBuffer bid).ownedIds) :
    ((s.removeEvent b.event.id).removeBuffer bid).Consistent where
  keys id := by
    have owned : id ∈ s.ownedIds ↔ id ∈ (s.removeBuffer bid).ownedIds ∨ id = b.event.id := by
      simp only [mem_ownedIds, getBuffer_removeBuffer]
      constructor
      · rintro (kernels | ⟨bid', b', found, same⟩ | user)
        · exact .inl (.inl kernels)
        · by_cases taken : bid' = bid
          · subst taken
            rw [present] at found
            exact .inr (Option.some.inj found ▸ same.symm)
          · exact .inl (.inr (.inl ⟨bid', b', ⟨taken, found⟩, same⟩))
        · exact .inl (.inr (.inr user))
      · rintro ((kernels | ⟨bid', b', ⟨_, found⟩, same⟩ | user) | same)
        · exact .inl kernels
        · exact .inr (.inl ⟨bid', b', found, same⟩)
        · exact .inr (.inr user)
        · exact .inr (.inl ⟨bid, b, present, same.symm⟩)
    have erased : id ∈ s.cxt.events.erase b.event.id ↔ id ≠ b.event.id ∧ id ∈ s.cxt.events := by
      rw [Std.TreeMap.mem_erase, ne_eq, Std.LawfulEqCmp.compare_eq_iff_eq, eq_comm]
    change id ∈ s.cxt.events.erase b.event.id ↔ id ∈ (s.removeBuffer bid).ownedIds
    rw [erased, consistent.keys, owned]
    constructor
    · rintro ⟨other, left | same⟩
      · exact left
      · exact absurd same other
    · intro left
      refine ⟨?_, .inl left⟩
      rintro rfl
      exact alone left
  kernels := consistent.kernels
  buffers id found entry := consistent.buffers id found (getBuffer_removeBuffer.mp entry).2
  events id found entry := consistent.events id found (IdMap.erase_some entry).2

theorem Consistent.make (consistent : s.Consistent) (created : Nat) :
    ({ s with created := created } : Registry).Consistent :=
  ⟨consistent.keys, consistent.kernels, consistent.buffers, consistent.events⟩

theorem empty_consistent (created : Nat) : (empty created).Consistent where
  keys id := by
    rw [mem_ownedIds]
    simp [empty, getKernel, getBuffer]
  kernels kid k found := by simp [empty, getKernel] at found
  buffers bid b found := by simp [empty, getBuffer] at found
  events id e found := by simp [empty, getEvent] at found

theorem registerKernel_consistent {f : KernelFunction} {inBuffers outBuffers : List Nat}
    {made : Option Kernel} {s' : Registry} (consistent : s.Consistent)
    (admissible : s.Admissible (.registerKernel kid f inBuffers outBuffers))
    (run : s.registerKernel kid f inBuffers outBuffers = some (made, s')) :
    s'.Consistent ∧ ∀ k, made = some k → s'.getKernel kid = some k := by
  obtain ⟨length, known, run⟩ := Option.bind_eq_some_iff.mp run
  by_cases void : length = 0
  · rw [if_pos void] at run
    cases run
    exact ⟨consistent, by simp⟩
  · rw [if_neg void] at run
    cases run
    have free := admissible length known void
    refine ⟨(consistent.make (s.created + 4)).addKernel
      (k := (s.newKernel kid f inBuffers outBuffers).1) free rfl, ?_⟩
    intro k same
    cases same
    exact (getKernel_addEvents _).trans (IdMap.emplace_new free)

theorem registerBuffer_consistent (consistent : s.Consistent)
    (free : ∀ old, s.getBuffer bid = some old → old = b) (own : b.id = bid) :
    (s.registerBuffer b bid).2.Consistent ∧ (s.registerBuffer b bid).2.getBuffer bid = some b :=
  ⟨consistent.addBuffer free own, (getBuffer_addBuffer free).mpr (.inr ⟨rfl, rfl⟩)⟩

theorem deregisterBuffer_consistent {s' : Registry} (consistent : s.Consistent)
    (admissible : s.Admissible (.deregisterBuffer bid)) (run : s.deregisterBuffer bid = some s') :
    s'.Consistent := by
  obtain ⟨b, present, alone⟩ := admissible
  obtain ⟨_, found, done⟩ := Option.bind_eq_some_iff.mp run
  obtain rfl := Option.some.inj (present.symm.trans found)
  cases done
  exact consistent.removeBuffer present alone

theorem perform_consistent {q : Request} {answer : Answer} {s' : Registry}
    (consistent : s.Consistent) (admissible : s.Admissible q)
    (run : s.perform q = some (answer, s')) : s'.Consistent ∧ s'.Agrees q answer := by
  cases q with
  | registerKernel kid f inBuffers outBuffers =>
    obtain ⟨⟨made, after⟩, called, same⟩ := Option.map_eq_some_iff.mp run
    cases same
    obtain ⟨kept, agrees⟩ := registerKernel_consistent consistent admissible called
    refine ⟨kept, ?_⟩
    rcases made with _ | k
    · trivial
    · exact agrees k rfl
  | registerBuffer b bid =>
    cases run
    exact registerBuffer_consistent consistent admissible.2 admissible.1
  | registerNewBuffer bid size kernelsIn kernelsOut type =>
    obtain ⟨⟨made, after⟩, called, same⟩ := Option.map_eq_some_iff.mp run
    cases same
    by_cases void : size = 0
    · rw [registerNewBuffer, if_pos void] at called
      cases called
    · rw [registerNewBuffer, if_neg void] at called
      cases called
      refine registerBuffer_consistent (consistent.make _) ?_ rfl
      intro old present
      rw [show ({ s with created := s.created + 1 } : Registry).getBuffer bid = s.getBuffer bid from rfl,
        admissible void] at present
      cases present
  | deregisterBuffer bid =>
    obtain ⟨after, called, same⟩ := Option.map_eq_some_iff.mp run
    cases same
    exact ⟨deregisterBuffer_consistent consistent admissible called, trivial⟩
  | registerEvent e =>
    cases run
    exact ⟨consistent.addUser, trivial⟩
  | registerNewEvent kernelsIn kernelsOut =>
    cases run
    exact ⟨(consistent.make (s.created + 1)).addUser, trivial⟩

theorem deregisterBuffer_isSome (admissible : s.Admissible (.deregisterBuffer bid)) :
    (s.perform (.deregisterBuffer bid)).isSome := by
  obtain ⟨b, present, _⟩ := admissible
  have found : s.cxt.buffers[bid]? = some b := present
  simp [perform, deregisterBuffer, found]

theorem upheld_of_admitted {requests : List Request} (consistent : s.Consistent)
    (admitted : Admitted requests s) : Upheld requests s := by
  induction requests generalizing s with
  | nil => exact consistent
  | cons q rest step =>
    obtain ⟨admissible, later⟩ := admitted
    refine ⟨consistent, ?_, ?_⟩
    · rintro bid rfl
      exact deregisterBuffer_isSome admissible
    · intro answer s' run
      obtain ⟨kept, agrees⟩ := perform_consistent consistent admissible run
      exact ⟨agrees, step kept (later answer s' run)⟩

end Registry

/-- Along every sequence of admissible calls on a new context, whatever events the process has made
    before, the context stays consistent and what a call returns is what is then found. -/
theorem registry_upheld (created : Nat) (requests : List Request)
    (admitted : Registry.Admitted requests (.empty created)) :
    Registry.Upheld requests (.empty created) :=
  Registry.upheld_of_admitted (Registry.empty_consistent created) admitted

theorem Registry.admitted_cons {s s' : Registry} {q : Request} {rest : List Request} {answer : Answer}
    (run : s.perform q = some (answer, s')) (admissible : s.Admissible q)
    (later : Admitted rest s') : Admitted (q :: rest) s := by
  refine ⟨admissible, ?_⟩
  intro _ _ again
  cases run.symm.trans again
  exact later

def oneKernel : KernelFunction :=
  (KernelFunction.load (fun _ => true) "kernel" .GN .BINARY .empty).2

theorem registry_upheld_one_of_each :
    Registry.Upheld [.registerKernel 1 oneKernel [2] [], .registerNewBuffer 2 64 [0] [1] .BUFFER,
      .registerNewEvent [1] [], .deregisterBuffer 2] (.empty 0) := by
  apply registry_upheld
  apply Registry.admitted_cons rfl
  · exact fun _ _ _ => rfl
  apply Registry.admitted_cons rfl
  · exact fun _ => rfl
  apply Registry.admitted_cons rfl
  · trivial
  apply Registry.admitted_cons rfl
  · exact ⟨_, rfl, by decide⟩
  · trivial

theorem registerKernel_twice :
    ¬ Registry.Upheld [.registerKernel 1 oneKernel [] [], .registerKernel 1 oneKernel [] []]
      (.empty 0) := by
  intro upheld
  obtain ⟨_, _, first⟩ := upheld
  obtain ⟨_, _, _, second⟩ := first _ _ rfl
  obtain ⟨agrees, _⟩ := second _ _ rfl
  have ids := congrArg (Option.map fun k => k.terminationEvent.id) agrees
  exact absurd ids (by decide)

end Consistency

end MangoModel.Host
