import LibMango.Fallible.Ends
import LibMango.OpenCL.Objects
import LibMango.OpenCL.Programs

namespace MangoModel.OpenCL

open Fallible Host

section Model

inductive MangoCommand where
  | startKernel (kernel : Nat)
  | write (ptr buffer : Nat)
  | read (ptr buffer : Nat)
  deriving DecidableEq, Repr

/-- What a call asks of the runtime. A wait is for a status, or for the one that the runtime decides
    on. -/
inductive Effect where
  | wait (ev : Nat) (state : Option MangoEventStatus)
  | issue (command : MangoCommand)
  deriving DecidableEq, Repr

/-- Which waits come back, whether the arguments of a kernel are granted, which event a command gives,
    and whether the new event and its place in the queue are granted. `none` is an end of the process. -/
structure Runtime where
  waits : Nat → Option MangoEventStatus → Bool
  arguments : Nat → Option Bool
  issue : MangoCommand → Option Nat
  event : Bool
  place : Bool

/-- The arguments of these calls except for the kernel, the buffer and the data. A pointer that is not
    null is to an object, and a list that is not null has as many entries as the call is told. -/
structure EnqueueArguments where
  commandQueue : Option Nat
  numEventsInWaitList : Nat
  eventWaitList : Option (Nat → Option Nat)
  event : Bool

def EnqueueArguments.entries (a : EnqueueArguments) : List (Option Nat) :=
  match a.eventWaitList with
  | none => []
  | some list => (List.range a.numEventsInWaitList).map list

/-- The status that `cl_wait_for_events` waits for. -/
def CommandType.state : CommandType → Option MangoEventStatus
  | .CL_COMMAND_READ_BUFFER => some .READ
  | .CL_COMMAND_WRITE_BUFFER => some .WRITE
  | .CL_COMMAND_NDRANGE_KERNEL => none

def LiveEvent.wait (e : LiveEvent) : Effect := .wait e.ev e.eventType.state

/-- What is at each address, the next address, and what the runtime has been asked for. -/
@[ext] structure Enqueuing where
  queues : Nat → LiveQueue
  kernels : Nat → LiveKernel
  mems : Nat → LiveMem
  events : Nat → LiveEvent
  next : Nat
  effects : List Effect

namespace Enqueuing

variable (r : Runtime) (a : EnqueueArguments) (s : Enqueuing)

/-- `none` where a null pointer is read. -/
def checkWaitListInContext (ctx : Nat) : List (Option Nat) → Option Bool
  | [] => some true
  | none :: _ => none
  | some event :: rest => if ctx ≠ (s.events event).ctx then some false else checkWaitListInContext ctx rest

def waited (event : Nat) : Enqueuing :=
  { s with
    events := Function.update s.events event
      { s.events event with status := (s.events event).eventType.done }
    effects := s.effects ++ [(s.events event).wait] }

def waitLoop : List (Option Nat) → Enqueuing → Except Ending Unit × Enqueuing
  | [], s => (.ok (), s)
  | none :: _, s => (.error (.thrown .CL_INVALID_EVENT), s)
  | some event :: rest, s =>
    let e := s.events event
    if e.status = .LOCK then
      if r.waits e.ev e.eventType.state then waitLoop rest (s.waited event) else (.error .ended, s.waited event)
    else waitLoop rest s

def clWaitForEvents (eventList : List (Option Nat)) (s : Enqueuing) : Except Ending Unit × Enqueuing :=
  if eventList.isEmpty then (.error (.thrown .CL_INVALID_VALUE), s) else waitLoop r eventList s

/-- Each event of the list is waited for by a call of its own. -/
def waitEach : List (Option Nat) → Enqueuing → Except Ending Unit × Enqueuing
  | [], s => (.ok (), s)
  | event :: rest, s =>
    match clWaitForEvents r [event] s with
    | (.error ending, s) => (.error ending, s)
    | (.ok (), s) => waitEach rest s

/-- The checks in front of the scan of the list. `object` is the context and the command of the kernel
    or the buffer, or the code that it is refused with, and `again` is a check that is made behind that
    of the context. -/
def accept (object : Except ClCode (Nat × MangoCommand)) (again : Except ClCode Unit) :
    Except ClCode (Nat × MangoCommand) :=
  match a.commandQueue with
  | none => .error .CL_INVALID_COMMAND_QUEUE
  | some queue =>
    match object with
    | .error code => .error code
    | .ok (ctx, command) =>
      if (s.queues queue).ctx ≠ ctx then .error .CL_INVALID_CONTEXT
      else match again with
        | .error code => .error code
        | .ok () =>
          if a.eventWaitList.isNone ∧ a.numEventsInWaitList > 0 then .error .CL_INVALID_EVENT_WAIT_LIST
          else if a.eventWaitList.isSome ∧ a.numEventsInWaitList = 0 then
            .error .CL_INVALID_EVENT_WAIT_LIST
          else .ok (queue, command)

def issued (command : MangoCommand) : Enqueuing := { s with effects := s.effects ++ [.issue command] }

def newEvent (queue ev : Nat) (eventType : CommandType) : Enqueuing :=
  { s with
    events := Function.update s.events s.next ⟨newClEvent ev eventType, (s.queues queue).ctx⟩
    next := s.next + 1 }

def pushEvent (queue event : Nat) : Enqueuing :=
  { s with
    queues := Function.update s.queues queue
      { s.queues queue with events := (s.queues queue).events ++ [event] } }

/-- The arguments of a kernel are collected before it is started. -/
def collects : MangoCommand → Option Bool
  | .startKernel kernel => r.arguments kernel
  | .write _ _ | .read _ _ => some true

/-- What is written to `event`, where there is a place for it, and the state that is left. -/
def issue (queue : Nat) (command : MangoCommand) (eventType : CommandType) (s : Enqueuing) :
    Except Ending (Option Nat) × Enqueuing :=
  match collects r command with
  | none => (.error .ended, s)
  | some false => (.error .badAlloc, s)
  | some true =>
    let s := s.issued command
    match r.issue command with
    | none => (.error .ended, s)
    | some ev =>
      if r.event = false then (.error .badAlloc, s)
      else
        let event := s.next
        let s := s.newEvent queue ev eventType
        if r.place = false then (.error .badAlloc, s)
        else (.ok (if a.event then some event else none), s.pushEvent queue event)

def enqueue (object : Except ClCode (Nat × MangoCommand)) (again : Except ClCode Unit)
    (eventType : CommandType) : Except Ending (Option Nat) × Enqueuing :=
  match s.accept a object again with
  | .error code => (.error (.thrown code), s)
  | .ok (queue, command) =>
    match s.checkWaitListInContext (s.queues queue).ctx a.entries with
    | none => (.error .ended, s)
    | some false => (.error (.thrown .CL_INVALID_CONTEXT), s)
    | some true =>
      match waitEach r a.entries s with
      | (.error ending, s) => (.error ending, s)
      | (.ok (), s) => issue r a queue command eventType s

/-- A kernel has a program, as the call asserts. -/
def kernelObject (kernel : Option Nat) : Except ClCode (Nat × MangoCommand) :=
  match kernel with
  | none => .error .CL_INVALID_KERNEL
  | some kernel => .ok ((s.kernels kernel).ctx, .startKernel (s.kernels kernel).kernel)

def checkPtr : Option Nat → Except ClCode Nat
  | none => .error .CL_INVALID_VALUE
  | some ptr => .ok ptr

def bufferObject (command : Nat → Nat → MangoCommand) (buffer ptr : Option Nat) :
    Except ClCode (Nat × MangoCommand) :=
  match buffer with
  | none => .error .CL_INVALID_MEM_OBJECT
  | some buffer => (checkPtr ptr).map fun ptr => ((s.mems buffer).ctx, command ptr (s.mems buffer).buffer)

def clEnqueueTask (kernel : Option Nat) : Except Ending (Option Nat) × Enqueuing :=
  s.enqueue r a (s.kernelObject kernel) (.ok ()) .CL_COMMAND_NDRANGE_KERNEL

def clEnqueueWriteBuffer (buffer ptr : Option Nat) : Except Ending (Option Nat) × Enqueuing :=
  s.enqueue r a (s.bufferObject .write buffer ptr) ((checkPtr ptr).map fun _ => ()) .CL_COMMAND_WRITE_BUFFER

def clEnqueueReadBuffer (buffer ptr : Option Nat) : Except Ending (Option Nat) × Enqueuing :=
  s.enqueue r a (s.bufferObject .read buffer ptr) ((checkPtr ptr).map fun _ => ()) .CL_COMMAND_READ_BUFFER

end Enqueuing

inductive EnqueueCall where
  | task (kernel : Option Nat)
  | writeBuffer (buffer ptr : Option Nat)
  | readBuffer (buffer ptr : Option Nat)

namespace EnqueueCall

def object (s : Enqueuing) : EnqueueCall → Except ClCode (Nat × MangoCommand)
  | .task kernel => s.kernelObject kernel
  | .writeBuffer buffer ptr => s.bufferObject .write buffer ptr
  | .readBuffer buffer ptr => s.bufferObject .read buffer ptr

def again : EnqueueCall → Except ClCode Unit
  | .task _ => .ok ()
  | .writeBuffer _ ptr | .readBuffer _ ptr => (Enqueuing.checkPtr ptr).map fun _ => ()

def eventType : EnqueueCall → CommandType
  | .task _ => .CL_COMMAND_NDRANGE_KERNEL
  | .writeBuffer _ _ => .CL_COMMAND_WRITE_BUFFER
  | .readBuffer _ _ => .CL_COMMAND_READ_BUFFER

def run (r : Runtime) (a : EnqueueArguments) (s : Enqueuing) :
    EnqueueCall → Except Ending (Option Nat) × Enqueuing
  | .task kernel => s.clEnqueueTask r a kernel
  | .writeBuffer buffer ptr => s.clEnqueueWriteBuffer r a buffer ptr
  | .readBuffer buffer ptr => s.clEnqueueReadBuffer r a buffer ptr

end EnqueueCall

/-- Each event of the list has been waited for, and then the command has been issued and one event been
    appended to the queue. -/
structure IssuedOne (entries : List (Option Nat)) (queue : Nat) (command : MangoCommand) (s s' : Enqueuing) :
    Prop where
  listed : none ∉ entries
  effects : ∃ waits, s'.effects = s.effects ++ waits ++ [.issue command] ∧ ∀ effect, effect ∈ waits ↔
    ∃ event, some event ∈ entries ∧ (s.events event).status = .LOCK ∧ effect = (s.events event).wait
  waited : ∀ event ≠ s.next, some event ∈ entries → (s'.events event).status ≠ .LOCK
  others : ∀ event ≠ s.next, some event ∉ entries → s'.events event = s.events event
  appended : s'.queues = Function.update s.queues queue
    { s.queues queue with events := (s.queues queue).events ++ [s.next] }

/-- The call returns, and either it has done all that it should or it has failed and done nothing. -/
def Clean (call : EnqueueCall) (a : EnqueueArguments) (s : Enqueuing)
    (outcome : Except Ending (Option Nat) × Enqueuing) : Prop :=
  ∃ code, (caught outcome.1).map Prod.snd = some code ∧
    if code = .CL_SUCCESS then
      ∃ queue command, a.commandQueue = some queue ∧ call.object s = .ok ((s.queues queue).ctx, command) ∧
        IssuedOne a.entries queue command s outcome.2
    else outcome.2 = s

/-- In front of each null pointer stands an event of another context. -/
def Scanned (s : Enqueuing) (ctx : Nat) (entries : List (Option Nat)) : Prop :=
  ∀ i : Nat, entries[i]? = some none →
    ∃ j < i, ∃ event, entries[j]? = some (some event) ∧ (s.events event).ctx ≠ ctx

def Within (s : Enqueuing) (ctx : Nat) (entries : List (Option Nat)) : Prop :=
  ∀ entry ∈ entries, ∃ event, entry = some event ∧ (s.events event).ctx = ctx

/-- The runtime comes back from each wait for an event of the list. -/
def Comes (r : Runtime) (s : Enqueuing) (entries : List (Option Nat)) : Prop :=
  ∀ event, some event ∈ entries → (s.events event).status = .LOCK →
    r.waits (s.events event).ev (s.events event).eventType.state = true

/-- The runtime comes back with all that a call asks for that has passed its checks; or it has no memory
    for the arguments of the kernel, and there is nothing to be waited for. -/
def Granted (r : Runtime) (s : Enqueuing) (entries : List (Option Nat)) (command : MangoCommand) : Prop :=
  match Enqueuing.collects r command with
  | none => False
  | some false => ∀ event, some event ∈ entries → (s.events event).status ≠ .LOCK
  | some true =>
    Comes r s entries ∧ (r.issue command).isSome ∧ r.event = true ∧ r.place = true

/-- A call that is not refused by the checks in front of the scan. -/
def Unharmed (r : Runtime) (a : EnqueueArguments) (s : Enqueuing) (call : EnqueueCall) : Prop :=
  ∀ queue command, s.accept a (call.object s) call.again = .ok (queue, command) →
    Scanned s (s.queues queue).ctx a.entries ∧
      (Within s (s.queues queue).ctx a.entries → Granted r s a.entries command)

end Model

section Checks

variable {r : Runtime} {a : EnqueueArguments} {s s' : Enqueuing} {entries : List (Option Nat)} {ctx : Nat}

theorem scanned_null (rest : List (Option Nat)) : ¬ Scanned s ctx (none :: rest) := by
  intro scanned
  obtain ⟨j, before, _⟩ := scanned 0 rfl
  exact absurd before (Nat.not_lt_zero j)

theorem scanned_foreign {event : Nat} (foreign : (s.events event).ctx ≠ ctx) (rest : List (Option Nat)) :
    Scanned s ctx (some event :: rest) := by
  intro i null
  cases i with
  | zero => cases null
  | succ i => exact ⟨0, i.succ_pos, event, rfl, foreign⟩

theorem scanned_cons {event : Nat} (own : (s.events event).ctx = ctx) (rest : List (Option Nat)) :
    Scanned s ctx (some event :: rest) ↔ Scanned s ctx rest := by
  constructor
  · intro scanned i null
    obtain ⟨j, before, other, listed, foreign⟩ := scanned (i + 1) null
    cases j with
    | zero =>
      cases listed
      exact absurd own foreign
    | succ j => exact ⟨j, Nat.lt_of_succ_lt_succ before, other, listed, foreign⟩
  · intro scanned i null
    cases i with
    | zero => cases null
    | succ i =>
      obtain ⟨j, before, other, listed, foreign⟩ := scanned i null
      exact ⟨j + 1, Nat.succ_lt_succ before, other, listed, foreign⟩

/-- The scan comes to a null pointer unless it has stopped at an event of another context. -/
theorem checkWaitListInContext_isSome (s : Enqueuing) (ctx : Nat) (entries : List (Option Nat)) :
    (s.checkWaitListInContext ctx entries).isSome ↔ Scanned s ctx entries := by
  induction entries with
  | nil => simp [Enqueuing.checkWaitListInContext, Scanned]
  | cons entry rest ih =>
    cases entry with
    | none => exact ⟨nofun, fun scanned => absurd scanned (scanned_null rest)⟩
    | some event =>
      by_cases own : (s.events event).ctx = ctx
      · rw [Enqueuing.checkWaitListInContext, if_neg (not_not.mpr own.symm), scanned_cons own, ih]
      · rw [Enqueuing.checkWaitListInContext, if_pos (Ne.symm own)]
        exact ⟨fun _ => scanned_foreign own rest, fun _ => rfl⟩

theorem checkWaitListInContext_true (s : Enqueuing) (ctx : Nat) (entries : List (Option Nat)) :
    s.checkWaitListInContext ctx entries = some true ↔ Within s ctx entries := by
  induction entries with
  | nil => simp [Enqueuing.checkWaitListInContext, Within]
  | cons entry rest ih =>
    cases entry with
    | none => simp [Enqueuing.checkWaitListInContext, Within]
    | some event =>
      by_cases own : (s.events event).ctx = ctx
      · rw [Enqueuing.checkWaitListInContext, if_neg (not_not.mpr own.symm), ih]
        simp [Within, own]
      · rw [Enqueuing.checkWaitListInContext, if_pos (Ne.symm own)]
        simp [Within, own]

theorem accept_ok {object : Except ClCode (Nat × MangoCommand)} {again : Except ClCode Unit}
    {accepted : Nat × MangoCommand} (run : s.accept a object again = .ok accepted) :
    a.commandQueue = some accepted.1 ∧ object = .ok ((s.queues accepted.1).ctx, accepted.2) := by
  unfold Enqueuing.accept at run
  split at run
  · cases run
  · next queue given =>
    split at run
    · cases run
    · next ctx command =>
      split at run
      · cases run
      · next same =>
        split at run
        · cases run
        · split at run
          · cases run
          · split at run
            · cases run
            · cases run
              exact ⟨given, by rw [not_not.mp same]⟩

/-- A call is not refused with the code of success. -/
theorem accept_error {call : EnqueueCall} {code : ClCode}
    (run : s.accept a (call.object s) call.again = .error code) : code ≠ .CL_SUCCESS := by
  have ptr_error : ∀ ptr : Option Nat, Enqueuing.checkPtr ptr ≠ .error .CL_SUCCESS := by
    intro ptr
    cases ptr <;> nofun
  have object_error : call.object s ≠ .error .CL_SUCCESS := by
    have transfer : ∀ command buffer ptr, s.bufferObject command buffer ptr ≠ .error .CL_SUCCESS := by
      intro command buffer ptr
      cases buffer <;> cases ptr <;> nofun
    cases call with
    | task kernel => cases kernel <;> nofun
    | writeBuffer buffer ptr => exact transfer _ buffer ptr
    | readBuffer buffer ptr => exact transfer _ buffer ptr
  have again_error : call.again ≠ .error .CL_SUCCESS := by
    cases call with
    | task _ => nofun
    | writeBuffer _ ptr | readBuffer _ ptr => cases ptr <;> nofun
  rintro rfl
  unfold Enqueuing.accept at run
  repeat' split at run
  all_goals simp_all

end Checks

section Waits

variable {r : Runtime} {a : EnqueueArguments} {s s' : Enqueuing} {entries : List (Option Nat)}
  {waits : List Effect} {event : Nat}

/-- The events of the list have been waited for. -/
structure WaitedEach (entries : List (Option Nat)) (s s' : Enqueuing) (waits : List Effect) : Prop where
  same : s' = { s with events := s'.events, effects := s.effects ++ waits }
  events : ∀ event, s'.events event =
    if some event ∈ entries ∧ (s.events event).status = .LOCK then
      { s.events event with status := (s.events event).eventType.done }
    else s.events event
  waits : ∀ effect, effect ∈ waits ↔
    ∃ event, some event ∈ entries ∧ (s.events event).status = .LOCK ∧ effect = (s.events event).wait

theorem clWaitForEvents_some (r : Runtime) (s : Enqueuing) (event : Nat) :
    Enqueuing.clWaitForEvents r [some event] s =
      if (s.events event).status = .LOCK then
        if r.waits (s.events event).ev (s.events event).eventType.state then (.ok (), s.waited event)
        else (.error .ended, s.waited event)
      else (.ok (), s) := rfl

theorem waited_status (s : Enqueuing) (event other : Nat) :
    ((s.waited event).events other).status = .LOCK ↔ other ≠ event ∧ (s.events other).status = .LOCK := by
  by_cases same : other = event
  · subst same
    simp [Enqueuing.waited, CommandType.done_ne]
  · simp [Enqueuing.waited, same]

theorem waited_events {other : Nat} (apart : other ≠ event) :
    (s.waited event).events other = s.events other :=
  Function.update_of_ne apart _ _

theorem Comes.rest (comes : Comes r s (some event :: entries)) : Comes r s entries :=
  fun other listed => comes other (List.mem_cons_of_mem _ listed)

theorem Comes.waited (comes : Comes r s entries) (event : Nat) : Comes r (s.waited event) entries := by
  intro other listed locked
  obtain ⟨apart, locked⟩ := (waited_status s event other).mp locked
  rw [waited_events apart]
  exact comes other listed locked

/-- An event that is not to be waited for adds nothing. -/
theorem WaitedEach.skip (waited : WaitedEach entries s s' waits) (free : (s.events event).status ≠ .LOCK) :
    WaitedEach (some event :: entries) s s' waits where
  same := waited.same
  events other := by
    rw [waited.events]
    by_cases same : other = event
    · subst same
      simp [free]
    · simp [same]
  waits effect := by
    rw [waited.waits]
    constructor
    · rintro ⟨other, listed, rest⟩
      exact ⟨other, List.mem_cons_of_mem _ listed, rest⟩
    · rintro ⟨other, listed, locked, rest⟩
      rcases List.mem_cons.mp listed with same | listed
      · cases same
        exact absurd locked free
      · exact ⟨other, listed, locked, rest⟩

theorem WaitedEach.wait (waited : WaitedEach entries (s.waited event) s' waits)
    (locked : (s.events event).status = .LOCK) :
    WaitedEach (some event :: entries) s s' ((s.events event).wait :: waits) where
  same := by
    rw [waited.same]
    simp [Enqueuing.waited]
  events other := by
    rw [waited.events]
    by_cases same : other = event
    · subst same
      simp [Enqueuing.waited, locked, CommandType.done_ne]
    · simp [waited_events same, same]
  waits effect := by
    rw [List.mem_cons, waited.waits]
    constructor
    · rintro (rfl | ⟨other, listed, locked', rfl⟩)
      · exact ⟨event, List.mem_cons_self, locked, rfl⟩
      · obtain ⟨apart, locked'⟩ := (waited_status s event other).mp locked'
        rw [waited_events apart]
        exact ⟨other, List.mem_cons_of_mem _ listed, locked', rfl⟩
    · rintro ⟨other, listed, locked', rfl⟩
      by_cases same : other = event
      · exact .inl (by rw [same])
      · rcases List.mem_cons.mp listed with equal | listed
        · exact absurd (Option.some.inj equal) same
        · refine .inr ⟨other, listed, (waited_status s event other).mpr ⟨same, locked'⟩, ?_⟩
          rw [waited_events same]

/-- If each wait comes back, each event of the list is waited for. -/
theorem waitEach_comes (listed : none ∉ entries) (comes : Comes r s entries) :
    ∃ s' waits, Enqueuing.waitEach r entries s = (.ok (), s') ∧ WaitedEach entries s s' waits := by
  induction entries generalizing s with
  | nil => exact ⟨s, [], rfl, ⟨by simp, by simp, by simp⟩⟩
  | cons entry rest ih =>
    obtain ⟨first, later⟩ := not_or.mp (mt List.mem_cons.mpr listed)
    obtain ⟨event, rfl⟩ := Option.ne_none_iff_exists'.mp (Ne.symm first)
    rw [Enqueuing.waitEach, clWaitForEvents_some]
    by_cases locked : (s.events event).status = .LOCK
    · rw [if_pos locked, if_pos (comes event List.mem_cons_self locked)]
      obtain ⟨s', waits, run, waited⟩ := ih later (comes.rest.waited event)
      exact ⟨s', _, run, waited.wait locked⟩
    · rw [if_neg locked]
      obtain ⟨s', waits, run, waited⟩ := ih later comes.rest
      exact ⟨s', waits, run, waited.skip locked⟩

/-- A wait that does not come back ends the call. -/
theorem waitEach_ends (listed : none ∉ entries) (hangs : ¬ Comes r s entries) :
    ∃ s', Enqueuing.waitEach r entries s = (.error .ended, s') := by
  induction entries generalizing s with
  | nil => exact absurd (fun _ member => nomatch member) hangs
  | cons entry rest ih =>
    obtain ⟨first, later⟩ := not_or.mp (mt List.mem_cons.mpr listed)
    obtain ⟨event, rfl⟩ := Option.ne_none_iff_exists'.mp (Ne.symm first)
    rw [Enqueuing.waitEach, clWaitForEvents_some]
    by_cases locked : (s.events event).status = .LOCK
    · rw [if_pos locked]
      by_cases comes : r.waits (s.events event).ev (s.events event).eventType.state
      · rw [if_pos comes]
        refine ih later fun rest_ => hangs fun other member locked' => ?_
        by_cases same : other = event
        · rwa [same]
        · rcases List.mem_cons.mp member with equal | member
          · exact absurd (Option.some.inj equal) same
          · have back := rest_ other member ((waited_status s event other).mpr ⟨same, locked'⟩)
            rwa [waited_events same] at back
      · rw [if_neg comes]
        exact ⟨_, rfl⟩
    · rw [if_neg locked]
      refine ih later fun rest_ => hangs fun other member locked' => ?_
      rcases List.mem_cons.mp member with equal | member
      · cases equal
        exact absurd locked' locked
      · exact rest_ other member locked'

theorem WaitedEach.effects (waited : WaitedEach entries s s' waits) : s'.effects = s.effects ++ waits := by
  rw [waited.same]

theorem WaitedEach.unchanged_iff (waited : WaitedEach entries s s' waits) :
    s' = s ↔ ∀ event, some event ∈ entries → (s.events event).status ≠ .LOCK := by
  constructor
  · rintro same event member locked
    have effects := waited.effects
    rw [same, List.self_eq_append_right] at effects
    have listed := (waited.waits _).mpr ⟨event, member, locked, rfl⟩
    rw [effects] at listed
    cases listed
  · intro free
    have none_ : waits = [] := by
      refine List.eq_nil_iff_forall_not_mem.mpr fun effect member => ?_
      obtain ⟨event, listed, locked, _⟩ := (waited.waits effect).mp member
      exact free event listed locked
    have events : s'.events = s.events := by
      funext event
      rw [waited.events, if_neg fun both => free event both.1 both.2]
    rw [waited.same, events, none_, List.append_nil]

end Waits

section Calls

variable {r : Runtime} {a : EnqueueArguments} {s s' : Enqueuing} {waits : List Effect} {queue : Nat}
  {command : MangoCommand} {entries : List (Option Nat)} {call : EnqueueCall}

/-- A call that does not return is not clean. -/
theorem not_clean_ended (after : Enqueuing) : ¬ Clean call a s (.error .ended, after) := by
  rintro ⟨code, returned, _⟩
  cases returned

theorem clean_badAlloc_iff {after : Enqueuing} : Clean call a s (.error .badAlloc, after) ↔ after = s := by
  constructor
  · rintro ⟨code, returned, clean⟩
    cases returned
    exact clean
  · intro same
    exact ⟨.CL_OUT_OF_HOST_MEMORY, rfl, same⟩

theorem clean_refused {code : ClCode} (other : code ≠ .CL_SUCCESS) :
    Clean call a s (.error (.thrown code), s) :=
  ⟨code, rfl, by rw [if_neg other]⟩

/-- A state behind a command is not the one before the waits. -/
theorem ne_of_issued (waited : WaitedEach a.entries s s' waits) {after : Enqueuing}
    (effects : after.effects = s'.effects ++ [.issue command]) : after ≠ s := by
  rintro rfl
  rw [waited.effects, List.append_assoc] at effects
  simpa using congrArg List.length effects

theorem issuedOne (listed : none ∉ entries) (waited : WaitedEach entries s s' waits) (ev : Nat)
    (eventType : CommandType) : IssuedOne entries queue command s
      (((s'.issued command).newEvent queue ev eventType).pushEvent queue s'.next) where
  listed := listed
  effects := by
    refine ⟨waits, ?_, waited.waits⟩
    simp only [Enqueuing.pushEvent, Enqueuing.newEvent, Enqueuing.issued, waited.effects]
  waited event apart member := by
    have elsewhere : event ≠ s'.next := by rwa [waited.same]
    simp only [Enqueuing.pushEvent, Enqueuing.newEvent, Enqueuing.issued, Function.update_of_ne elsewhere]
    rw [waited.events]
    split
    · exact CommandType.done_ne _
    · next free => exact fun locked => free ⟨member, locked⟩
  others event apart free := by
    have elsewhere : event ≠ s'.next := by rwa [waited.same]
    simp only [Enqueuing.pushEvent, Enqueuing.newEvent, Enqueuing.issued, Function.update_of_ne elsewhere]
    rw [waited.events, if_neg fun both => free both.1]
  appended := by
    rw [waited.same]
    rfl

/-- What is left of a call when the waits are over is all right exactly when the runtime comes back. -/
theorem issue_clean_iff (given : a.commandQueue = some queue)
    (object : call.object s = .ok ((s.queues queue).ctx, command)) (listed : none ∉ a.entries)
    (comes : Comes r s a.entries) (waited : WaitedEach a.entries s s' waits) (eventType : CommandType) :
    Clean call a s (Enqueuing.issue r a queue command eventType s') ↔ Granted r s a.entries command := by
  have issued : s'.issued command ≠ s := ne_of_issued waited rfl
  unfold Enqueuing.issue Granted
  cases collected : Enqueuing.collects r command with
  | none => exact iff_of_false (not_clean_ended _) id
  | some granted =>
    cases granted with
    | false =>
      dsimp only
      rw [clean_badAlloc_iff]
      exact waited.unchanged_iff
    | true =>
      dsimp only
      cases answered : r.issue command with
      | none => exact iff_of_false (not_clean_ended _) (by simp)
      | some ev =>
        dsimp only
        by_cases event : r.event = false
        · rw [if_pos event, clean_badAlloc_iff]
          exact iff_of_false issued (by simp [event])
        · rw [if_neg event]
          by_cases place : r.place = false
          · rw [if_pos place, clean_badAlloc_iff]
            refine iff_of_false ?_ (by simp [place])
            exact ne_of_issued waited rfl
          · rw [if_neg place]
            refine iff_of_true ?_ ⟨comes, rfl, by simpa using event, by simpa using place⟩
            refine ⟨.CL_SUCCESS, rfl, ?_⟩
            rw [if_pos rfl]
            exact ⟨queue, command, given, object, issuedOne listed waited ev eventType⟩

theorem EnqueueCall.run_eq (call : EnqueueCall) (r : Runtime) (a : EnqueueArguments) (s : Enqueuing) :
    call.run r a s = s.enqueue r a (call.object s) call.again call.eventType := by
  cases call <;> rfl

/-- An enqueue call is clean exactly where the scan of the list, if it comes to that, stops in front of
    a null pointer, and the runtime comes back with what an accepted call asks for. -/
theorem enqueue_clean_iff (call : EnqueueCall) (r : Runtime) (a : EnqueueArguments) (s : Enqueuing) :
    Clean call a s (call.run r a s) ↔ Unharmed r a s call := by
  rw [EnqueueCall.run_eq, Enqueuing.enqueue]
  cases accepted : s.accept a (call.object s) call.again with
  | error code =>
    refine iff_of_true (clean_refused (accept_error accepted)) fun queue command run => ?_
    rw [accepted] at run
    cases run
  | ok accepted' =>
    obtain ⟨queue, command⟩ := accepted'
    obtain ⟨given, object⟩ := accept_ok accepted
    have condition : Unharmed r a s call ↔ Scanned s (s.queues queue).ctx a.entries ∧
        (Within s (s.queues queue).ctx a.entries → Granted r s a.entries command) := by
      simp only [Unharmed, accepted, Except.ok.injEq, Prod.mk.injEq, and_imp]
      exact ⟨fun all => all queue command rfl rfl, by rintro all _ _ rfl rfl; exact all⟩
    rw [condition, ← checkWaitListInContext_isSome, ← checkWaitListInContext_true]
    dsimp only
    cases scan : s.checkWaitListInContext (s.queues queue).ctx a.entries with
    | none => exact iff_of_false (not_clean_ended _) (by simp)
    | some within =>
      cases within with
      | false => exact iff_of_true (clean_refused nofun) ⟨rfl, nofun⟩
      | true =>
        have listed : none ∉ a.entries := by
          intro null
          obtain ⟨event, same, _⟩ := (checkWaitListInContext_true s _ _).mp scan none null
          cases same
        simp only [Option.isSome_some, true_and, forall_const]
        by_cases comes : Comes r s a.entries
        · obtain ⟨s', waits, run, waited⟩ := waitEach_comes listed comes
          rw [run]
          exact issue_clean_iff given object listed comes waited call.eventType
        · obtain ⟨s', run⟩ := waitEach_ends listed comes
          rw [run]
          refine iff_of_false (not_clean_ended _) fun granted => ?_
          unfold Granted at granted
          split at granted
          · exact granted
          · next free => exact comes fun event member locked => absurd locked (granted event member)
          · exact comes granted.1

/-- A queue, a kernel and a buffer of the context 0; the event at an address is of the context with that
    number. -/
def oneQueue : Enqueuing where
  queues _ := ⟨0, none, []⟩
  kernels _ := ⟨0, 1⟩
  mems _ := ⟨0, 1⟩
  events event := ⟨newClEvent event .CL_COMMAND_WRITE_BUFFER, event⟩
  next := 2
  effects := []

/-- A runtime that grants all. -/
def willing : Runtime := ⟨fun _ _ => true, fun _ => some true, fun _ => some 0, true, true⟩

/-- A list with one null pointer, which is read. -/
theorem enqueue_null_event :
    Enqueuing.clEnqueueTask willing ⟨some 0, 1, some fun _ => none, false⟩ oneQueue (some 0) =
      (.error .ended, oneQueue) ∧
    ¬ Clean (.task (some 0)) ⟨some 0, 1, some fun _ => none, false⟩ oneQueue
      (Enqueuing.clEnqueueTask willing ⟨some 0, 1, some fun _ => none, false⟩ oneQueue (some 0)) := by
  refine ⟨rfl, ?_⟩
  rintro ⟨code, returned, _⟩
  cases returned

end Calls

section Objects

/-- What a table has is at its place. -/
def Placed {α : Type} (table : Nat → Option α) (places : Nat → α) : Prop :=
  ∀ address a, table address = some a → places address = a

theorem Placed.update {α : Type} {table : Nat → Option α} {places : Nat → α} (placed : Placed table places)
    (address : Nat) (a : α) :
    Placed (Function.update table address (some a)) (Function.update places address a) := by
  intro place other found
  by_cases same : place = address
  · subst same
    rw [Function.update_self] at found ⊢
    exact Option.some.inj found
  · rw [Function.update_of_ne same] at found ⊢
    exact placed place other found

/-- The objects are where the pointers of a call find them. -/
structure Sees (w : Objects) (s : Enqueuing) : Prop where
  queues : Placed w.queues s.queues
  kernels : Placed w.kernels s.kernels
  mems : Placed w.mems s.mems
  events : Placed w.events s.events
  next : s.next = w.next

/-- The runtime with the registered objects, in which every wait for an event comes back; `memory` is
    what data pointers point to. -/
def registered (memory : Nat → Nat → Nat) (registry : Registry) : Runtime where
  waits ev _ := (registry.getEvent ev).isSome
  arguments kernel := (registry.getKernel kernel).map fun _ => true
  issue
    | .startKernel kernel => (startKernel kernel registry).toOption
    | .write ptr buffer => (writeBuffer (memory ptr) buffer registry).toOption
    | .read _ buffer => (readBuffer buffer registry).toOption
  event := true
  place := true

def argumentsOf (queue : Nat) (waitList : List Nat) (wanted : Bool) : EnqueueArguments :=
  ⟨some queue, waitList.length, if waitList = [] then none else some (waitList[·]?), wanted⟩

variable {w w' : Objects} {s : Enqueuing} {memory : Nat → Nat → Nat} {waitList : List Nat} {ctx queue : Nat}
  {wanted : Bool}

theorem need_ok {α β : Type} {fault : Fault} {o : Option α} {f : α → Except Fault β} {b : β}
    (run : need fault o >>= f = .ok b) : ∃ a, o = some a ∧ f a = .ok b := by
  cases o with
  | none => cases run
  | some a => exact ⟨a, rfl, run⟩

theorem argumentsOf_entries (queue : Nat) (waitList : List Nat) (wanted : Bool) :
    (argumentsOf queue waitList wanted).entries = waitList.map some := by
  by_cases empty : waitList = []
  · subst empty
    rfl
  · rw [argumentsOf, if_neg empty]
    refine List.ext_getElem? fun i => ?_
    rw [EnqueueArguments.entries, List.getElem?_map, List.getElem?_map]
    by_cases inside : i < waitList.length
    · rw [List.getElem?_range inside, List.getElem?_eq_getElem inside]
      simp [inside]
    · rw [List.getElem?_eq_none (by simpa using inside), List.getElem?_eq_none (by simpa using inside)]
      rfl

theorem argumentsOf_accept {command : MangoCommand} (same : (s.queues queue).ctx = ctx) :
    s.accept (argumentsOf queue waitList wanted) (.ok (ctx, command)) (.ok ()) = .ok (queue, command) := by
  by_cases empty : waitList = []
  · simp [Enqueuing.accept, argumentsOf, same, empty]
  · simp [Enqueuing.accept, argumentsOf, same, empty]

theorem Sees.checkWaitListInContext {within : Bool} (sees : Sees w s)
    (run : w.checkWaitListInContext ctx waitList = .ok within) :
    s.checkWaitListInContext ctx (waitList.map some) = some within := by
  induction waitList with
  | nil =>
    cases run
    rfl
  | cons event rest ih =>
    obtain ⟨e, found, run⟩ := need_ok run
    rw [List.map_cons, Enqueuing.checkWaitListInContext, sees.events event e found]
    split at run
    · next other =>
      cases run
      exact if_pos other
    · next own => exact (if_neg own).trans (ih run)

theorem Sees.waited {event : Nat} {e : LiveEvent} (sees : Sees w s) (found : w.events event = some e) :
    Sees { w with events := Function.update w.events event (some { e with status := e.eventType.done }) }
      (s.waited event) where
  queues := sees.queues
  kernels := sees.kernels
  mems := sees.mems
  events := by
    obtain rfl := sees.events event e found
    exact sees.events.update event _
  next := sees.next

theorem Sees.clWaitForEvents {event : Nat} (sees : Sees w s) (memory : Nat → Nat → Nat)
    (run : w.clWaitForEvents event = .ok w') :
    ∃ s', Enqueuing.clWaitForEvents (registered memory w.registry) [some event] s = (.ok (), s') ∧
      Sees w' s' ∧ w'.registry = w.registry ∧ w'.queues = w.queues := by
  obtain ⟨e, found, run⟩ := need_ok run
  rw [clWaitForEvents_some, sees.events event e found]
  split at run
  · next locked =>
    obtain ⟨known, registered_, run⟩ := need_ok run
    have back : (registered memory w.registry).waits e.ev e.eventType.state = true := by
      change (w.registry.getEvent e.ev).isSome = true
      rw [registered_]
      rfl
    cases run
    rw [if_pos locked, if_pos back]
    exact ⟨_, rfl, sees.waited found, rfl, rfl⟩
  · next free =>
    cases run
    rw [if_neg free]
    exact ⟨s, rfl, sees, rfl, rfl⟩

theorem Sees.waitEach (sees : Sees w s) (memory : Nat → Nat → Nat)
    (run : waitList.foldlM Objects.clWaitForEvents w = .ok w') :
    ∃ s', Enqueuing.waitEach (registered memory w.registry) (waitList.map some) s = (.ok (), s') ∧
      Sees w' s' ∧ w'.registry = w.registry ∧ w'.queues = w.queues := by
  induction waitList generalizing w s with
  | nil =>
    cases run
    exact ⟨s, rfl, sees, rfl, rfl⟩
  | cons event rest ih =>
    rw [List.foldlM_cons] at run
    obtain ⟨w₁, first, run⟩ := bind_ok run
    obtain ⟨s₁, one, sees₁, registry, queues⟩ := sees.clWaitForEvents memory first
    obtain ⟨s', more, sees', registry', queues'⟩ := ih sees₁ run
    rw [registry] at more registry'
    rw [queues] at queues'
    refine ⟨s', ?_, sees', registry', queues'⟩
    rw [List.map_cons, Enqueuing.waitEach, one]
    exact more

theorem Sees.pushEvent {q : LiveQueue} (sees : Sees w s) (found : w.queues queue = some q)
    (command : MangoCommand) (ev : Nat) (eventType : CommandType) :
    Sees (w.pushEvent queue q ev eventType wanted)
      (((s.issued command).newEvent queue ev eventType).pushEvent queue s.next) where
  queues := by
    obtain rfl := sees.queues queue q found
    rw [sees.next]
    exact sees.queues.update queue _
  kernels := sees.kernels
  mems := sees.mems
  events := by
    obtain rfl := sees.queues queue q found
    change Placed (Function.update w.events w.next _) (Function.update s.events s.next _)
    rw [sees.next]
    exact sees.events.update w.next _
  next := congrArg (· + 1) sees.next

/-- What a call does to the objects it does to what its pointers point to. -/
theorem Sees.enqueue {command : MangoCommand} {run : Registry → Except Fault Nat} {eventType : CommandType}
    (sees : Sees w s)
    (answers : ∀ ev, run w.registry = .ok ev →
      Enqueuing.collects (registered memory w.registry) command = some true ∧
        (registered memory w.registry).issue command = some ev)
    (ran : w.enqueue queue ctx waitList wanted eventType run = .ok w') :
    Sees w' (s.enqueue (registered memory w.registry) (argumentsOf queue waitList wanted)
      (.ok (ctx, command)) (.ok ()) eventType).2 := by
  obtain ⟨q, found, ran⟩ := need_ok ran
  obtain rfl := sees.queues queue q found
  split at ran
  · next other =>
    cases ran
    have refused : s.accept (argumentsOf queue waitList wanted) (.ok (ctx, command)) (.ok ()) =
        .error .CL_INVALID_CONTEXT := by
      simp [Enqueuing.accept, argumentsOf, other]
    rw [Enqueuing.enqueue, refused]
    exact sees
  · next own =>
    obtain ⟨within, scan, ran⟩ := bind_ok ran
    rw [Enqueuing.enqueue, argumentsOf_accept (not_not.mp own), argumentsOf_entries]
    dsimp only
    rw [sees.checkWaitListInContext scan]
    cases within with
    | false =>
      cases ran
      exact sees
    | true =>
      obtain ⟨w₁, waits, ran⟩ := bind_ok ran
      obtain ⟨ev, answered, ran⟩ := bind_ok ran
      obtain ⟨s₁, waited, sees₁, registry, queues⟩ := sees.waitEach memory waits
      have queue₁ : w₁.queues queue = some (s.queues queue) := by rw [queues, found]
      rw [registry] at answered
      obtain ⟨collected, issued⟩ := answers ev answered
      have event : (registered memory w.registry).event = true := rfl
      have place : (registered memory w.registry).place = true := rfl
      cases ran
      rw [waited]
      simp only [Enqueuing.issue, collected, issued, event, place, Bool.true_eq_false, ↓reduceIte]
      exact sees₁.pushEvent queue₁ command ev eventType

theorem Sees.clEnqueueTask {kernel : Nat} (sees : Sees w s)
    (ran : w.clEnqueueTask queue kernel waitList wanted = .ok w') :
    Sees w' (s.clEnqueueTask (registered memory w.registry) (argumentsOf queue waitList wanted)
      (some kernel)).2 := by
  obtain ⟨k, found, ran⟩ := need_ok ran
  rw [Enqueuing.clEnqueueTask, Enqueuing.kernelObject, sees.kernels kernel k found]
  refine sees.enqueue (fun ev answered => ⟨?_, congrArg Except.toOption answered⟩) ran
  change (w.registry.getKernel k.kernel).map (fun _ => true) = some true
  cases known : w.registry.getKernel k.kernel with
  | none =>
    have unknown : w.registry.cxt.kernels[k.kernel]? = none := known
    rw [startKernel, mangoStartKernel, unknown] at answered
    cases answered
  | some _ => rfl

theorem Sees.clEnqueueWriteBuffer {mem ptr : Nat} (sees : Sees w s)
    (ran : w.clEnqueueWriteBuffer queue (memory ptr) mem waitList wanted = .ok w') :
    Sees w' (s.clEnqueueWriteBuffer (registered memory w.registry) (argumentsOf queue waitList wanted)
      (some mem) (some ptr)).2 := by
  obtain ⟨m, found, ran⟩ := need_ok ran
  rw [Enqueuing.clEnqueueWriteBuffer, Enqueuing.bufferObject, sees.mems mem m found]
  exact sees.enqueue (fun ev answered => ⟨rfl, congrArg Except.toOption answered⟩) ran

theorem Sees.clEnqueueReadBuffer {mem ptr : Nat} (sees : Sees w s)
    (ran : w.clEnqueueReadBuffer queue mem waitList wanted = .ok w') :
    Sees w' (s.clEnqueueReadBuffer (registered memory w.registry) (argumentsOf queue waitList wanted)
      (some mem) (some ptr)).2 := by
  obtain ⟨m, found, ran⟩ := need_ok ran
  rw [Enqueuing.clEnqueueReadBuffer, Enqueuing.bufferObject, sees.mems mem m found]
  exact sees.enqueue (fun ev answered => ⟨rfl, congrArg Except.toOption answered⟩) ran

end Objects

end MangoModel.OpenCL
