import LibMango.Host.Event
import LibMango.Host.EventRegisters
import LibMango.Host.Usability
import LibMango.OpenCL.Queues

namespace MangoModel.OpenCL

open Interleave Host

section Waits

def hnExec : Op (Nat × Nat) → Registers → Nat × Registers
  | .readSynchronization e, regs => regs.read e.1 e.2
  | .writeSynchronization e value, regs => (0, regs.write e.1 e.2 value)
  | _, regs => (0, regs)

variable {e : Nat × Nat} {state : Nat}

theorem waitProg_busy (p : WaitPoint) : (p.prog e state).nextOp ≠ none := by
  have next : (p.prog e state).nextOp = some (p.op e) := (waitChart e state).nextOp_eq p
  rw [next]
  exact Option.some_ne_none _

theorem waitProg_step (p : WaitPoint) (fuel : Nat) (regs : Registers) :
    (p.prog e state).alone hnExec (fuel + 1) regs =
      ((WaitPoint.next state p (hnExec (p.op e) regs).1).elim (.ret 0) (WaitPoint.prog e state)).alone
        hnExec fuel (hnExec (p.op e) regs).2 := by
  rw [Prog.alone_step hnExec (waitProg_busy p), WaitPoint.prog_step]

theorem wait_alone_zero (p : WaitPoint) (regs : Registers) :
    (p.prog e state).alone hnExec 0 regs = none :=
  Prog.alone_zero hnExec (waitProg_busy p) regs

theorem wait_alone_other (fuel : Nat) (regs : Registers) :
    (regs e.1 e.2 ≠ state → (WaitPoint.poll.prog e state).alone hnExec fuel regs = none) ∧
      ∀ value ≠ state, ((WaitPoint.back value).prog e state).alone hnExec fuel regs = none := by
  induction fuel generalizing regs with
  | zero => exact ⟨fun _ => wait_alone_zero _ regs, fun _ _ => wait_alone_zero _ regs⟩
  | succ fuel ih =>
    constructor
    · intro other
      rw [waitProg_step]
      simp only [WaitPoint.op, hnExec, Registers.read, WaitPoint.next, Device.await, other, ↓reduceIte]
      by_cases empty : regs e.1 e.2 = 0
      · rw [if_pos empty]
        apply (ih _).1
        rw [Registers.write_get, if_pos ⟨rfl, rfl⟩, ← empty]
        exact other
      · rw [if_neg empty]
        exact (ih _).2 _ other
    · intro value other
      rw [waitProg_step]
      simp only [WaitPoint.op, hnExec, WaitPoint.next, other, ↓reduceIte]
      apply (ih _).1
      rw [Registers.write_get, if_pos ⟨rfl, rfl⟩]
      exact other

theorem wait_alone (filled : state ≠ 0) (fuel : Nat) (regs : Registers) :
    (eventWaitState e state).call.alone hnExec (fuel + 1) regs =
      if regs e.1 e.2 = state then some (regs.write e.1 e.2 0) else none := by
  by_cases found : regs e.1 e.2 = state
  · have step : (WaitPoint.poll.prog e state).alone hnExec (fuel + 1) regs = _ :=
      waitProg_step .poll fuel regs
    simp only [WaitPoint.op, hnExec, Registers.read, WaitPoint.next, Device.await, found, filled,
      ↓reduceIte] at step
    rw [if_pos found]
    exact step.trans (Prog.alone_ret hnExec fuel 0 _)
  · rw [if_neg found]
    exact (wait_alone_other (fuel + 1) regs).1 found

end Waits

section Finish

/-- The types of commands that the waits distinguish. -/
inductive CommandType where
  | CL_COMMAND_READ_BUFFER
  | CL_COMMAND_WRITE_BUFFER
  | CL_COMMAND_NDRANGE_KERNEL
  deriving DecidableEq, Repr

structure ClEvent where
  ev : Nat
  eventType : CommandType
  status : MangoEventStatus
  deriving DecidableEq, Repr

def newClEvent (ev : Nat) (eventType : CommandType) : ClEvent := ⟨ev, eventType, .LOCK⟩

/-- The context's event; after an allocation these are the events of its graph. -/
def getEvent (tg : TaskGraph) (id : Nat) : Option Event := tg.events.find? fun e => e.id = id

abbrev register (e : Event) : Nat × Nat := (e.clusterId, e.phyAddr)

def mangoWaitState (tg : TaskGraph) (fuel ev : Nat) (state : MangoEventStatus) (regs : Registers) :
    Option Registers := do
  let event ← getEvent tg ev
  (eventWaitState (register event) state.value).call.alone hnExec fuel regs

/-- No event of a queue belongs to a burst. -/
def mangoWait (tg : TaskGraph) (fuel ev : Nat) (regs : Registers) : Option Registers := do
  let event ← getEvent tg ev
  (eventWait (register event) false).call.alone hnExec fuel regs

/-- `clWaitForEvents` with one event; `none` if it spins longer than `fuel`, or an assertion
    fails. -/
def clWaitForEvents (tg : TaskGraph) (fuel : Nat) (c : ClEvent) (regs : Registers) :
    Option (ClEvent × Registers) :=
  if c.status = .LOCK then
    match c.eventType with
    | .CL_COMMAND_READ_BUFFER => do
      let regs ← mangoWaitState tg fuel c.ev .READ regs
      return ({ c with status := .READ }, regs)
    | .CL_COMMAND_WRITE_BUFFER => do
      let regs ← mangoWaitState tg fuel c.ev .WRITE regs
      return ({ c with status := .WRITE }, regs)
    | .CL_COMMAND_NDRANGE_KERNEL => do
      let regs ← mangoWait tg fuel c.ev regs
      return ({ c with status := .END_FIFO_OPERATION }, regs)
  else some (c, regs)

/-- The events of a queue, those that have been taken out, and the registers. -/
structure Queue where
  events : List ClEvent
  removed : List ClEvent
  regs : Registers

def finishLoop (tg : TaskGraph) (fuel : Nat) : Nat → Queue → Option Queue
  | 0, q => some q
  | n + 1, q => do
    let topEv ← q.events.getLast?
    let (topEv, regs) ← clWaitForEvents tg fuel topEv q.regs
    finishLoop tg fuel n ⟨q.events.dropLast, topEv :: q.removed, regs⟩

def clFinish (tg : TaskGraph) (fuel : Nat) (q : Queue) : Option Queue :=
  finishLoop tg fuel q.events.length q

/-- `clFinish` returns, and it has waited for each event it took out of the queue. -/
def Finishes (tg : TaskGraph) (events : List ClEvent) (regs : Registers) : Prop :=
  ∃ fuel q, clFinish tg fuel ⟨events, [], regs⟩ = some q ∧ q.events = [] ∧
    q.removed.map ClEvent.ev = events.map ClEvent.ev ∧ ∀ c ∈ q.removed, c.status ≠ .LOCK

end Finish

section Completion

/-- The value that `clWaitForEvents` takes, and the status it leaves. -/
def CommandType.awaited : CommandType → Nat
  | .CL_COMMAND_READ_BUFFER => MangoEventStatus.READ.value
  | .CL_COMMAND_WRITE_BUFFER => MangoEventStatus.WRITE.value
  | .CL_COMMAND_NDRANGE_KERNEL => 1

def CommandType.done : CommandType → MangoEventStatus
  | .CL_COMMAND_READ_BUFFER => .READ
  | .CL_COMMAND_WRITE_BUFFER => .WRITE
  | .CL_COMMAND_NDRANGE_KERNEL => .END_FIFO_OPERATION

theorem CommandType.awaited_ne (t : CommandType) : t.awaited ≠ 0 := by cases t <;> decide

theorem CommandType.done_ne (t : CommandType) : t.done ≠ .LOCK := by cases t <;> decide

variable {tg : TaskGraph} {c : ClEvent} {e e' : Event} {regs : Registers}

def held (tg : TaskGraph) (regs : Registers) (ev : Nat) : Option Nat :=
  (getEvent tg ev).map fun e => regs e.clusterId e.phyAddr

theorem bind_of_taken {α β : Type} (p : Prop) [Decidable p] (taken : α) (rest : α → Option β) :
    (if p then some taken else none).bind rest = if p then rest taken else none := by
  split <;> rfl

theorem clWaitForEvents_locked (locked : c.status = .LOCK) (known : getEvent tg c.ev = some e)
    (fuel : Nat) : clWaitForEvents tg fuel c regs =
      if fuel ≠ 0 ∧ regs e.clusterId e.phyAddr = c.eventType.awaited then
        some ({ c with status := c.eventType.done }, regs.write e.clusterId e.phyAddr 0)
      else none := by
  have waited : ∀ state, state ≠ 0 →
      (eventWaitState (register e) state).call.alone hnExec fuel regs =
        if fuel ≠ 0 ∧ regs e.clusterId e.phyAddr = state then some (regs.write e.clusterId e.phyAddr 0)
        else none := by
    intro state filled
    match fuel with
    | 0 => exact wait_alone_zero .poll regs
    | fuel + 1 => simpa using wait_alone (e := register e) filled fuel regs
  rw [clWaitForEvents, if_pos locked]
  match c with
  | ⟨ev, .CL_COMMAND_READ_BUFFER, status⟩ =>
    simp only [mangoWaitState, known, Option.bind_eq_bind, Option.bind_some,
      waited MangoEventStatus.READ.value (by decide), CommandType.awaited, bind_of_taken]
    rfl
  | ⟨ev, .CL_COMMAND_WRITE_BUFFER, status⟩ =>
    simp only [mangoWaitState, known, Option.bind_eq_bind, Option.bind_some,
      waited MangoEventStatus.WRITE.value (by decide), CommandType.awaited, bind_of_taken]
    rfl
  | ⟨ev, .CL_COMMAND_NDRANGE_KERNEL, status⟩ =>
    have plain : eventWait (register e) false = eventWaitState (register e) 1 := rfl
    simp only [mangoWait, known, Option.bind_eq_bind, Option.bind_some, plain,
      waited 1 (by decide), CommandType.awaited, bind_of_taken]
    rfl

theorem getEvent_mem {id : Nat} (known : getEvent tg id = some e) : e ∈ tg.events ∧ e.id = id :=
  ⟨List.mem_of_find?_eq_some known, by simpa using List.find?_some known⟩

theorem getEvent_of_mem (wired : tg.Wired) (member : e ∈ tg.events) : getEvent tg e.id = some e := by
  rcases found : getEvent tg e.id with _ | other
  · have missed := List.find?_eq_none.mp found e member
    simp at missed
  · obtain ⟨member', same⟩ := getEvent_mem found
    rw [wired.same other member' e member same]

theorem held_write {ev : Nat} (own : OwnRegisters tg regs) (known : getEvent tg ev = some e)
    (current : Registers) (value ev' : Nat) :
    held tg (current.write e.clusterId e.phyAddr value) ev' =
      if ev' = ev then some value else held tg current ev' := by
  obtain ⟨member, id⟩ := getEvent_mem known
  by_cases same : ev' = ev
  · subst same
    rw [held, known, if_pos rfl, Option.map_some, Registers.write_get, if_pos ⟨rfl, rfl⟩]
  · rw [if_neg same, held, held]
    rcases known' : getEvent tg ev' with _ | e'
    · rfl
    · obtain ⟨member', id'⟩ := getEvent_mem known'
      have other : ¬ (e'.clusterId = e.clusterId ∧ e'.phyAddr = e.phyAddr) := by
        rintro ⟨cluster, addr⟩
        have one := own.apart e' member' e member cluster addr
        exact same (by rw [← id', ← id, one])
      rw [Option.map_some, Option.map_some, Registers.write_get, if_neg other]

variable {events : List ClEvent}

theorem finishLoop_append (fuel : Nat) (locked : c.status = .LOCK) (known : getEvent tg c.ev = some e)
    (current : Registers) (removed : List ClEvent) :
    finishLoop tg fuel (events ++ [c]).length ⟨events ++ [c], removed, current⟩ =
      if fuel ≠ 0 ∧ current e.clusterId e.phyAddr = c.eventType.awaited then
        finishLoop tg fuel events.length ⟨events, { c with status := c.eventType.done } :: removed,
          current.write e.clusterId e.phyAddr 0⟩
      else none := by
  rw [List.length_append, List.length_singleton, finishLoop]
  simp only [List.getLast?_concat, Option.bind_eq_bind, Option.bind_some,
    clWaitForEvents_locked locked known, bind_of_taken, List.dropLast_concat]

theorem finishLoop_iff {fuel : Nat} (own : OwnRegisters tg regs)
    (locked : ∀ c ∈ events, c.status = .LOCK) (known : ∀ c ∈ events, ∃ e, getEvent tg c.ev = some e)
    (current : Registers) (removed : List ClEvent) :
    (∃ q, finishLoop tg fuel events.length ⟨events, removed, current⟩ = some q) ↔
      (events ≠ [] → fuel ≠ 0) ∧ (events.map ClEvent.ev).Nodup ∧
        ∀ c ∈ events, held tg current c.ev = some c.eventType.awaited := by
  induction events using List.reverseRecOn generalizing current removed with
  | nil => simp [finishLoop]
  | append_singleton events c ih =>
    obtain ⟨e, here⟩ := known c (by simp)
    have before : ∀ c' ∈ events, ∃ e', getEvent tg c'.ev = some e' :=
      fun c' member => known c' (List.mem_append_left _ member)
    have ready : held tg current c.ev = some c.eventType.awaited ↔
        current e.clusterId e.phyAddr = c.eventType.awaited := by simp [held, here]
    -- what is left has its values if and only if none of it stands for the same event
    have rest : (∀ c' ∈ events,
        held tg (current.write e.clusterId e.phyAddr 0) c'.ev = some c'.eventType.awaited) ↔
        c.ev ∉ events.map ClEvent.ev ∧ ∀ c' ∈ events, held tg current c'.ev = some c'.eventType.awaited := by
      have one : ∀ c' ∈ events,
          (held tg (current.write e.clusterId e.phyAddr 0) c'.ev = some c'.eventType.awaited ↔
            c'.ev ≠ c.ev ∧ held tg current c'.ev = some c'.eventType.awaited) := by
        intro c' member
        rw [held_write own here]
        by_cases same : c'.ev = c.ev
        · simp [same, c'.eventType.awaited_ne.symm]
        · simp [same]
      constructor
      · intro all
        refine ⟨fun listed => ?_, fun c' member => ((one c' member).mp (all c' member)).2⟩
        obtain ⟨c', member, same⟩ := List.mem_map.mp listed
        exact ((one c' member).mp (all c' member)).1 same
      · intro both c' member
        exact (one c' member).mpr ⟨fun same => both.1 (same ▸ List.mem_map_of_mem member), both.2 c' member⟩
    have nodup : ((events ++ [c]).map ClEvent.ev).Nodup ↔
        (events.map ClEvent.ev).Nodup ∧ c.ev ∉ events.map ClEvent.ev := by
      rw [List.map_append, List.map_singleton, List.nodup_append_comm, List.singleton_append,
        List.nodup_cons, and_comm]
    have all : (∀ c' ∈ events ++ [c], held tg current c'.ev = some c'.eventType.awaited) ↔
        (∀ c' ∈ events, held tg current c'.ev = some c'.eventType.awaited) ∧
          held tg current c.ev = some c.eventType.awaited := by
      simp [or_imp, forall_and]
    have later := ih (fun c' member => locked c' (List.mem_append_left _ member)) before
      (current.write e.clusterId e.phyAddr 0) ({ c with status := c.eventType.done } :: removed)
    rw [finishLoop_append fuel (locked c (by simp)) here, nodup, all, ready]
    by_cases now : fuel ≠ 0 ∧ current e.clusterId e.phyAddr = c.eventType.awaited
    · rw [if_pos now, later, rest]
      simp [now.1, now.2, and_assoc]
    · rw [if_neg now]
      constructor
      · rintro ⟨q, stuck⟩
        cases stuck
      · rintro ⟨steps, -, -, value⟩
        exact absurd ⟨steps (by simp), value⟩ now

theorem finishLoop_removed {fuel : Nat} {current : Registers} {removed : List ClEvent} {q : Queue}
    (locked : ∀ c ∈ events, c.status = .LOCK) (known : ∀ c ∈ events, ∃ e, getEvent tg c.ev = some e)
    (run : finishLoop tg fuel events.length ⟨events, removed, current⟩ = some q) :
    q.events = [] ∧ q.removed.map ClEvent.ev = events.map ClEvent.ev ++ removed.map ClEvent.ev ∧
      ∀ c ∈ q.removed, c ∈ removed ∨ c.status ≠ .LOCK := by
  induction events using List.reverseRecOn generalizing current removed with
  | nil =>
    cases run
    exact ⟨rfl, rfl, fun c member => .inl member⟩
  | append_singleton events c ih =>
    obtain ⟨e, here⟩ := known c (by simp)
    rw [finishLoop_append fuel (locked c (by simp)) here] at run
    split at run
    · obtain ⟨empty, all, waited⟩ := ih (fun c' member => locked c' (List.mem_append_left _ member))
        (fun c' member => known c' (List.mem_append_left _ member)) run
      refine ⟨empty, by simpa using all, fun c' member => ?_⟩
      rcases waited c' member with listed | ended
      · rcases List.mem_cons.mp listed with rfl | earlier
        · exact .inr c.eventType.done_ne
        · exact .inl earlier
      · exact .inr ended
    · cases run

/-- `clFinish` returns if and only if each event of the queue is there once and holds its value. -/
theorem finishes_iff (own : OwnRegisters tg regs) (locked : ∀ c ∈ events, c.status = .LOCK)
    (known : ∀ c ∈ events, ∃ e, getEvent tg c.ev = some e) (current : Registers) :
    Finishes tg events current ↔ (events.map ClEvent.ev).Nodup ∧
      ∀ c ∈ events, held tg current c.ev = some c.eventType.awaited := by
  constructor
  · rintro ⟨fuel, q, run, -⟩
    exact ((finishLoop_iff own locked known current []).mp ⟨q, run⟩).2
  · intro ready
    obtain ⟨q, run⟩ : ∃ q, finishLoop tg 1 events.length ⟨events, [], current⟩ = some q :=
      (finishLoop_iff own locked known current []).mpr ⟨fun _ => Nat.one_ne_zero, ready⟩
    obtain ⟨empty, all, waited⟩ := finishLoop_removed locked known run
    refine ⟨1, q, run, empty, by simpa using all, fun c member => ?_⟩
    exact (waited c member).resolve_left (List.not_mem_nil)

end Completion

section Enqueue

/-- What the host enqueues, and the ends of launches. Buffers and kernels are known by their ids. -/
inductive Action where
  | enqueueWriteBuffer (buffer : Nat)
  | enqueueTask (kernel : Nat)
  | close (kernel : Nat)
  deriving DecidableEq, Repr

/-- The queue, the registers, and the termination events of the launches that have not ended. -/
structure Enqueued where
  events : List ClEvent
  regs : Registers
  flying : List Event

def getBuffer (tg : TaskGraph) (id : Nat) : Option Buffer := tg.buffers.find? fun b => b.id = id

namespace Enqueued

variable (tg : TaskGraph) (s : Enqueued)

def start (regs : Registers) : Enqueued := ⟨[], regs, []⟩

/-- A DIRECT write leaves the registers alone; `none` where an assertion fails. -/
def clEnqueueWriteBuffer (buffer : Nat) : Option Enqueued := do
  let b ← getBuffer tg buffer
  if b.event.id = 0 then none
  return { s with events := s.events ++ [newClEvent b.event.id .CL_COMMAND_WRITE_BUFFER] }

/-- `start_kernel` resets the register. The event that is looked up first is that of `NULL`. -/
def clEnqueueTask (kernel : Nat) : Option Enqueued := do
  let k ← tg.getKernelById kernel
  let _ ← getEvent tg 0
  let re := k.terminationEvent
  return ⟨s.events ++ [newClEvent re.id .CL_COMMAND_NDRANGE_KERNEL],
    s.regs.write re.clusterId re.phyAddr 0, re :: s.flying⟩

def mangoClose (kernel : Nat) : Option Enqueued := do
  let k ← tg.getKernelById kernel
  let e := k.terminationEvent
  if e ∈ s.flying then
    return { s with regs := s.regs.write e.clusterId e.phyAddr 1, flying := s.flying.erase e }
  else none

def step (s : Enqueued) : Action → Option Enqueued
  | .enqueueWriteBuffer buffer => s.clEnqueueWriteBuffer tg buffer
  | .enqueueTask kernel => s.clEnqueueTask tg kernel
  | .close kernel => s.mangoClose tg kernel

end Enqueued

def Action.event (tg : TaskGraph) : Action → Option Nat
  | .enqueueWriteBuffer buffer => (getBuffer tg buffer).map fun b => b.event.id
  | .enqueueTask kernel => (tg.getKernelById kernel).map fun k => k.terminationEvent.id
  | .close _ => none

variable {tg : TaskGraph} {regs : Registers} {s s' : Enqueued} {actions : List Action}

/-- The register of a launched kernel holds 1 unless a launch is running, and the others hold what
    they held before. -/
structure Settling (tg : TaskGraph) (regs : Registers) (actions : List Action) (s : Enqueued) : Prop where
  events : s.events.map ClEvent.ev = actions.filterMap (Action.event tg)
  locked : ∀ c ∈ s.events, c.status = .LOCK
  known : ∀ c ∈ s.events, c.eventType = .CL_COMMAND_WRITE_BUFFER ∧ (∃ b ∈ tg.buffers, c.ev = b.event.id) ∨
    c.eventType = .CL_COMMAND_NDRANGE_KERNEL ∧ ∃ k ∈ tg.kernels, c.ev = k.terminationEvent.id
  launched : ∀ c ∈ s.events, c.eventType = .CL_COMMAND_NDRANGE_KERNEL →
    (∀ e ∈ s.flying, e.id ≠ c.ev) → held tg s.regs c.ev = some 1
  flying : ∀ e ∈ s.flying, newClEvent e.id .CL_COMMAND_NDRANGE_KERNEL ∈ s.events
  others : ∀ ev, newClEvent ev .CL_COMMAND_NDRANGE_KERNEL ∉ s.events → held tg s.regs ev = held tg regs ev

theorem getKernelById_mem {id : Nat} {k : Kernel} (found : tg.getKernelById id = some k) :
    k ∈ tg.kernels := (TaskGraph.getKernelById_some found).1

theorem Settling.writeBuffer {buffer : Nat} (settling : Settling tg regs actions s)
    (run : s.clEnqueueWriteBuffer tg buffer = some s') :
    Settling tg regs (actions ++ [.enqueueWriteBuffer buffer]) s' := by
  obtain ⟨b, found, run⟩ := Option.bind_eq_some_iff.mp run
  split at run
  · cases run
  cases run
  have member : b ∈ tg.buffers := List.mem_of_find?_eq_some found
  constructor
  · simp [settling.events, Action.event, found, newClEvent]
  · intro c listed
    rcases List.mem_append.mp listed with earlier | this
    · exact settling.locked c earlier
    · rw [List.mem_singleton.mp this]
      rfl
  · intro c listed
    rcases List.mem_append.mp listed with earlier | this
    · exact settling.known c earlier
    · rw [List.mem_singleton.mp this]
      exact .inl ⟨rfl, b, member, rfl⟩
  · intro c listed kernel ended
    rcases List.mem_append.mp listed with earlier | this
    · exact settling.launched c earlier kernel ended
    · rw [List.mem_singleton.mp this] at kernel
      cases kernel
  · exact fun e running => List.mem_append_left _ (settling.flying e running)
  · exact fun ev other => settling.others ev fun listed => other (List.mem_append_left _ listed)

theorem Settling.task {kernel : Nat} (own : OwnRegisters tg regs)
    (settling : Settling tg regs actions s) (run : s.clEnqueueTask tg kernel = some s') :
    Settling tg regs (actions ++ [.enqueueTask kernel]) s' := by
  obtain ⟨k, found, run⟩ := Option.bind_eq_some_iff.mp run
  obtain ⟨null, _, run⟩ := Option.bind_eq_some_iff.mp run
  cases run
  have member : k ∈ tg.kernels := getKernelById_mem found
  have known := getEvent_of_mem own.wired (own.wired.kernels k member)
  constructor
  · simp [settling.events, Action.event, found, newClEvent]
  · intro c listed
    rcases List.mem_append.mp listed with earlier | this
    · exact settling.locked c earlier
    · rw [List.mem_singleton.mp this]
      rfl
  · intro c listed
    rcases List.mem_append.mp listed with earlier | this
    · exact settling.known c earlier
    · rw [List.mem_singleton.mp this]
      exact .inr ⟨rfl, k, member, rfl⟩
  · intro c listed launched ended
    have other : c.ev ≠ k.terminationEvent.id := (ended _ List.mem_cons_self).symm
    rw [held_write own known, if_neg other]
    rcases List.mem_append.mp listed with earlier | this
    · exact settling.launched c earlier launched fun e running => ended e (List.mem_cons_of_mem _ running)
    · rw [List.mem_singleton.mp this] at other
      exact absurd rfl other
  · intro e running
    rcases List.mem_cons.mp running with rfl | running
    · exact List.mem_append_right _ (List.mem_singleton_self _)
    · exact List.mem_append_left _ (settling.flying e running)
  · intro ev unlaunched
    have other : ev ≠ k.terminationEvent.id := by
      rintro rfl
      exact unlaunched (List.mem_append_right _ (List.mem_singleton_self _))
    rw [held_write own known, if_neg other]
    exact settling.others ev fun listed => unlaunched (List.mem_append_left _ listed)

theorem Settling.close {kernel : Nat} (own : OwnRegisters tg regs)
    (settling : Settling tg regs actions s) (run : s.mangoClose tg kernel = some s') :
    Settling tg regs (actions ++ [.close kernel]) s' := by
  obtain ⟨k, found, run⟩ := Option.bind_eq_some_iff.mp run
  have known := getEvent_of_mem own.wired (own.wired.kernels k (getKernelById_mem found))
  simp only at run
  split at run
  · next running =>
    cases run
    constructor
    · simp [settling.events, Action.event]
    · exact settling.locked
    · exact settling.known
    · intro c listed launched ended
      rw [held_write own known]
      by_cases same : c.ev = k.terminationEvent.id
      · rw [if_pos same]
      · rw [if_neg same]
        apply settling.launched c listed launched
        intro e flying
        by_cases this : e = k.terminationEvent
        · exact this ▸ Ne.symm same
        · exact ended e ((List.mem_erase_of_ne this).mpr flying)
    · exact fun e flying => settling.flying e (List.mem_of_mem_erase flying)
    · intro ev unlaunched
      have other : ev ≠ k.terminationEvent.id := by
        rintro rfl
        exact unlaunched (settling.flying _ running)
      rw [held_write own known, if_neg other]
      exact settling.others ev unlaunched
  · cases run

theorem settling_run (own : OwnRegisters tg regs)
    (run : actions.foldlM (Enqueued.step tg) (.start regs) = some s) : Settling tg regs actions s := by
  refine Fallible.foldlM_invariant (motive := fun done s => Settling tg regs done s)
    (fun done action s s' _ settling one => ?_) ?_ run
  · cases action with
    | enqueueWriteBuffer buffer => exact settling.writeBuffer one
    | enqueueTask kernel => exact settling.task own one
    | close kernel => exact settling.close own one
  · constructor <;> simp [Enqueued.start]

theorem finishes_settled (own : OwnRegisters tg regs)
    (run : actions.foldlM (Enqueued.step tg) (.start regs) = some s) (ended : s.flying = []) :
    Finishes tg s.events s.regs ↔ (actions.filterMap (Action.event tg)).Nodup := by
  have settling := settling_run own run
  have known : ∀ c ∈ s.events, ∃ e ∈ tg.events, e.id = c.ev := by
    intro c member
    rcases settling.known c member with ⟨_, b, listed, same⟩ | ⟨_, k, listed, same⟩
    · exact ⟨b.event, own.wired.buffers b listed, same.symm⟩
    · exact ⟨k.terminationEvent, own.wired.kernels k listed, same.symm⟩
  have found : ∀ c ∈ s.events, ∃ e, getEvent tg c.ev = some e := by
    intro c member
    obtain ⟨e, listed, same⟩ := known c member
    exact ⟨e, same ▸ getEvent_of_mem own.wired listed⟩
  rw [finishes_iff own settling.locked found, settling.events]
  constructor
  · exact fun ready => ready.1
  · intro distinct
    refine ⟨distinct, fun c member => ?_⟩
    rcases settling.known c member with ⟨write, b, listed, same⟩ | ⟨launch, -⟩
    · -- a kernel with the same event would be in the queue as well
      have unlaunched : newClEvent c.ev .CL_COMMAND_NDRANGE_KERNEL ∉ s.events := by
        intro twin
        have one := List.inj_on_of_nodup_map (settling.events ▸ distinct) twin member rfl
        rw [← one] at write
        cases write
      rw [settling.others c.ev unlaunched, write, same, held, getEvent_of_mem own.wired (own.wired.buffers b listed)]
      exact congrArg some (own.written b listed)
    · rw [launch]
      exact settling.launched c member launch (by simp [ended])

end Enqueue

section Allocated

variable {created : Nat} {h : History} {tg : TaskGraph} {manager : BbqueGraph → BbqueGraph}
  {outcome : Nat → Bool} {regs : Registers} {mm : Mm} {r : Allocated} {actions : List Action}
  {s : Enqueued}

/-- When all launches have ended, `clFinish` completes if and only if no MANGO event stands twice in
    the queue: no buffer has been written twice, and no kernel launched twice. -/
theorem clFinish_completes_iff (made : PublicGraph created h tg) (few : h.2.created ≤ 2^32)
    (faithful : Faithful manager) (run : resourceAllocation manager outcome tg regs mm = some r)
    (enqueued : actions.foldlM (Enqueued.step r.tg) (.start r.regs) = some s)
    (ended : s.flying = []) :
    Finishes r.tg s.events s.regs ↔ (actions.filterMap (Action.event r.tg)).Nodup :=
  finishes_settled (resourceAllocation_registers faithful (made.built.2.wired made.built.1 few) run)
    enqueued ended

theorem placeOn_faithful (units : Nat → Nat × ArchType) : Faithful (placeOn units) where
  buffers g id asked := by simpa [placeOn] using asked
  events g id asked := by simpa [placeOn] using asked
  apart g id id' addr here here' := by
    simp only [placeOn, Std.TreeMap.getElem?_map, Option.map_eq_some_iff] at here here'
    obtain ⟨_, _, same⟩ := here
    obtain ⟨_, _, same'⟩ := here'
    omega

/-- A session with one kernel, which reads one buffer. -/
structure SmallSession where
  h : History
  tg : TaskGraph
  r : Allocated
  s : Enqueued

def smallSession (actions : List Action) : Option SmallSession := do
  let h ← History.registerAll 0 [.kernel 1 oneKernel [1] [], .memory 1 64 .BUFFER [0] [1]]
  let tg ← mangoTaskGraphCreate h.2.cxt [1] [1] []
  let r ← resourceAllocation (placeOn fun _ => (5, .GN)) (fun _ => true) tg (fun _ _ => 0) .start
  let s ← actions.foldlM (Enqueued.step r.tg) (.start r.regs)
  return ⟨h, tg, r, s⟩

theorem smallSession_cases {w : SmallSession} (run : smallSession actions = some w) :
    PublicGraph 0 w.h w.tg ∧
      resourceAllocation (placeOn fun _ => (5, .GN)) (fun _ => true) w.tg (fun _ _ => 0) .start = some w.r ∧
      actions.foldlM (Enqueued.step w.r.tg) (.start w.r.regs) = some w.s := by
  simp only [smallSession, Option.bind_eq_bind, Option.bind_eq_some_iff] at run
  obtain ⟨h, registered, tg, built, r, allocated, s, enqueued, same⟩ := run
  cases same
  exact ⟨.create registered built, allocated, enqueued⟩

theorem clFinish_write_and_task : ∃ w,
    smallSession [.enqueueWriteBuffer 1, .enqueueTask 1, .close 1] = some w ∧
      (Finishes w.r.tg w.s.events w.s.regs ↔
        ([.enqueueWriteBuffer 1, .enqueueTask 1, .close 1].filterMap (Action.event w.r.tg)).Nodup) := by
  have facts : (smallSession [.enqueueWriteBuffer 1, .enqueueTask 1, .close 1]).map
      (fun w => (w.h.2.created, w.s.flying)) = some (5, []) := by decide
  obtain ⟨w, run, same⟩ := Option.map_eq_some_iff.mp facts
  obtain ⟨few, ended⟩ := Prod.mk.inj same
  obtain ⟨made, allocated, enqueued⟩ := smallSession_cases run
  exact ⟨w, run, clFinish_completes_iff made (by rw [few]; decide) (placeOn_faithful _) allocated
    enqueued ended⟩

/-- The second wait for the buffer's event finds its register empty. -/
theorem clFinish_written_twice : ∃ w,
    smallSession [.enqueueWriteBuffer 1, .enqueueWriteBuffer 1] = some w ∧ w.s.flying = [] ∧
      ¬ Finishes w.r.tg w.s.events w.s.regs := by
  have facts : (smallSession [.enqueueWriteBuffer 1, .enqueueWriteBuffer 1]).map
      (fun w => (w.h.2.created, w.s.flying, [.enqueueWriteBuffer 1, .enqueueWriteBuffer 1].filterMap
        (Action.event w.r.tg))) = some (5, [], [4, 4]) := by decide
  obtain ⟨w, run, same⟩ := Option.map_eq_some_iff.mp facts
  obtain ⟨few, rest⟩ := Prod.mk.inj same
  obtain ⟨ended, twice⟩ := Prod.mk.inj rest
  obtain ⟨made, allocated, enqueued⟩ := smallSession_cases run
  have own := resourceAllocation_registers (placeOn_faithful _)
    (made.built.2.wired made.built.1 (by rw [few]; decide)) allocated
  refine ⟨w, run, ended, fun finishes => ?_⟩
  have distinct := (finishes_settled own enqueued ended).mp finishes
  rw [twice] at distinct
  exact absurd distinct (by decide)

end Allocated

end MangoModel.OpenCL
