import LibMango.OpenCL.Process

namespace MangoModel.OpenCL

open Host

section Model

/-- The two contexts of a process, which both stand for `cxt`. -/
inductive Client where
  | A
  | B
  deriving DecidableEq, Repr

/-- An operation on a context or its objects; an event is known by its place among those that the
    client has been given. -/
inductive ClCommand where
  | createContext (processName recipe : String)
  | releaseContext
  | createKernel (kernelId : Nat) (f : KernelFunction) (buffersIn buffersOut : List Nat)
  | createBuffer (flags size : Nat) (kernelsIn kernelsOut : List Nat) (bufferId : Nat)
  | releaseMemObject (buffer : Nat)
  | setScalarArg (kernel : Nat)
  | setBufferArg (kernel buffer : Nat)
  | setEventArg (kernel buffer : Nat)
  | enqueueTask (kernel : Nat)
  | enqueueWriteBuffer (data : Nat → Nat) (buffer : Nat)
  | enqueueReadBuffer (buffer : Nat)
  | waitForEvent (place : Nat)

/-- What a lookup finds. -/
inductive Found where
  | kernel (k : Option Kernel)
  | buffer (b : Option Buffer)
  | event (e : Option Event)

structure Clients where
  process : Process
  events : Client → List Nat

/-- The buffer that a call registers; `none` where it throws. -/
def bufferRegistration (flags size : Nat) (kernelsIn kernelsOut : List Nat) (bufferId : Nat) :
    Option Registration := do
  if size = 0 then none
  let lists ← bufferKernels flags kernelsIn kernelsOut
  return .memory bufferId size .BUFFER lists.1 lists.2

namespace Clients

variable (w : Clients) (c : Client)

def start : Clients := ⟨.start, fun _ => []⟩

def give (ev : Nat) : Clients := { w with events := Function.update w.events c (w.events c ++ [ev]) }

/-- The object is looked up again, for the task graph of the queue. -/
def createKernel (kernelId : Nat) (f : KernelFunction) (buffersIn buffersOut : List Nat) :
    Option Clients := do
  let p ← w.process.register (.kernel kernelId f buffersIn buffersOut)
  let _ ← p.registry.getKernel kernelId
  return { w with process := p }

def createBuffer (flags size : Nat) (kernelsIn kernelsOut : List Nat) (bufferId : Nat) :
    Option Clients := do
  let r ← bufferRegistration flags size kernelsIn kernelsOut bufferId
  let p ← w.process.register r
  let _ ← p.registry.getBuffer bufferId
  return { w with process := p }

def setBufferArg (kernel buffer : Nat) : Option Clients := do
  let s ← w.process.context
  let _ ← s.getKernel kernel
  let _ ← s.getBuffer buffer
  return w

def setEventArg (kernel buffer : Nat) : Option Clients := do
  let s ← w.process.context
  let ev ← mangoGetBufferEvent s.cxt buffer
  let _ ← s.getKernel kernel
  let _ ← s.getEvent ev
  return w.give c ev

/-- Up to the call of `BBQContext::start_kernel`. -/
def enqueueTask (kernel : Nat) : Option Clients := do
  let s ← w.process.context
  let (k, _) ← (mangoStartKernel s.cxt kernel (some []) 0).toOption
  return w.give c k.terminationEvent.id

def enqueueWriteBuffer (data : Nat → Nat) (buffer : Nat) : Option Clients := do
  let s ← w.process.context
  let (b, _) ← mangoWrite s.cxt data buffer .DIRECT 0
  return w.give c b.event.id

def enqueueReadBuffer (buffer : Nat) : Option Clients := do
  let s ← w.process.context
  let (b, _) ← mangoRead s.cxt buffer .DIRECT 0
  return w.give c b.event.id

def waitForEvent (place : Nat) : Option Clients := do
  let s ← w.process.context
  let ev ← (w.events c)[place]?
  let _ ← s.getEvent ev
  return w

/-- `none` where a call throws, ends the process or uses a deleted context. -/
def step : Client × ClCommand → Option Clients
  | (_, .createContext processName recipe) =>
    (w.process.init processName recipe).map fun p => { w with process := p }
  | (_, .releaseContext) => w.process.release.map fun p => { w with process := p }
  | (_, .createKernel kernelId f buffersIn buffersOut) => w.createKernel kernelId f buffersIn buffersOut
  | (_, .createBuffer flags size kernelsIn kernelsOut bufferId) =>
    w.createBuffer flags size kernelsIn kernelsOut bufferId
  | (_, .releaseMemObject buffer) =>
    (w.process.deregisterMemory buffer).map fun p => { w with process := p }
  | (_, .setScalarArg kernel) => do
    let s ← w.process.context
    let _ ← s.getKernel kernel
    return w
  | (_, .setBufferArg kernel buffer) => w.setBufferArg kernel buffer
  | (c, .setEventArg kernel buffer) => w.setEventArg c kernel buffer
  | (c, .enqueueTask kernel) => w.enqueueTask c kernel
  | (c, .enqueueWriteBuffer data buffer) => w.enqueueWriteBuffer c data buffer
  | (c, .enqueueReadBuffer buffer) => w.enqueueReadBuffer c buffer
  | (c, .waitForEvent place) => w.waitForEvent c place

end Clients

/-- What the lookups of a command find, in a context and with the events of the client. -/
def lookups (s : Registry) (events : List Nat) : ClCommand → List Found
  | .createContext _ _ | .releaseContext => []
  | .createKernel kernelId f buffersIn buffersOut =>
    match s.register (.kernel kernelId f buffersIn buffersOut) with
    | some (_, s) => [.kernel (s.getKernel kernelId)]
    | none => []
  | .createBuffer flags size kernelsIn kernelsOut bufferId =>
    match (bufferRegistration flags size kernelsIn kernelsOut bufferId).bind s.register with
    | some (_, s) => [.buffer (s.getBuffer bufferId)]
    | none => []
  | .releaseMemObject buffer | .enqueueWriteBuffer _ buffer | .enqueueReadBuffer buffer =>
    [.buffer (s.getBuffer buffer)]
  | .setScalarArg kernel => [.kernel (s.getKernel kernel)]
  | .setBufferArg kernel buffer => [.kernel (s.getKernel kernel), .buffer (s.getBuffer buffer)]
  | .setEventArg kernel buffer =>
    [.buffer (s.getBuffer buffer), .kernel (s.getKernel kernel),
      .event ((s.getBuffer buffer).bind fun b => s.getEvent b.event.id)]
  | .enqueueTask kernel => [.kernel (s.getKernel kernel), .event (s.getEvent 0)]
  | .waitForEvent place => [.event (events[place]?.bind s.getEvent)]

section Numbers

/-- The ids of events come from one counter, and so they are others when there are other objects. -/
def renumberEvent (number : Nat → Nat) (e : Event) : Event := { e with id := number e.id }

def renumberKernel (number : Nat → Nat) (k : Kernel) : Kernel := k.mapEvents (renumberEvent number)

def renumberBuffer (number : Nat → Nat) (b : Buffer) : Buffer :=
  { b with event := renumberEvent number b.event }

def Found.renumber (number : Nat → Nat) : Found → Found
  | .kernel k => .kernel (k.map (renumberKernel number))
  | .buffer b => .buffer (b.map (renumberBuffer number))
  | .event e => .event (e.map (renumberEvent number))

end Numbers

def onlyA (commands : List (Client × ClCommand)) : List (Client × ClCommand) :=
  commands.filter fun command => command.1 = .A

/-- Each lookup by a command on A in a run from `w` finds what it finds in the run from `w₀` without the
    commands on B, with the ids of events renumbered. -/
def Followed (number : Nat → Nat) (commands : List (Client × ClCommand)) (w w₀ : Clients) : Prop :=
  ∀ done command rest w' w₀' s₀, commands = done ++ (.A, command) :: rest →
    done.foldlM Clients.step w = some w' → (onlyA done).foldlM Clients.step w₀ = some w₀' →
    w₀'.process.context = some s₀ →
    ∃ s, w'.process.context = some s ∧
      lookups s (w'.events .A) command =
        (lookups s₀ (w₀'.events .A) command).map (Found.renumber number)

/-- One renumbering of the events serves the whole run. -/
def Undisturbed (commands : List (Client × ClCommand)) : Prop :=
  ∃ number, Function.Injective number ∧ Followed number commands .start .start

section Condition

def Vacant (s : Registry) : Prop :=
  (∀ id, s.getKernel id = none) ∧ (∀ id, s.getBuffer id = none) ∧ ∀ id, s.getEvent id = none

def ClCommand.kernelIds : ClCommand → List Nat
  | .createKernel kernelId _ _ _ => [kernelId]
  | .setScalarArg kernel | .setBufferArg kernel _ | .setEventArg kernel _ | .enqueueTask kernel => [kernel]
  | _ => []

def ClCommand.bufferIds : ClCommand → List Nat
  | .createBuffer _ _ _ _ bufferId => [bufferId]
  | .releaseMemObject buffer | .setBufferArg _ buffer | .setEventArg _ buffer => [buffer]
  | .enqueueWriteBuffer _ buffer | .enqueueReadBuffer buffer => [buffer]
  | _ => []

/-- `s` has the objects of both contexts, and `p` is the process with those of A alone. A uses no id
    that only B has; B creates its context while A has no objects and releases it while A has no
    context, creates objects after A has created one, and releases no buffer with an id of A's. -/
def Separate (s : Registry) (p : Process) : Client × ClCommand → Prop
  | (.A, command) =>
    (∀ id ∈ command.kernelIds, (s.getKernel id).isSome → (p.registry.getKernel id).isSome) ∧
      ∀ id ∈ command.bufferIds, (s.getBuffer id).isSome → (p.registry.getBuffer id).isSome
  | (.B, .createContext _ _) => Vacant p.registry
  | (.B, .releaseContext) => p.cxt ≠ .valid
  | (.B, .createKernel _ _ _ _) | (.B, .createBuffer _ _ _ _ _) => p.registry.created ≠ 0
  | (.B, .releaseMemObject buffer) => p.registry.getBuffer buffer = none
  | _ => True

/-- The events that a command makes at most. -/
def ClCommand.makes : ClCommand → Nat
  | .createKernel _ _ _ _ => 4
  | .createBuffer _ _ _ _ _ => 1
  | _ => 0

/-- The condition along a run, which makes no more than 2^32 events, and the run of A alone. -/
def Separated : List (Client × ClCommand) → Clients → Clients → Prop
  | [], _, _ => True
  | command :: rest, w, w₀ =>
    w.process.registry.created + command.2.makes ≤ 2^32 ∧
      Separate w.process.registry w₀.process command ∧
      ∀ w' w₀', w.step command = some w' →
        (if command.1 = .A then w₀.step command else some w₀) = some w₀' → Separated rest w' w₀'

end Condition

end Model

end MangoModel.OpenCL
