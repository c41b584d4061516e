import LibMango.Host.TaskGraph
import LibMango.OpenCL.Finish
import LibMango.OpenCL.Process

namespace MangoModel.OpenCL

open Host

section Model

/-- What a client can hold, by its address. -/
inductive Handle where
  | queue (address : Nat)
  | kernel (address : Nat)
  | mem (address : Nat)
  | event (address : Nat)
  deriving DecidableEq, Repr

structure LiveQueue where
  ctx : Nat
  tgx : Option Nat
  events : List Nat

/-- A kernel with the context of its program. -/
structure LiveKernel where
  ctx : Nat
  kernel : Nat

structure LiveMem where
  ctx : Nat
  buffer : Nat

structure LiveEvent extends ClEvent where
  ctx : Nat

/-- The live objects, what contexts and devices point to, the runtime's context, the next address,
    and what the client holds: the handles that it has been given and has not released. -/
structure Objects where
  queues : Nat → Option LiveQueue
  graphs : Nat → Option TaskGraph
  kernels : Nat → Option LiveKernel
  mems : Nat → Option LiveMem
  events : Nat → Option LiveEvent
  contextQueue : Nat → Option Nat
  deviceQueue : Nat → Option Nat
  memObjects : Nat → List Nat
  registry : Registry
  next : Nat
  held : List Handle

/-- An object is freed or read that is not live; or the process ends, by an exception, a failed
    assertion or a null pointer. -/
inductive Fault where
  | freed
  | read
  | ended
  deriving DecidableEq, Repr

/-- The calls, with arguments that are not null and a kernel that its program has; with others a call
    returns an error code at once. An event is `wanted` when the call is given a place for it. -/
inductive ClOperation where
  | createCommandQueue (context : Nat)
  | createKernel (context device kernelId : Nat) (f : KernelFunction) (buffersIn buffersOut : List Nat)
  | createBuffer (context flags size : Nat) (kernelsIn kernelsOut : List Nat) (bufferId : Nat)
  | enqueueTask (queue kernel : Nat) (waitList : List Nat) (wanted : Bool)
  | enqueueWriteBuffer (queue : Nat) (data : Nat → Nat) (mem : Nat) (waitList : List Nat) (wanted : Bool)
  | enqueueReadBuffer (queue mem : Nat) (waitList : List Nat) (wanted : Bool)
  | finish (queue : Nat)
  | releaseEvent (event : Nat)
  | releaseMemObject (mem : Nat)
  | releaseKernel (kernel : Nat)
  | releaseCommandQueue (queue : Nat)

def need {α : Type} (fault : Fault) : Option α → Except Fault α
  | some a => .ok a
  | none => .error fault

def delete {α : Type} (table : Nat → Option α) (address : Nat) : Except Fault (Nat → Option α) := do
  let _ ← need .freed (table address)
  return Function.update table address none

/-- `Context::start_kernel` returns the termination event. -/
def startKernel (kernel : Nat) (s : Registry) : Except Fault Nat :=
  match mangoStartKernel s.cxt kernel (some []) 0 with
  | .ok (k, _) => .ok k.terminationEvent.id
  | .error _ => .error .read

def writeBuffer (data : Nat → Nat) (buffer : Nat) (s : Registry) : Except Fault Nat := do
  let _ ← need .read (s.getBuffer buffer)
  let (b, _) ← need .ended (mangoWrite s.cxt data buffer .DIRECT 0)
  return b.event.id

def readBuffer (buffer : Nat) (s : Registry) : Except Fault Nat := do
  let _ ← need .read (s.getBuffer buffer)
  let (b, _) ← need .ended (mangoRead s.cxt buffer .DIRECT 0)
  return b.event.id

namespace Objects

def start : Objects where
  queues _ := none
  graphs _ := none
  kernels _ := none
  mems _ := none
  events _ := none
  contextQueue _ := none
  deviceQueue _ := none
  memObjects _ := []
  registry := .empty 0
  next := 0
  held := []

variable (devices : Nat → List Nat) (w : Objects)

def clCreateCommandQueue (context : Nat) : Objects :=
  { w with
    queues := Function.update w.queues w.next (some ⟨context, none, []⟩)
    contextQueue := Function.update w.contextQueue context (some w.next)
    deviceQueue := fun d => if d ∈ devices context then some w.next else w.deviceQueue d
    next := w.next + 1
    held := .queue w.next :: w.held }

/-- `mango_task_graph_add_kernel` and `mango_task_graph_add_buffer`, for the graph of the queue that a
    device or a context points to; the part is what the runtime's context has. -/
def mangoTaskGraphAdd (queue : Option Nat) (part : Option TaskGraph.Part) : Except Fault Objects := do
  let address ← need .ended queue
  let q ← need .read (w.queues address)
  let part ← need .ended part
  match q.tgx with
  | none =>
    return { w with
      graphs := Function.update w.graphs w.next (some (TaskGraph.add ⟨[], [], []⟩ part))
      queues := Function.update w.queues address (some { q with tgx := some w.next })
      next := w.next + 1 }
  | some t => do
    let tg ← need .read (w.graphs t)
    return { w with graphs := Function.update w.graphs t (some (tg.add part)) }

def newKernel (kernel : LiveKernel) (s : Registry) : Objects :=
  { w with
    kernels := Function.update w.kernels w.next (some kernel)
    registry := s
    next := w.next + 1
    held := .kernel w.next :: w.held }

def clCreateKernel (context device kernelId : Nat) (f : KernelFunction) (buffersIn buffersOut : List Nat) :
    Except Fault Objects := do
  let (_, s) ← need .ended (w.registry.register (.kernel kernelId f buffersIn buffersOut))
  (w.newKernel ⟨context, kernelId⟩ s).mangoTaskGraphAdd (w.deviceQueue device)
    ((s.getKernel kernelId).map .kernel)

def extractKernelIDs (kernels : List Nat) : Except Fault (List Nat) :=
  kernels.mapM fun address => do
    let k ← need .read (w.kernels address)
    return k.kernel

def newMem (mem : LiveMem) (s : Registry) : Objects :=
  { w with
    mems := Function.update w.mems w.next (some mem)
    memObjects := Function.update w.memObjects mem.ctx (w.memObjects mem.ctx ++ [w.next])
    registry := s
    next := w.next + 1
    held := .mem w.next :: w.held }

/-- A call that returns an error code changes nothing. -/
def clCreateBuffer (context flags size : Nat) (kernelsIn kernelsOut : List Nat) (bufferId : Nat) :
    Except Fault Objects :=
  if flags &&& (CL_MEM_READ_WRITE ||| CL_MEM_WRITE_ONLY ||| CL_MEM_READ_ONLY) = 0 ∨ size = 0 then .ok w
  else do
    let kernelsIn ← w.extractKernelIDs kernelsIn
    let kernelsOut ← w.extractKernelIDs kernelsOut
    match bufferKernels flags kernelsIn kernelsOut with
    | none => return w
    | some lists => do
      let (_, s) ← need .ended (w.registry.register (.memory bufferId size .BUFFER lists.1 lists.2))
      (w.newMem ⟨context, bufferId⟩ s).mangoTaskGraphAdd (w.contextQueue context)
        ((s.getBuffer bufferId).map .buffer)

/-- With one event; the wait comes back. -/
def clWaitForEvents (event : Nat) : Except Fault Objects := do
  let e ← need .read (w.events event)
  if e.status = .LOCK then do
    let _ ← need .read (w.registry.getEvent e.ev)
    return { w with
      events := Function.update w.events event (some { e with status := e.eventType.done }) }
  else return w

def checkWaitListInContext (ctx : Nat) : List Nat → Except Fault Bool
  | [] => .ok true
  | event :: rest => do
    let e ← need .read (w.events event)
    if ctx ≠ e.ctx then return false else checkWaitListInContext ctx rest

def pushEvent (queue : Nat) (q : LiveQueue) (ev : Nat) (eventType : CommandType) (wanted : Bool) :
    Objects :=
  { w with
    events := Function.update w.events w.next (some ⟨newClEvent ev eventType, q.ctx⟩)
    queues := Function.update w.queues queue (some { q with events := q.events ++ [w.next] })
    next := w.next + 1
    held := if wanted then .event w.next :: w.held else w.held }

/-- What the calls that enqueue share; `ctx` is the context of the kernel or the buffer. -/
def enqueue (queue ctx : Nat) (waitList : List Nat) (wanted : Bool) (eventType : CommandType)
    (run : Registry → Except Fault Nat) : Except Fault Objects := do
  let q ← need .read (w.queues queue)
  if q.ctx ≠ ctx then return w else do
    let within ← w.checkWaitListInContext q.ctx waitList
    if within = false then return w else do
      let w ← waitList.foldlM clWaitForEvents w
      let ev ← run w.registry
      return w.pushEvent queue q ev eventType wanted

def clEnqueueTask (queue kernel : Nat) (waitList : List Nat) (wanted : Bool) : Except Fault Objects := do
  let k ← need .read (w.kernels kernel)
  w.enqueue queue k.ctx waitList wanted .CL_COMMAND_NDRANGE_KERNEL (startKernel k.kernel)

def clEnqueueWriteBuffer (queue : Nat) (data : Nat → Nat) (mem : Nat) (waitList : List Nat)
    (wanted : Bool) : Except Fault Objects := do
  let m ← need .read (w.mems mem)
  w.enqueue queue m.ctx waitList wanted .CL_COMMAND_WRITE_BUFFER (writeBuffer data m.buffer)

def clEnqueueReadBuffer (queue mem : Nat) (waitList : List Nat) (wanted : Bool) : Except Fault Objects := do
  let m ← need .read (w.mems mem)
  w.enqueue queue m.ctx waitList wanted .CL_COMMAND_READ_BUFFER (readBuffer m.buffer)

def finishLoop (queue : Nat) : Nat → Objects → Except Fault Objects
  | 0, w => .ok w
  | n + 1, w => do
    let q ← need .read (w.queues queue)
    let topEv ← need .ended q.events.getLast?
    let w ← w.clWaitForEvents topEv
    finishLoop queue n
      { w with queues := Function.update w.queues queue (some { q with events := q.events.dropLast }) }

def clFinish (queue : Nat) : Except Fault Objects := do
  let q ← need .read (w.queues queue)
  finishLoop queue q.events.length w

def drop (handle : Handle) : List Handle := w.held.filter (· ≠ handle)

def clReleaseEvent (event : Nat) : Except Fault Objects := do
  let events ← delete w.events event
  return { w with events := events, held := w.drop (.event event) }

def clReleaseMemObject (mem : Nat) : Except Fault Objects := do
  let m ← need .read (w.mems mem)
  let s ← need .freed (w.registry.deregisterBuffer m.buffer)
  let mems ← delete w.mems mem
  return { w with mems := mems, registry := s, held := w.drop (.mem mem) }

def clReleaseKernel (kernel : Nat) : Except Fault Objects := do
  let kernels ← delete w.kernels kernel
  return { w with kernels := kernels, held := w.drop (.kernel kernel) }

/-- `mango_resource_deallocation` asserts that there is a graph, and does nothing with it;
    `mango_task_graph_destroy_all` deletes it first. -/
def clReleaseCommandQueue (queue : Nat) : Except Fault Objects := do
  let q ← need .read (w.queues queue)
  let tgx ← need .ended q.tgx
  let graphs ← delete w.graphs tgx
  let graphs ← delete graphs tgx
  let queues ← delete w.queues queue
  return { w with graphs := graphs, queues := queues, held := w.drop (.queue queue) }

def step : ClOperation → Except Fault Objects
  | .createCommandQueue context => .ok (w.clCreateCommandQueue devices context)
  | .createKernel context device kernelId f buffersIn buffersOut =>
    w.clCreateKernel context device kernelId f buffersIn buffersOut
  | .createBuffer context flags size kernelsIn kernelsOut bufferId =>
    w.clCreateBuffer context flags size kernelsIn kernelsOut bufferId
  | .enqueueTask queue kernel waitList wanted => w.clEnqueueTask queue kernel waitList wanted
  | .enqueueWriteBuffer queue data mem waitList wanted =>
    w.clEnqueueWriteBuffer queue data mem waitList wanted
  | .enqueueReadBuffer queue mem waitList wanted => w.clEnqueueReadBuffer queue mem waitList wanted
  | .finish queue => w.clFinish queue
  | .releaseEvent event => w.clReleaseEvent event
  | .releaseMemObject mem => w.clReleaseMemObject mem
  | .releaseKernel kernel => w.clReleaseKernel kernel
  | .releaseCommandQueue queue => w.clReleaseCommandQueue queue

end Objects

def ClOperation.passes : ClOperation → List Handle
  | .createCommandQueue _ | .createKernel _ _ _ _ _ _ => []
  | .createBuffer _ _ _ kernelsIn kernelsOut _ => (kernelsIn ++ kernelsOut).map .kernel
  | .enqueueTask queue kernel waitList _ => .queue queue :: .kernel kernel :: waitList.map .event
  | .enqueueWriteBuffer queue _ mem waitList _ => .queue queue :: .mem mem :: waitList.map .event
  | .enqueueReadBuffer queue mem waitList _ => .queue queue :: .mem mem :: waitList.map .event
  | .finish queue | .releaseCommandQueue queue => [.queue queue]
  | .releaseEvent event => [.event event]
  | .releaseMemObject mem => [.mem mem]
  | .releaseKernel kernel => [.kernel kernel]

def ClOperation.releases : ClOperation → Bool
  | .releaseEvent _ | .releaseMemObject _ | .releaseKernel _ | .releaseCommandQueue _ => true
  | _ => false

section Condition

variable (devices : Nat → List Nat)

/-- The client passes only handles that it holds, so none that it has released. -/
def Disciplined : List ClOperation → Objects → Prop
  | [], _ => True
  | op :: rest, w =>
    (∀ handle ∈ op.passes, handle ∈ w.held) ∧ ∀ w', w.step devices op = .ok w' → Disciplined rest w'

/-- No object is freed or read that is not live, in the run and in whatever may follow any part of it
    and releases nothing. -/
def StaysLive (operations : List ClOperation) (w : Objects) : Prop :=
  ∀ done rest more fault, operations = done ++ rest → (∀ op ∈ more, op.releases = false) →
    Disciplined devices (done ++ more) w →
    (done ++ more).foldlM (Objects.step devices) w = .error fault → fault = .ended

/-- An event is released when no queue has it; a buffer when no other memory object has it and no
    event that is still to be waited for is its event; a queue only when it has no task graph, which
    ends the process. -/
def Objects.Admits (w : Objects) : ClOperation → Prop
  | .releaseEvent event => ∀ address q, w.queues address = some q → event ∉ q.events
  | .releaseMemObject mem => ∀ m, w.mems mem = some m →
    (∀ other m', w.mems other = some m' → m'.buffer = m.buffer → other = mem) ∧
      ∀ b, w.registry.getBuffer m.buffer = some b →
        ∀ address e, w.events address = some e → e.status = .LOCK → e.ev ≠ b.event.id
  | .releaseCommandQueue queue => ∀ q, w.queues queue = some q → q.tgx = none
  | _ => True

def Admitted : List ClOperation → Objects → Prop
  | [], _ => True
  | op :: rest, w => w.Admits op ∧ ∀ w', w.step devices op = .ok w' → Admitted rest w'

/-- The ids of events do not come round. -/
def Few : List ClOperation → Objects → Prop
  | [], w => w.registry.created ≤ 2^32
  | op :: rest, w => w.registry.created ≤ 2^32 ∧ ∀ w', w.step devices op = .ok w' → Few rest w'

end Condition

end Model

end MangoModel.OpenCL
