import LibMango.Host.Construction

namespace MangoModel.OpenCL

open Host

section Session

def CL_MEM_READ_WRITE : Nat := 1 <<< 0
def CL_MEM_WRITE_ONLY : Nat := 1 <<< 1
def CL_MEM_READ_ONLY : Nat := 1 <<< 2

/-- The calls that make the parts of task graphs. Kernels are known by their ids. -/
inductive Command where
  | createCommandQueue
  | createKernel (kernelId : Nat) (f : KernelFunction) (buffersIn buffersOut : List Nat)
  | createBuffer (flags size : Nat) (kernelsIn kernelsOut : List Nat) (bufferId : Nat)

/-- What has been registered, and the task graph of each queue. The first queue is the latest one,
    which the context and its devices refer to; a graph that is not there yet is an empty one. -/
structure Session where
  history : History
  queues : List TaskGraph

def Session.start (created : Nat) : Session := ⟨([], .empty created), []⟩

/-- The lists that a buffer is registered with; `none` where the source throws. -/
def bufferKernels (flags : Nat) (kernelsIn kernelsOut : List Nat) : Option (List Nat × List Nat) :=
  if flags &&& CL_MEM_READ_WRITE = CL_MEM_READ_WRITE then
    if kernelsIn = [] ∨ kernelsOut = [] then none else some (kernelsIn, kernelsOut)
  else if flags &&& CL_MEM_WRITE_ONLY = CL_MEM_WRITE_ONLY then
    if kernelsIn = [] then none else some (kernelsIn, [])
  else if flags &&& CL_MEM_READ_ONLY = CL_MEM_READ_ONLY then
    if kernelsOut = [] then none else some ([], kernelsOut)
  else none

namespace Session

variable (w : Session)

def clCreateCommandQueue : Session := { w with queues := ⟨[], [], []⟩ :: w.queues }

/-- `none` where the call fails, or there is no queue whose graph could be extended. -/
def clCreateKernel (kernelId : Nat) (f : KernelFunction) (buffersIn buffersOut : List Nat) :
    Option Session := do
  let h ← w.history.register (.kernel kernelId f buffersIn buffersOut)
  let k ← h.2.getKernel kernelId
  match w.queues with
  | [] => none
  | tg :: others => return ⟨h, { tg with kernels := tg.kernels ++ [k] } :: others⟩

def clCreateBuffer (flags size : Nat) (kernelsIn kernelsOut : List Nat) (bufferId : Nat) :
    Option Session := do
  if size = 0 then none
  let lists ← bufferKernels flags kernelsIn kernelsOut
  let h ← w.history.register (.memory bufferId size .BUFFER lists.1 lists.2)
  let b ← h.2.getBuffer bufferId
  match w.queues with
  | [] => none
  | tg :: others => return ⟨h, { tg with buffers := tg.buffers ++ [b] } :: others⟩

def step : Command → Option Session
  | .createCommandQueue => some w.clCreateCommandQueue
  | .createKernel kernelId f buffersIn buffersOut => w.clCreateKernel kernelId f buffersIn buffersOut
  | .createBuffer flags size kernelsIn kernelsOut bufferId =>
    w.clCreateBuffer flags size kernelsIn kernelsOut bufferId

/-- The graph that is allocated for a queue, with all the events of the context. -/
def clKernelAndBufferAllocation (queue : Nat) : Option TaskGraph := do
  let tg ← w.queues[queue]?
  return { tg with events := tg.events ++ IdMap.objects w.history.2.cxt.events }

end Session

end Session

section Graphs

/-- The task graphs that the public interface builds, by either way, with what has been registered
    when they are built. -/
inductive PublicGraph (created : Nat) : History → TaskGraph → Prop
  | create {registrations : List Registration} {kernels buffers events : List Nat} {h : History}
      {tg : TaskGraph} (registered : History.registerAll created registrations = some h)
      (built : mangoTaskGraphCreate h.2.cxt kernels buffers events = some tg) :
      PublicGraph created h tg
  | allocation {commands : List Command} {queue : Nat} {w : Session} {tg : TaskGraph}
      (run : commands.foldlM Session.step (.start created) = some w)
      (built : w.clKernelAndBufferAllocation queue = some tg) : PublicGraph created w.history tg

/-- The kernels and buffers of a queue's graph are registered, and no event is added before the
    allocation. -/
structure Session.Sound (w : Session) : Prop where
  recorded : w.history.Recorded
  kernels : ∀ tg ∈ w.queues, ∀ k ∈ tg.kernels, ∃ kid, w.history.2.getKernel kid = some k
  buffers : ∀ tg ∈ w.queues, ∀ b ∈ tg.buffers, ∃ bid, w.history.2.getBuffer bid = some b
  events : ∀ tg ∈ w.queues, tg.events = []

namespace Session

variable {w w' : Session} {h : History} {r : Registration} {command : Command}

theorem start_sound (created : Nat) : (start created).Sound where
  recorded := History.recorded_empty created
  kernels tg member := by cases member
  buffers tg member := by cases member
  events tg member := by cases member

theorem Sound.extend {tg tg' : TaskGraph} {others : List TaskGraph} (sound : w.Sound)
    (registered : w.history.register r = some h) (queues : w.queues = tg :: others)
    (kernels : ∀ k ∈ tg'.kernels, k ∈ tg.kernels ∨ ∃ kid, h.2.getKernel kid = some k)
    (buffers : ∀ b ∈ tg'.buffers, b ∈ tg.buffers ∨ ∃ bid, h.2.getBuffer bid = some b)
    (events : tg'.events = tg.events) : Sound ⟨h, tg' :: others⟩ := by
  obtain ⟨keptBuffer, keptKernel⟩ := History.register_kept registered
  have olderKernels : ∀ graph ∈ tg :: others, ∀ k ∈ graph.kernels, ∃ kid, h.2.getKernel kid = some k := by
    intro graph member k listed
    obtain ⟨kid, found⟩ := sound.kernels graph (queues ▸ member) k listed
    exact ⟨kid, keptKernel kid k found⟩
  have olderBuffers : ∀ graph ∈ tg :: others, ∀ b ∈ graph.buffers, ∃ bid, h.2.getBuffer bid = some b := by
    intro graph member b listed
    obtain ⟨bid, found⟩ := sound.buffers graph (queues ▸ member) b listed
    exact ⟨bid, keptBuffer bid b found⟩
  constructor
  · exact sound.recorded.register registered
  · intro graph member k listed
    rcases List.mem_cons.mp member with rfl | member
    · rcases kernels k listed with before | new
      · exact olderKernels tg List.mem_cons_self k before
      · exact new
    · exact olderKernels graph (List.mem_cons_of_mem _ member) k listed
  · intro graph member b listed
    rcases List.mem_cons.mp member with rfl | member
    · rcases buffers b listed with before | new
      · exact olderBuffers tg List.mem_cons_self b before
      · exact new
    · exact olderBuffers graph (List.mem_cons_of_mem _ member) b listed
  · intro graph member
    rcases List.mem_cons.mp member with rfl | member
    · rw [events]
      exact sound.events tg (queues ▸ List.mem_cons_self)
    · exact sound.events graph (queues ▸ List.mem_cons_of_mem _ member)

theorem Sound.step (sound : w.Sound) (run : w.step command = some w') : w'.Sound := by
  cases command with
  | createCommandQueue =>
    cases run
    constructor
    · exact sound.recorded
    · intro tg member k listed
      rcases List.mem_cons.mp member with rfl | member
      · cases listed
      · exact sound.kernels tg member k listed
    · intro tg member b listed
      rcases List.mem_cons.mp member with rfl | member
      · cases listed
      · exact sound.buffers tg member b listed
    · intro tg member
      rcases List.mem_cons.mp member with rfl | member
      · rfl
      · exact sound.events tg member
  | createKernel kernelId f buffersIn buffersOut =>
    obtain ⟨h, registered, run⟩ := Option.bind_eq_some_iff.mp run
    obtain ⟨k, found, run⟩ := Option.bind_eq_some_iff.mp run
    split at run
    · cases run
    · next tg others queues =>
      cases run
      refine sound.extend registered queues ?_ (fun b listed => .inl listed) rfl
      intro k' listed
      rcases List.mem_append.mp listed with before | new
      · exact .inl before
      · obtain rfl := List.mem_singleton.mp new
        exact .inr ⟨kernelId, found⟩
  | createBuffer flags size kernelsIn kernelsOut bufferId =>
    rw [Session.step, clCreateBuffer] at run
    split at run
    · cases run
    obtain ⟨lists, _, run⟩ := Option.bind_eq_some_iff.mp run
    obtain ⟨h, registered, run⟩ := Option.bind_eq_some_iff.mp run
    obtain ⟨b, found, run⟩ := Option.bind_eq_some_iff.mp run
    split at run
    · cases run
    · next tg others queues =>
      cases run
      refine sound.extend registered queues (fun k listed => .inl listed) ?_ rfl
      intro b' listed
      rcases List.mem_append.mp listed with before | new
      · exact .inl before
      · obtain rfl := List.mem_singleton.mp new
        exact .inr ⟨bufferId, found⟩

theorem run_sound {commands : List Command} {created : Nat}
    (run : commands.foldlM Session.step (.start created) = some w) : w.Sound :=
  Fallible.foldlM_invariant (motive := fun _ w => w.Sound)
    (fun _ _ _ _ _ sound one => sound.step one) (start_sound created) run

theorem Sound.built {queue : Nat} {tg : TaskGraph} (sound : w.Sound)
    (run : w.clKernelAndBufferAllocation queue = some tg) : Built w.history.2 tg := by
  obtain ⟨graph, found, run⟩ := Option.bind_eq_some_iff.mp run
  cases run
  have member := List.mem_of_getElem? found
  constructor
  · exact sound.kernels graph member
  · exact sound.buffers graph member
  · intro e
    rw [sound.events graph member]
    exact IdMap.mem_objects

end Session

variable {created : Nat} {h : History} {tg : TaskGraph}

theorem PublicGraph.built (made : PublicGraph created h tg) : h.Recorded ∧ Built h.2 tg := by
  cases made with
  | create registered built =>
    exact ⟨History.registerAll_recorded registered, mangoTaskGraphCreate_built built⟩
  | allocation run built =>
    have sound := Session.run_sound run
    exact ⟨sound.recorded, sound.built built⟩

/-- All that a graph of the public interface looks up is found in it if all that has been registered
    names only kernels of the graph, and, as long as the ids of events have not come round, only
    then. -/
theorem publicGraph_resolved (made : PublicGraph created h tg) :
    (Named h.1 tg → tg.Resolved) ∧ (h.2.created ≤ 2^32 → (tg.Resolved ↔ Named h.1 tg)) := by
  obtain ⟨recorded, built⟩ := made.built
  constructor
  · exact built.resolved recorded
  · intro few
    exact ⟨built.named recorded few, built.resolved recorded⟩

theorem publicGraph_resolved_one_kernel : ∃ h tg, PublicGraph 0 h tg ∧ tg.Resolved := by
  have made : PublicGraph 0 _ _ :=
    .create
      (show History.registerAll 0 [.kernel 1 oneKernel [1] [], .memory 1 64 .BUFFER [0] [1]] = some _
        from rfl)
      (show mangoTaskGraphCreate _ [1] [1] [] = some _ from rfl)
  refine ⟨_, _, made, (publicGraph_resolved made).1 ?_⟩
  unfold Named
  decide

/-- A graph with one of two kernels, and a buffer that only that one reads. -/
theorem publicGraph_one_of_two : ∃ h tg, PublicGraph 0 h tg ∧
    (∀ b ∈ tg.buffers, ∀ kId ∈ b.names, kId = 0 ∨ kId ∈ tg.kernels.map Kernel.id) ∧ ¬ tg.Resolved := by
  have made : PublicGraph 0 _ _ :=
    .create
      (show History.registerAll 0 [.kernel 1 oneKernel [1] [], .kernel 2 oneKernel [] [],
        .memory 1 64 .BUFFER [0] [1]] = some _ from rfl)
      (show mangoTaskGraphCreate _ [1] [1] [] = some _ from rfl)
  refine ⟨_, _, made, by decide, ?_⟩
  intro resolved
  have found := resolved.events ⟨4, 0, [2], [2], 0⟩ (by decide) 2 (by decide) (by decide)
  exact absurd found (by decide)

end Graphs

end MangoModel.OpenCL
