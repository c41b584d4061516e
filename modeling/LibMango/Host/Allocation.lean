import LibMango.Host.Context
import LibMango.Host.MmTrace

namespace MangoModel.Host

open Fallible

section Manager

/-- `bbque::ArchType_t`, as far as the library knows it. -/
inductive ArchType where
  | NONE
  | STOP
  | DCT
  | GN
  | GPU
  | ARM
  | PEAK
  | NUPLUS
  deriving DecidableEq, Repr

def unitToArchType : UnitType → ArchType
  | .STOP => .STOP
  | .GN => .GN
  | .DCT => .DCT
  | .GPU => .GPU
  | .ARM => .ARM
  | .PEAK => .PEAK
  | .NUP => .NUPLUS

def archToUnitType : ArchType → UnitType
  | .NONE | .STOP => .STOP
  | .DCT => .DCT
  | .GN => .GN
  | .GPU => .GPU
  | .ARM => .ARM
  | .PEAK => .PEAK
  | .NUPLUS => .NUP

structure BbqueTarget where
  memorySize : Nat
  memoryBank : Nat
  address : Nat

structure BbqueTask where
  inBuffers : List Nat
  outBuffers : List Nat
  threadCount : Nat
  targets : ArchType → Option BbqueTarget
  mappedProcessor : Nat
  assignedArch : ArchType

structure BbqueBuffer where
  size : Nat
  event : Nat
  memoryBank : Nat
  physicalAddress : Nat

/-- The graph that goes to the resource manager and comes back; of an event it has the address. -/
structure BbqueGraph where
  tasks : IdMap BbqueTask
  buffers : IdMap BbqueBuffer
  events : IdMap Nat
  outputBuffers : List Nat
  cluster : Nat

def bbqueTargets (f : KernelFunction) (arch : ArchType) : Option BbqueTarget := do
  let unit ← KernelFunction.units.find? fun unit => unitToArchType unit = arch
  let size ← f.size unit
  return ⟨size, 0, 0⟩

def bbqueTask (k : Kernel) : BbqueTask :=
  ⟨k.buffersIn, k.buffersOut, k.threadCount, bbqueTargets k.kernel, 0, .NONE⟩

def bbqueBuffer (b : Buffer) : BbqueBuffer := ⟨b.size, b.event.id, 0, 0⟩

/-- `none` where an assertion fails. -/
def toBbque (tg : TaskGraph) : Option BbqueGraph :=
  if tg.kernels = [] then none
  else if tg.kernels.any fun k => k.buffersIn ++ k.buffersOut = [] ∨ k.id = 0 ∨
      (k.kernel.size .STOP).isSome then none
  else some
    { tasks := tg.kernels.foldl (fun tasks k => tasks.insert k.id (bbqueTask k)) ∅
      buffers := tg.buffers.foldl (fun buffers b => buffers.insert b.id (bbqueBuffer b)) ∅
      events := tg.events.foldl (fun events e => events.insert e.id 0) ∅
      outputBuffers :=
        (tg.buffers.filter fun b => b.kernelsOut = [] ∨ b.isReadByHost).map Buffer.id
      cluster := 0 }

end Manager

section Registers

abbrev Registers : Type := Nat → Nat → Nat

namespace Registers

def write (regs : Registers) (cluster addr value : Nat) : Registers :=
  Function.update regs cluster (Function.update (regs cluster) addr value)

/-- A read takes the value. -/
def read (regs : Registers) (cluster addr : Nat) : Nat × Registers :=
  (regs cluster addr, regs.write cluster addr 0)

/-- Two reads, of which the second has to give 0. -/
def clear (regs : Registers) (cluster addr : Nat) : Option Registers :=
  let (_, regs) := regs.read cluster addr
  let (value, regs) := regs.read cluster addr
  if value = 0 then some regs else none

end Registers

end Registers

section Import

def assignKernel (cluster : Nat) (task : BbqueTask) (k : Kernel) : Option Kernel := do
  let arch := archToUnitType task.assignedArch
  if arch = .STOP then none
  let target ← task.targets task.assignedArch
  return { k with
    unit := some ⟨task.mappedProcessor, arch⟩
    memTile := target.memoryBank
    clusterId := cluster
    phyAddr := target.address }

def assignKernels (answer : BbqueGraph) (kernels : List Kernel) : Option (List Kernel) :=
  answer.tasks.toList.foldlM (fun kernels (id, task) =>
    kernels.mapM fun k => if id = k.id then assignKernel answer.cluster task k else some k) kernels

def Event.assign (id cluster addr : Nat) (e : Event) : Event :=
  if e.id = id then { e with phyAddr := addr, clusterId := cluster } else e

def Kernel.mapEvents (f : Event → Event) (k : Kernel) : Kernel :=
  { k with
    terminationEvent := f k.terminationEvent
    taskEvents := k.taskEvents.map f
    three := by rw [List.length_map, k.three] }

def TaskGraph.mapEvents (f : Event → Event) (tg : TaskGraph) : TaskGraph where
  kernels := tg.kernels.map (Kernel.mapEvents f)
  buffers := tg.buffers.map fun b => { b with event := f b.event }
  events := tg.events.map f

abbrev Placement : Type := TaskGraph × Registers

def assignEvent (cluster : Nat) (p : Placement) (id addr : Nat) : Option Placement := do
  let regs ← p.2.clear cluster addr
  return (p.1.mapEvents (Event.assign id cluster addr), regs)

def assignEvents (answer : BbqueGraph) (p : Placement) : Option Placement :=
  answer.events.toList.foldlM (fun p (id, addr) =>
    (p.1.events.filter fun e => e.id = id).foldlM (fun p _ => assignEvent answer.cluster p id addr) p) p

def assignBuffer (cluster : Nat) (p : Placement) (id : Nat) (placed : BbqueBuffer) (b : Buffer) :
    Option Placement := do
  if b.event.phyAddr = 0 then none
  let regs ← p.2.clear b.event.clusterId b.event.phyAddr
  let buffers := p.1.buffers.map fun b =>
    if b.id = id then
      { b with memTile := placed.memoryBank, clusterId := cluster, phyAddr := placed.physicalAddress }
    else b
  return ({ p.1 with buffers := buffers }, regs.write b.event.clusterId b.event.phyAddr
    MangoEventStatus.WRITE.value)

def assignBuffers (answer : BbqueGraph) (p : Placement) : Option Placement :=
  answer.buffers.toList.foldlM (fun p (id, placed) =>
    (p.1.buffers.filter fun b => b.id = id).foldlM (fun p b =>
      assignBuffer answer.cluster p id placed b) p) p

/-- `none` where an assertion fails, or a task lacks the target it is assigned to. -/
def fromBbque (answer : BbqueGraph) (tg : TaskGraph) (regs : Registers) : Option Placement := do
  if answer.tasks.size ≠ tg.kernels.length ∨ answer.buffers.size ≠ tg.buffers.length then none
  let kernels ← assignKernels answer tg.kernels
  let p ← assignEvents answer ({ tg with kernels := kernels }, regs)
  assignBuffers answer p

end Import

section Allocation

structure Allocated where
  code : ExitCode
  tg : TaskGraph
  regs : Registers
  mm : Mm

/-- A new memory manager; the addresses that the kernels have been given are not its own. -/
def Mm.renew (s : Mm) : Mm :=
  { Mm.start with
    virtualAddress := s.virtualAddress
    tlbBuffers := s.tlbBuffers
    tlbEvents := s.tlbEvents }

/-- `answer` is what `GetResourceAllocation` makes of a graph, and `outcome` which calls of
    `hn_set_tlb` succeed; `none` where the call does not return. -/
def resourceAllocation (answer : BbqueGraph → BbqueGraph) (outcome : Nat → Bool) (tg : TaskGraph)
    (regs : Registers) (s : Mm) : Option Allocated := do
  let bbqueTg ← toBbque tg
  let (tg, regs) ← fromBbque (answer bbqueTg) tg regs
  let k ← tg.kernels.head?
  let unit ← k.unit
  let manager := if unit.arch = .GN then Manager.MM_GN else .MM
  let s ← s.renew.setVaddr outcome manager tg
  return ⟨.SUCCESS, tg, regs, s⟩

end Allocation

section Bare

def Event.bare (e : Event) : Event := { e with phyAddr := 0, clusterId := 0 }

def Buffer.bare (b : Buffer) : Buffer :=
  { b with event := b.event.bare, phyAddr := 0, memTile := 0, clusterId := 0 }

def Kernel.bare (k : Kernel) : Kernel :=
  { k.mapEvents Event.bare with unit := none, phyAddr := 0, memTile := 0, clusterId := 0 }

def TaskGraph.bare (tg : TaskGraph) : TaskGraph :=
  ⟨tg.kernels.map Kernel.bare, tg.buffers.map Buffer.bare, tg.events.map Event.bare⟩

variable {answer : BbqueGraph} {tg tg' : TaskGraph} {p p' : Placement} {k k' : Kernel}

theorem assign_bare (id cluster addr : Nat) (e : Event) : (e.assign id cluster addr).bare = e.bare := by
  unfold Event.assign
  split <;> rfl

theorem mapEvents_bare {f : Event → Event} (same : ∀ e, (f e).bare = e.bare) (tg : TaskGraph) :
    (tg.mapEvents f).bare = tg.bare := by
  have kernel : ∀ k : Kernel, (k.mapEvents f).bare = k.bare := by
    intro k
    simp [Kernel.bare, Kernel.mapEvents, same]
  simp [TaskGraph.bare, TaskGraph.mapEvents, Buffer.bare, kernel, same]

theorem assignKernel_bare {cluster : Nat} {task : BbqueTask}
    (run : assignKernel cluster task k = some k') : k'.bare = k.bare := by
  rw [assignKernel] at run
  simp only at run
  split at run
  · cases run
  · obtain ⟨target, _, run⟩ := Option.bind_eq_some_iff.mp run
    cases run
    rfl

theorem assignKernels_bare {kernels kernels' : List Kernel}
    (run : assignKernels answer kernels = some kernels') :
    kernels'.map Kernel.bare = kernels.map Kernel.bare := by
  refine foldlM_invariant (motive := fun _ list => list.map Kernel.bare = kernels.map Kernel.bare)
    (fun _ entry list list' _ same one => ?_) rfl run
  rw [← same]
  apply mapM_map one
  intro k k' one
  split at one
  · exact assignKernel_bare one
  · cases one
    rfl

theorem assignEvents_bare (run : assignEvents answer p = some p') : p'.1.bare = p.1.bare := by
  refine foldlM_invariant (motive := fun _ q => q.1.bare = p.1.bare)
    (fun _ entry q q' _ same one => ?_) rfl run
  refine foldlM_invariant (motive := fun _ r => r.1.bare = p.1.bare)
    (fun _ e r r' _ same one => ?_) same one
  obtain ⟨regs, _, one⟩ := Option.bind_eq_some_iff.mp one
  cases one
  rw [← same]
  exact mapEvents_bare (assign_bare _ _ _) _

theorem assignBuffer_bare {cluster id : Nat} {placed : BbqueBuffer} {b : Buffer}
    (run : assignBuffer cluster p id placed b = some p') : p'.1.bare = p.1.bare := by
  rw [assignBuffer] at run
  split at run
  · cases run
  · obtain ⟨regs, _, run⟩ := Option.bind_eq_some_iff.mp run
    cases run
    simp only [TaskGraph.bare, List.map_map, TaskGraph.mk.injEq, true_and, and_true]
    apply List.map_congr_left
    intro b' _
    simp only [Function.comp_apply]
    split <;> rfl

theorem assignBuffers_bare (run : assignBuffers answer p = some p') : p'.1.bare = p.1.bare := by
  refine foldlM_invariant (motive := fun _ q => q.1.bare = p.1.bare)
    (fun _ entry q q' _ same one => ?_) rfl run
  refine foldlM_invariant (motive := fun _ r => r.1.bare = p.1.bare)
    (fun _ b r r' _ same one => ?_) same one
  rw [← same]
  exact assignBuffer_bare one

/-- The answer of the resource manager gives addresses, and nothing else. -/
theorem fromBbque_bare {regs : Registers} (run : fromBbque answer tg regs = some p) :
    p.1.bare = tg.bare := by
  rw [fromBbque] at run
  split at run
  · cases run
  obtain ⟨kernels, placed, run⟩ := Option.bind_eq_some_iff.mp run
  obtain ⟨q, addressed, run⟩ := Option.bind_eq_some_iff.mp run
  rw [assignBuffers_bare run, assignEvents_bare addressed]
  simp only [TaskGraph.bare, assignKernels_bare placed]

variable {outcome : Nat → Bool} {regs : Registers} {s : Mm} {result : Allocated}
  {manager : BbqueGraph → BbqueGraph}

theorem resourceAllocation_cases (run : resourceAllocation manager outcome tg regs s = some result) :
    result.code = .SUCCESS ∧ result.tg.bare = tg.bare ∧
      ∃ k unit, result.tg.kernels.head? = some k ∧ k.unit = some unit ∧
        s.renew.setVaddr outcome (if unit.arch = .GN then .MM_GN else .MM) result.tg = some result.mm := by
  obtain ⟨bbqueTg, _, run⟩ := Option.bind_eq_some_iff.mp run
  obtain ⟨p, imported, run⟩ := Option.bind_eq_some_iff.mp run
  obtain ⟨k, first, run⟩ := Option.bind_eq_some_iff.mp run
  obtain ⟨unit, placed, run⟩ := Option.bind_eq_some_iff.mp run
  obtain ⟨s', mapped, run⟩ := Option.bind_eq_some_iff.mp run
  cases run
  exact ⟨rfl, fromBbque_bare imported, k, unit, first, placed, mapped⟩

end Bare

end MangoModel.Host
