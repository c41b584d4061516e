import LibMango.Host.Arguments
import LibMango.Host.Usability
import LibMango.OpenCL.Process
import LibMango.Layout.Windows
import LibMango.Simulation.Runs

namespace MangoModel.System

open Host Device OpenCL Interleave Simulation

section Hardware

/-- The memories of the tiles and the synchronization registers. -/
structure Hardware where
  memory : DeviceMemory
  regs : Registers

/-- The entry of a unit's TLB that an address is in; a call that has failed has made none. -/
def lookup (mm : Mm) (unit : HwUnit) (a : Nat) : Option HnTlb :=
  (onUnit unit.id mm.calls).find? fun c => c.Covers a ∧ c ∉ mm.failed

/-- The byte that a unit reaches at an address. -/
def byteAt (mm : Mm) (unit : HwUnit) (a : Nat) : Option (Nat × Nat × Nat) := do
  let c ← lookup mm unit a
  match c.target with
  | .memory => some (c.clusterId, c.memTile, c.translate a)
  | .registers => none

/-- The register that a unit reaches at an address. -/
def slotAt (mm : Mm) (unit : HwUnit) (a : Nat) : Option (Nat × Nat) := do
  let c ← lookup mm unit a
  match c.target with
  | .memory => none
  | .registers => some (c.clusterId, c.translate a)

namespace Hardware

variable (h : Hardware)

def loadByte (cell : Nat × Nat × Nat) : Nat := h.memory cell.1 cell.2.1 cell.2.2

def storeByte (cell : Nat × Nat × Nat) (byte : Nat) : Hardware :=
  { h with memory := h.memory.store cell.1 cell.2.1 cell.2.2 byte }

def readRegister (slot : Nat × Nat) : Nat × Hardware :=
  let (value, regs) := h.regs.read slot.1 slot.2
  (value, { h with regs := regs })

def writeRegister (slot : Nat × Nat) (value : Nat) : Hardware :=
  { h with regs := h.regs.write slot.1 slot.2 (uint32 value) }

end Hardware

/-- What a transfer to the host meets. -/
structure Receiving where
  memory : DeviceMemory
  host : Nat → Nat

/-- The operations of a transfer from a tile. -/
def receiveExec (cluster tile : Nat) : Op Unit → Receiving → Nat × Receiving
  | .loadByte addr, s => (s.memory cluster tile addr, s)
  | .keepByte offset byte, s => (0, { s with host := Function.update s.host offset byte })
  | _, s => (0, s)

end Hardware

section Commands

/-- The events that a kernel has pointers to: those of its context, and those it gets as parameters. -/
inductive DeviceEvent where
  | exit
  | a
  | b
  | r
  | param (j : Nat)
  deriving DecidableEq, Repr

/-- What host and kernels do with buffers and events: on the host's side whole transfers, or the steps of
    transfers that others come between, and on the other accesses through the pointers that a kernel gets. -/
inductive Command where
  | mangoWrite (buffer : Nat) (data : Nat → Nat)
  | mangoRead (buffer : Nat)
  | hostStore (buffer offset byte : Nat)
  | hostLoad (buffer offset : Nat)
  | hostWriteSynchronization (event value : Nat)
  | hostReadSynchronization (event : Nat)
  | load (kernel param offset : Nat)
  | store (kernel param offset byte : Nat)
  | deviceWriteSynchronization (kernel : Nat) (event : DeviceEvent) (value : Nat)
  | deviceReadSynchronization (kernel : Nat) (event : DeviceEvent)

end Commands

section Platform

/-- What host and kernels find: the context, where the byte at an offset of a kernel's parameter is, and
    which register is behind a kernel's event. -/
structure Platform where
  cxt : Context
  memoryAt : Nat → Nat → Nat → Option (Nat × Nat × Nat)
  registerAt : Nat → DeviceEvent → Option (Nat × Nat)

/-- `none` where an assertion or a check fails, or where there is nothing behind a pointer. -/
def Platform.step (f : Platform) (h : Hardware) : Command → Option (List Nat × Hardware)
  | .mangoWrite buffer data => do
    let (b, transfer) ← Host.mangoWrite f.cxt data buffer .DIRECT 0
    let s ← transfer.call.alone (transferExec b.clusterId b.memTile) b.size ⟨[], h.memory⟩
    return ([], { h with memory := s.memory })
  | .mangoRead buffer => do
    let (b, transfer) ← OpenCL.mangoRead f.cxt buffer .DIRECT 0
    let s ← transfer.call.alone (receiveExec b.clusterId b.memTile) (2 * b.size) ⟨h.memory, fun _ => 0⟩
    return ((List.range b.size).map s.host, { h with memory := s.memory })
  | .hostStore buffer offset byte => do
    let b ← f.cxt.buffers[buffer]?
    let (_, s) := transferExec b.clusterId b.memTile (.storeByte (b.phyAddr + offset) byte) ⟨[], h.memory⟩
    return ([], { h with memory := s.memory })
  | .hostLoad buffer offset => do
    let b ← f.cxt.buffers[buffer]?
    let (byte, _) := receiveExec b.clusterId b.memTile (.loadByte (b.phyAddr + offset)) ⟨h.memory, fun _ => 0⟩
    return ([byte], h)
  | .hostWriteSynchronization event value => do
    let e ← f.cxt.events[event]?
    return ([], h.writeRegister (e.clusterId, e.phyAddr) value)
  | .hostReadSynchronization event => do
    let e ← f.cxt.events[event]?
    let (value, h) := h.readRegister (e.clusterId, e.phyAddr)
    return ([value], h)
  | .load kernel param offset => do
    let cell ← f.memoryAt kernel param offset
    return ([h.loadByte cell], h)
  | .store kernel param offset byte => do
    let cell ← f.memoryAt kernel param offset
    return ([], h.storeByte cell byte)
  | .deviceWriteSynchronization kernel event value => do
    let slot ← f.registerAt kernel event
    return ([], h.writeRegister slot value)
  | .deviceReadSynchronization kernel event => do
    let slot ← f.registerAt kernel event
    let (value, h) := h.readRegister slot
    return ([value], h)

end Platform

section Deployment

/-- A context whose graph has been allocated, the arguments its kernels are started with and the
    parameters they declare; `w` is how many bits a `long` of their units has. -/
structure Deployment where
  cxt : Context
  mm : Mm
  arguments : Nat → List Arg
  kargs : Nat → List ParamType
  w : Nat

/-- `mango_memory_map` of a PEAK unit; a pointer has 32 bits. -/
def mangoMemoryMap (a : Int) : Nat := (a % 2^32).toNat

/-- What the entry point gets out of `argv` for parameter `j`, if it is of that type. -/
def pointer (w : Nat) (kargs : List ParamType) (argv : List (List Char)) (type : ParamType) (j : Nat) :
    Option Nat := do
  let (declared, index) ← (← (genKernelEntry .PEAK kargs)[j]?)
  if declared ≠ type then none
  return mangoMemoryMap (← argument w argv index)

def eventPointer (w : Nat) (kargs : List ParamType) (argv : List (List Char)) : DeviceEvent → Option Nat
  | .exit => (mangoPeakInit w argv).map fun ctx => mangoMemoryMap ctx.eventExit
  | .a => (mangoPeakInit w argv).map fun ctx => mangoMemoryMap ctx.eventA
  | .b => (mangoPeakInit w argv).map fun ctx => mangoMemoryMap ctx.eventB
  | .r => (mangoPeakInit w argv).map fun ctx => mangoMemoryMap ctx.eventR
  | .param j => pointer w kargs argv .mangoEvent j

namespace Deployment

variable (d : Deployment)

/-- The unit of a kernel, and the `argv` that it gets there. -/
def started (kid : Nat) : Option (HwUnit × List (List Char)) := do
  let k ← d.cxt.kernels[kid]?
  let unit ← k.unit
  let ka ← KernelArguments.setup (d.mm.tlb k) (d.arguments kid) k
  let text ← ka.getArguments none unit.arch
  return (unit, KernelArguments.argv text)

/-- What the kernels reach through the TLBs of their units. -/
def platform : Platform where
  cxt := d.cxt
  memoryAt kernel param offset := do
    let (unit, argv) ← d.started kernel
    let base ← pointer d.w (d.kargs kernel) argv .pointer param
    byteAt d.mm unit (base + offset)
  registerAt kernel event := do
    let (unit, argv) ← d.started kernel
    let vaddr ← eventPointer d.w (d.kargs kernel) argv event
    slotAt d.mm unit vaddr

end Deployment

end Deployment

section Application

/-- A graph, the units its kernels are to be on, and the kernels' arguments and parameters: no
    address is in it. -/
structure Application where
  tg : TaskGraph
  units : Nat → HwUnit
  arguments : Nat → List Arg
  kargs : Nat → List ParamType

/-- The bytes of each buffer and the value of each event, under their ids. -/
structure Contents where
  arrays : Nat → Nat → Nat
  values : Nat → Nat

namespace Application

variable (p : Application)

def buffer (id : Nat) : Option Buffer := p.tg.buffers.find? fun b => b.id = id

def event (id : Nat) : Option Event := p.tg.events.find? fun e => e.id = id

/-- A kernel whose start-up code reads the numbers in its `argv`. -/
def kernel (kid : Nat) : Option Kernel := do
  let k ← p.tg.getKernelById kid
  if (p.units kid).arch = .PEAK ∨ (p.units kid).arch = .GN then some k else none

/-- The buffer that a kernel gets for a parameter. -/
def parameter (kid j : Nat) : Option Buffer := do
  let _ ← p.kernel kid
  match (p.kargs kid)[j]?, (p.arguments kid)[j]? with
  | some .pointer, some (.buffer id _) => p.buffer id
  | _, _ => none

def deviceEvent (kid : Nat) (event : DeviceEvent) : Option Event := do
  let k ← p.kernel kid
  match event with
  | .exit => p.event k.terminationEvent.id
  | .a => do p.event (← k.taskEvents[0]?).id
  | .b => do p.event (← k.taskEvents[1]?).id
  | .r => do p.event (← k.taskEvents[2]?).id
  | .param j =>
    match (p.kargs kid)[j]?, (p.arguments kid)[j]? with
    | some .mangoEvent, some (.event id _) => p.event id
    | _, _ => none

/-- The arrays and values by their ids, and nothing between them. -/
def step (s : Contents) : Command → Option (List Nat × Contents)
  | .mangoWrite buffer data => do
    let b ← p.buffer buffer
    if b.type = .BUFFER ∧ b.event.id ≠ 0 then
      some ([], { s with arrays := Function.update s.arrays b.id data })
    else none
  | .mangoRead buffer => do
    let b ← p.buffer buffer
    if b.type = .BUFFER ∧ b.event.id ≠ 0 then some ((List.range b.size).map (s.arrays b.id), s) else none
  | .hostStore buffer offset byte => do
    let b ← p.buffer buffer
    if offset < b.size then some ([], { s with arrays := Layout.Windows.put s.arrays b.id offset byte })
    else none
  | .hostLoad buffer offset => do
    let b ← p.buffer buffer
    if offset < b.size then some ([s.arrays b.id offset], s) else none
  | .hostWriteSynchronization event value => do
    let e ← p.event event
    return ([], { s with values := Function.update s.values e.id (uint32 value) })
  | .hostReadSynchronization event => do
    let e ← p.event event
    return ([s.values e.id], { s with values := Function.update s.values e.id 0 })
  | .load kernel param offset => do
    let b ← p.parameter kernel param
    if offset < b.size then some ([s.arrays b.id offset], s) else none
  | .store kernel param offset byte => do
    let b ← p.parameter kernel param
    if offset < b.size then some ([], { s with arrays := Layout.Windows.put s.arrays b.id offset byte })
    else none
  | .deviceWriteSynchronization kernel event value => do
    let e ← p.deviceEvent kernel event
    return ([], { s with values := Function.update s.values e.id (uint32 value) })
  | .deviceReadSynchronization kernel event => do
    let e ← p.deviceEvent kernel event
    return ([s.values e.id], { s with values := Function.update s.values e.id 0 })

end Application

end Application

end MangoModel.System
