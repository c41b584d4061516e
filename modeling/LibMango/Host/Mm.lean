import LibMango.Host.Graph
import LibMango.Machine

namespace MangoModel.Host

def TLB_BASE_SHRD : Nat := 0x50000000
def TLB_BASE_SYNCH : Nat := 0x5e000000
def TLB_BASE_KERN : Nat := 0x30000000
def TLB_ENTRY_KERNEL : Nat := 1
def TLB_ENTRY_EVENTS : Nat := 2
def TLB_ENTRY_START : Nat := 3

def NUP_TLB_BASE_SYNCH : Nat := 0xFF000000
def NUP_TLB_BASE_KERN : Nat := 0x00000000
def TLB_BASE_SHRD_NUPLUS : Nat := 0x80000000

def TLB_BASE_SHRD_DCT : Nat := 0x50000000
def TLB_BASE_SYNCH_DCT : Nat := 0x10000000

inductive TlbTarget where
  | memory
  | registers
  deriving DecidableEq, Repr

structure HnTlb where
  tile : Nat
  entry : Nat
  vaddrIni : Nat
  vaddrEnd : Nat
  paddr : Nat
  target : TlbTarget
  memTile : Nat
  clusterId : Nat
  deriving DecidableEq, Repr

/-- The maps of the memory manager, the virtual addresses it gives to each kernel, and the
    calls of `hn_set_tlb`, with those whose failure it has logged. -/
structure Mm where
  entries : Nat → Option Nat
  virtualAddressPool : Nat → Option Nat
  virtualAddress : Nat → Option Nat
  tlbBuffers : Nat → Nat → Option Nat
  tlbEvents : Nat → Nat → Option Nat
  calls : List HnTlb
  failed : List HnTlb

/-- `MM_GN` overrides `set_buff_tlb` and `set_event_tlb`. -/
inductive Manager where
  | MM
  | MM_GN
  deriving DecidableEq, Repr

namespace Mm

def start : Mm := ⟨fun _ => none, fun _ => none, fun _ => none, fun _ _ => none, fun _ _ => none, [], []⟩

/-- `outcome n` is whether call number `n` of `hn_set_tlb` succeeds. -/
def hnSetTlb (outcome : Nat → Bool) (call : HnTlb) (s : Mm) : Mm :=
  { s with
    calls := s.calls ++ [call]
    failed := if outcome s.calls.length then s.failed else s.failed ++ [call] }

def setVirtAddrBuffer (k b addr : Nat) (s : Mm) : Mm :=
  { s with tlbBuffers := Function.update s.tlbBuffers k (Function.update (s.tlbBuffers k) b (some addr)) }

def setVirtAddrEvent (k e addr : Nat) (s : Mm) : Mm :=
  { s with tlbEvents := Function.update s.tlbEvents k (Function.update (s.tlbEvents k) e (some addr)) }

def setVirtualAddress (k addr : Nat) (s : Mm) : Mm :=
  { s with virtualAddress := Function.update s.virtualAddress k (some addr) }

def setEntries (unit entry : Nat) (s : Mm) : Mm :=
  { s with entries := Function.update s.entries unit (some entry) }

def setPool (k addr : Nat) (s : Mm) : Mm :=
  { s with virtualAddressPool := Function.update s.virtualAddressPool k (some addr) }

variable (outcome : Nat → Bool)

/-- The virtual address is in 32 bits, and the failure of the call is only logged. -/
def setTlbKb (unit memBank startingAddr size phyAddr entry clusterId : Nat) (s : Mm) : Mm :=
  s.hnSetTlb outcome
    { tile := unit
      entry := entry
      vaddrIni := startingAddr
      vaddrEnd := uint32 (startingAddr + size + (2^32 - 1))
      paddr := phyAddr
      target := .memory
      memTile := memBank
      clusterId := clusterId }

/-- One iteration of `set_vaddr_kernels`; `none` where a map or the unit of the kernel lacks what
    the source reads. -/
def setVaddrKernel (s : Mm) (k : Kernel) : Option Mm := do
  let unit ← k.unit
  let kernSize ← k.kernel.size unit.arch
  let (virtAddr, tlbAreaSize, s) := match unit.arch with
    | .PEAK => (TLB_BASE_KERN, 256 * 1024 * 1024, s.setPool k.id TLB_BASE_SHRD)
    | .NUP => (NUP_TLB_BASE_KERN, kernSize, s.setPool k.id TLB_BASE_SHRD_NUPLUS)
    | .DCT => (TLB_BASE_KERN, kernSize, s.setPool k.id TLB_BASE_SHRD_DCT)
    | _ => (TLB_BASE_KERN, kernSize, s)
  let s := s.setTlbKb outcome unit.id k.memTile virtAddr tlbAreaSize k.phyAddr TLB_ENTRY_KERNEL k.clusterId
  return (s.setVirtualAddress k.id virtAddr).setEntries unit.id TLB_ENTRY_START

def setVaddrKernels (tg : TaskGraph) (s : Mm) : Option Mm :=
  tg.kernels.foldlM (setVaddrKernel outcome) { s with entries := fun _ => none }

def nextVirtualAddress (next size : Nat) : Nat :=
  let next := uint32 (next + size)
  if next % 64 ≠ 0 then uint32 (next + (64 - next % 64)) else next

def setBuffTlb (manager : Manager) (k : Kernel) (b : Buffer) (s : Mm) : Option Mm :=
  match manager with
  | .MM => do
    let next ← s.virtualAddressPool k.id
    let s := s.setVirtAddrBuffer k.id b.id next
    let unit ← k.unit
    let entry ← s.entries unit.id
    let s := s.setTlbKb outcome unit.id b.memTile next b.size b.phyAddr entry b.clusterId
    return (s.setEntries unit.id (entry + 1)).setPool k.id (nextVirtualAddress next b.size)
  | .MM_GN => some (s.setVirtAddrBuffer k.id b.id b.phyAddr)

def mapBuffer (manager : Manager) (tg : TaskGraph) (b : Buffer) (s : Mm) (kId : Nat) : Option Mm :=
  if kId = 0 then some s
  else do
    let k ← tg.getKernelById kId
    s.setBuffTlb outcome manager k b

def setVaddrBuffers (manager : Manager) (tg : TaskGraph) (s : Mm) : Option Mm :=
  tg.buffers.foldlM (fun s b => do
    let s ← b.kernelsIn.foldlM (mapBuffer outcome manager tg b) s
    b.kernelsOut.foldlM (mapBuffer outcome manager tg b) s) s

def eventBase : UnitType → Nat
  | .NUP => NUP_TLB_BASE_SYNCH
  | .DCT => TLB_BASE_SYNCH_DCT
  | _ => TLB_BASE_SYNCH

def setEventTlb (manager : Manager) (k : Kernel) (s : Mm) (e : Event) : Option Mm :=
  match manager with
  | .MM => do
    let unit ← k.unit
    return s.setVirtAddrEvent k.id e.id (uint32 (eventBase unit.arch + e.phyAddr))
  | .MM_GN => some (s.setVirtAddrEvent k.id e.id e.phyAddr)

def mapEvent (manager : Manager) (tg : TaskGraph) (e : Event) (s : Mm) (kId : Nat) : Option Mm :=
  if kId = 0 then some s
  else do
    let k ← tg.getKernelById kId
    s.setEventTlb manager k e

/-- The TLB entry for all the events of a unit, if its architecture has one. -/
def eventTlb (k : Kernel) (unit : HwUnit) : Option HnTlb :=
  match unit.arch with
  | .PEAK | .NUP | .DCT => some
    { tile := unit.id
      entry := TLB_ENTRY_EVENTS
      vaddrIni := eventBase unit.arch
      vaddrEnd := eventBase unit.arch + 0xffffff
      paddr := 0
      target := .registers
      memTile := 0
      clusterId := k.clusterId }
  | _ => none

def mapEvents (manager : Manager) (s : Mm) (k : Kernel) : Option Mm := do
  let unit ← k.unit
  let s := match eventTlb k unit with
    | some call => s.hnSetTlb outcome call
    | none => s
  k.taskEvents.foldlM (setEventTlb manager k) s

def setVaddrEvents (manager : Manager) (tg : TaskGraph) (s : Mm) : Option Mm := do
  let s ← tg.events.foldlM (fun s e => do
    let s ← e.kernelsIn.foldlM (mapEvent manager tg e) s
    e.kernelsOut.foldlM (mapEvent manager tg e) s) s
  tg.kernels.foldlM (mapEvents outcome manager) s

def setVaddr (manager : Manager) (tg : TaskGraph) (s : Mm) : Option Mm := do
  let s ← s.setVaddrKernels outcome tg
  let s ← s.setVaddrBuffers outcome manager tg
  s.setVaddrEvents outcome manager tg

end Mm

end MangoModel.Host
