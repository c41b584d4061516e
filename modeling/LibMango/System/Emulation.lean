import LibMango.Host.BufferTlb
import LibMango.System.Transparency

namespace MangoModel.System

open Host Device OpenCL Interleave Layout Fallible Numeral Simulation

section Model

/-- What the file has at an offset that emulated units share with the host: a byte of a tile, or a register. -/
inductive InFile where
  | byte (cell : Nat × Nat × Nat)
  | register (slot : Nat × Nat)
  deriving DecidableEq, Repr

/-- The emulation of the hardware: the sizes of the tiles of each cluster, and what is where in the file. -/
structure Emulator where
  sizes : List (List Nat)
  file : Nat → Option InFile
  once : ∀ offset offset' here, file offset = some here → file offset' = some here → offset = offset'

namespace Emulator

variable (emulator : Emulator) (size : Int)

/-- A byte of the mapped part of the file. -/
def byteAt (offset : Nat) : Option (Nat × Nat × Nat) :=
  if (offset : Int) < size then
    match emulator.file offset with
    | some (.byte cell) => some cell
    | _ => none
  else none

def wordAt (offset : Nat) : Option (Nat × Nat) :=
  if (offset : Int) + 4 ≤ size then
    match emulator.file offset with
    | some (.register slot) => some slot
    | _ => none
  else none

variable {emulator size} {offset : Nat}

theorem byteAt_eq_some {cell : Nat × Nat × Nat} : emulator.byteAt size offset = some cell ↔
    (offset : Int) < size ∧ emulator.file offset = some (.byte cell) := by
  unfold byteAt
  split
  · next inside =>
    split
    · next cell' here => simp [inside, here]
    · next other =>
      simp only [reduceCtorEq, inside, true_and, false_iff]
      exact other cell
  · next outside => simp [outside]

theorem wordAt_eq_some {slot : Nat × Nat} : emulator.wordAt size offset = some slot ↔
    (offset : Int) + 4 ≤ size ∧ emulator.file offset = some (.register slot) := by
  unfold wordAt
  split
  · next inside =>
    split
    · next slot' here => simp [inside, here]
    · next other =>
      simp only [reduceCtorEq, inside, true_and, false_iff]
      exact other slot
  · next outside => simp [outside]

end Emulator

/-- `mango_memory_map` of a GN unit: the word of the mapped memory that the pointer is to. -/
def gnMemoryMap (a : Int) : Nat := (a % 2^64).toNat / 4

def gnPointer (w : Nat) (kargs : List ParamType) (argv : List (List Char)) (type : ParamType) (j : Nat) :
    Option Nat := do
  let (declared, index) ← (← (genKernelEntry .GN kargs)[j]?)
  if declared ≠ type then none
  return gnMemoryMap (← argument w argv index)

/-- The word of an event's register; one below the mapped memory is none. -/
def gnEventPointer (w : Nat) (kargs : List ParamType) (argv : List (List Char)) : DeviceEvent → Option Nat
  | .exit => do (← mangoGnInit w argv).2.eventExit.toNat?
  | .a => do (← mangoGnInit w argv).2.eventA.toNat?
  | .b => do (← mangoGnInit w argv).2.eventB.toNat?
  | .r => do (← mangoGnInit w argv).2.eventR.toNat?
  | .param j => gnPointer w kargs argv .mangoEvent j

/-- A context whose graph has been allocated in simulated mode. -/
structure Emulation where
  cxt : Context
  mm : Mm
  arguments : Nat → List Arg
  kargs : Nat → List ParamType
  w : Nat
  emulator : Emulator

namespace Emulation

variable (d : Emulation)

def started (kid : Nat) : Option (List (List Char)) := do
  let k ← d.cxt.kernels[kid]?
  let unit ← k.unit
  let ka ← KernelArguments.setup (d.mm.tlb k) (d.arguments kid) k
  let text ← ka.getArguments (some d.emulator.sizes) unit.arch
  return KernelArguments.argv text

/-- What the kernels reach through the file, which each of them maps to its memory. -/
def platform : Platform where
  cxt := d.cxt
  memoryAt kernel param offset := do
    let argv ← d.started kernel
    let (size, _) ← mangoGnInit d.w argv
    let word ← gnPointer d.w (d.kargs kernel) argv .pointer param
    d.emulator.byteAt size (4 * word + offset)
  registerAt kernel event := do
    let argv ← d.started kernel
    let (size, _) ← mangoGnInit d.w argv
    let word ← gnEventPointer d.w (d.kargs kernel) argv event
    d.emulator.wordAt size (4 * word)

end Emulation

def Application.emulate (p : Application) (cxt : Context) (r : Allocated) (w : Nat) (emulator : Emulator) :
    Emulation where
  cxt := OpenCL.store cxt r.tg
  mm := r.mm
  arguments := p.arguments
  kargs := p.kargs
  w := w
  emulator := emulator

end Model

section Values

variable {w v : Nat}

theorem memSize_lt (clusters : List (List Nat)) : KernelArguments.memSize clusters < 2^64 := by
  have tiles : ∀ (sizes : List Nat) (sum : Nat), sum < 2^64 →
      sizes.foldl (fun sum size => (sum + size) % 2^64) sum < 2^64 := by
    intro sizes
    induction sizes with
    | nil => exact fun sum below => below
    | cons size rest ih => exact fun sum _ => ih _ (Nat.mod_lt _ (by decide))
  have all : ∀ (clusters : List (List Nat)) (sum : Nat), sum < 2^64 →
      clusters.foldl (fun sum tiles => tiles.foldl (fun sum size => (sum + size) % 2^64) sum) sum < 2^64 := by
    intro clusters
    induction clusters with
    | nil => exact fun sum below => below
    | cons sizes rest ih => exact fun sum below => ih _ (tiles sizes sum below)
  exact all clusters 0 (by decide)

theorem gnMemoryMap_nat (below : v < 2^64) : gnMemoryMap v = v / 4 := by
  unfold gnMemoryMap
  omega

theorem word_toNat (v : Nat) : ((v : Int) / 4).toNat? = some (v / 4) := rfl

end Values

section Starting

variable {kernel : Kernel} {arguments : List Arg} {ka : KernelArguments} {tlb : Tlb} {clusters : List (List Nat)}
  {file : String}

theorem getArguments_gn (clusters : List (List Nat)) (set : SetUp tlb kernel arguments ka)
    (binary : kernel.kernel.version .GN = some file) : ∃ text, ka.getArguments (some clusters) .GN = some text := by
  have values : ∀ a ∈ ka.args, ∃ value, a.getValue = some value :=
    forall₂_right set.values fun a a' related => ⟨_, related.choose_spec.2⟩
  obtain ⟨ss, begun⟩ : ∃ ss, KernelArguments.beginning (some clusters) .GN ka.kernel = some ss :=
    ⟨_, by rw [set.kernel_eq, KernelArguments.beginning, if_pos rfl, binary]; rfl⟩
  obtain ⟨ss', written⟩ : ∃ ss', ka.args.foldlM KernelArguments.writeArgument ss = some ss' := by
    refine foldlM_always (fun a member s => ?_) _
    obtain ⟨value, found⟩ := values a member
    cases a <;> exact ⟨_, by rw [KernelArguments.writeArgument, found]; rfl⟩
  exact ⟨ss'.text, by simp [KernelArguments.getArguments, begun, written]⟩

/-- The second word of an emulated unit's `argv` is the size of the memory. -/
theorem argv_size {text : List Char} (set : SetUp tlb kernel arguments ka)
    (printed : ka.getArguments (some clusters) .GN = some text)
    (binary : kernel.kernel.version .GN = some file) (name : ' ' ∉ file.toList) (w : Nat) :
    argument w (KernelArguments.argv text) 1 = some (saturate w (KernelArguments.memSize clusters)) := by
  obtain ⟨ss, valued, begun, rfl, _⟩ := getArguments_spec set printed
  rw [KernelArguments.beginning, if_pos rfl, binary] at begun
  cases begun
  let size := '0' :: 'x' :: Nat.toDigits 16 (KernelArguments.memSize clusters)
  have spaced : KernelArguments.argv (file.toList ++ (size :: tokens valued).flatMap (' ' :: ·)) =
      file.toList :: size :: tokens valued := by
    refine argv_spaced name fun t member => ?_
    rcases List.mem_cons.mp member with rfl | listed
    · simp [size, not_mem_toDigits (c := ' ') rfl]
    · obtain ⟨p, _, rfl⟩ := List.mem_map.mp listed
      exact space_not_mem_token p.1 p.2
  simp only [size, List.flatMap_cons, List.cons_append] at spaced
  simp only [Stream.write, Stream.setHex, Stream.number, List.nil_append, List.append_assoc, List.cons_append,
    ↓reduceIte]
  rw [spaced, argument, List.getElem?_cons_succ, List.getElem?_cons_zero, Option.map_some, strtol_prefixed]

variable {d : Emulation} {kid : Nat} {unit : HwUnit}

/-- The `argv` of an emulated unit has behind its first two words the values of the kernel's events and of its
    arguments. -/
theorem Emulation.started_values (stored : d.cxt.kernels[kid]? = some kernel) (on : kernel.unit = some unit)
    (gn : unit.arch = .GN) (binary : kernel.kernel.version .GN = some file) (name : ' ' ∉ file.toList)
    (known : ∀ a ∈ allArguments kernel (d.arguments kid), (a.valueIn (d.mm.tlb kernel)).isSome) :
    ∃ argv, d.started kid = some argv ∧
      argument d.w argv 1 = some (saturate d.w (KernelArguments.memSize d.emulator.sizes)) ∧
      ∀ (i : Nat) a, (allArguments kernel (d.arguments kid))[i]? = some a → ∃ value,
        a.valueIn (d.mm.tlb kernel) = some value ∧ argument d.w argv (2 + i) = some (saturate d.w value) := by
  obtain ⟨ka, built⟩ := setup_succeeds known
  have set := setup_spec built
  obtain ⟨text, printed⟩ := getArguments_gn d.emulator.sizes set binary
  refine ⟨KernelArguments.argv text, ?_, argv_size set printed binary name d.w, fun i a found => ?_⟩
  · simp [Emulation.started, stored, on, gn, built, printed]
  · have clean : ∀ file, UnitType.GN = .GN → kernel.kernel.version .GN = some file → ' ' ∉ file.toList := by
      intro file' _ same
      rw [binary] at same
      obtain rfl := Option.some.inj same
      exact name
    obtain ⟨a', value, token, mine⟩ := argv_at set printed (fun _ => rfl) clean found
    refine ⟨value, mine, ?_⟩
    change (KernelArguments.argv text)[2 + i]? = _ at token
    rw [argument, token, Option.map_some, strtol_token]

end Starting

section Decoding

variable {w : Nat} {argv : List (List Char)} {kargs : List ParamType}

theorem gnPointer_eq {type : ParamType} {j : Nat} {value : Int} (known : type ≠ .other)
    (declared : kargs[j]? = some type) (found : argument w argv (6 + j) = some value) :
    gnPointer w kargs argv type j = some (gnMemoryMap value) := by
  have entry : (genKernelEntry .GN kargs)[j]? = some (some (type, 6 + j)) := by
    rw [genKernelEntry, declarations_get declared]
    cases type <;> first | rfl | exact absurd rfl known
  simp [gnPointer, entry, found]

theorem mangoGnInit_eq {size e₀ e₁ e₂ e₃ : Int} (first : argument w argv 1 = some size)
    (exit : argument w argv 2 = some e₀) (a : argument w argv 3 = some e₁) (b : argument w argv 4 = some e₂)
    (r : argument w argv 5 = some e₃) :
    mangoGnInit w argv = some (size, ⟨e₀.tdiv 4, e₁.tdiv 4, e₂.tdiv 4, e₃.tdiv 4⟩) := by
  simp [mangoGnInit, first, exit, a, b, r]

theorem mangoGnInit_some {size : Int} (first : argument w argv 1 = some size)
    (own : ∀ i < 4, ∃ value, argument w argv (2 + i) = some value) :
    ∃ events, mangoGnInit w argv = some (size, events) := by
  obtain ⟨e₀, exit⟩ := own 0 (by decide)
  obtain ⟨e₁, a⟩ := own 1 (by decide)
  obtain ⟨e₂, b⟩ := own 2 (by decide)
  obtain ⟨e₃, r⟩ := own 3 (by decide)
  exact ⟨_, mangoGnInit_eq first exit a b r⟩

/-- The start-up code finds the word of an event's register where the host has put its address. -/
theorem gnEventPointer_eq {event : DeviceEvent} {size : Int} {v : Nat} (first : argument w argv 1 = some size)
    (own : ∀ i < 4, ∃ value, argument w argv (2 + i) = some value)
    (found : argument w argv (2 + event.index) = some (v : Int)) (below : v < 2^64)
    (declared : ∀ j, event = .param j → kargs[j]? = some .mangoEvent) :
    gnEventPointer w kargs argv event = some (v / 4) := by
  obtain ⟨e₀, exit⟩ := own 0 (by decide)
  obtain ⟨e₁, a⟩ := own 1 (by decide)
  obtain ⟨e₂, b⟩ := own 2 (by decide)
  obtain ⟨e₃, r⟩ := own 3 (by decide)
  have init := mangoGnInit_eq first exit a b r
  cases event with
  | exit =>
    obtain rfl := Option.some.inj (exit.symm.trans found)
    simp [gnEventPointer, init, word_toNat]
  | a =>
    obtain rfl := Option.some.inj (a.symm.trans found)
    simp [gnEventPointer, init, word_toNat]
  | b =>
    obtain rfl := Option.some.inj (b.symm.trans found)
    simp [gnEventPointer, init, word_toNat]
  | r =>
    obtain rfl := Option.some.inj (r.symm.trans found)
    simp [gnEventPointer, init, word_toNat]
  | param j =>
    rw [DeviceEvent.index, ← Nat.add_assoc] at found
    rw [gnEventPointer, gnPointer_eq (by decide) (declared j rfl) found, gnMemoryMap_nat below]

end Decoding

/-- The file keeps each buffer and each register at its physical address. -/
structure Filed (emulator : Emulator) (asked answer : BbqueGraph) : Prop where
  bytes : ∀ (id : Nat) (old b : BbqueBuffer), asked.buffers[id]? = some old → answer.buffers[id]? = some b →
    ∀ j < old.size, b.physicalAddress + j < KernelArguments.memSize emulator.sizes ∧
      emulator.file (b.physicalAddress + j) =
        some (.byte (answer.cluster, b.memoryBank, b.physicalAddress + j))
  words : ∀ (id addr : Nat), answer.events[id]? = some addr → addr + 4 ≤ KernelArguments.memSize emulator.sizes ∧
    emulator.file addr = some (.register (answer.cluster, addr))

/-- All kernels are for emulated units, and the resource manager keeps its promises to the application. -/
structure Emulable (p : Application) (manager : BbqueGraph → BbqueGraph) (emulator : Emulator) (w : Nat) :
    Prop where
  units : ∀ k ∈ p.tg.kernels, (p.units k.id).arch = .GN
  binaries : ∀ k ∈ p.tg.kernels, ∃ file, k.kernel.version .GN = some file ∧ ' ' ∉ file.toList
  housed : ∀ asked, toBbque p.tg = some asked → Housed p.units asked (manager asked)
  filed : ∀ asked, toBbque p.tg = some asked → Filed emulator asked (manager asked)
  given : ∀ k ∈ p.tg.kernels, ∀ a ∈ p.arguments k.id, Given p.tg k a
  small : KernelArguments.memSize emulator.sizes < 2^(w - 1)

/-- The buffers and the registers that kernels have pointers to begin where words begin. -/
structure Aligned (p : Application) (cxt : Context) : Prop where
  buffers : ∀ kid j b, p.parameter kid j = some b → 0 < b.size →
    ∀ b', cxt.buffers[b.id]? = some b' → 4 ∣ b'.phyAddr
  events : ∀ kid event e, p.deviceEvent kid event = some e → ∀ e', cxt.events[e.id]? = some e' → 4 ∣ e'.phyAddr

structure Emulated (p : Application) (cxt : Context) (manager : BbqueGraph → BbqueGraph) (outcome : Nat → Bool)
    (regs : Registers) (mm : Mm) (r : Allocated) (emulator : Emulator) (w : Nat) : Prop where
  formed : Formed p.tg
  registered : Registered cxt p.tg
  emulable : Emulable p manager emulator w
  run : resourceAllocation manager outcome p.tg regs mm = some r

namespace Emulated

variable {p : Application} {cxt : Context} {manager : BbqueGraph → BbqueGraph} {outcome : Nat → Bool}
  {regs : Registers} {mm : Mm} {r : Allocated} {emulator : Emulator} {w : Nat}
  (emulated : Emulated p cxt manager outcome regs mm r emulator w)

include emulated

theorem allotted : Allotted p cxt manager outcome regs mm r :=
  ⟨emulated.formed, emulated.registered, emulated.emulable.housed, emulated.run⟩

theorem unit_gn {k : Kernel} (member : k ∈ r.tg.kernels) : (p.units k.id).arch = .GN := by
  obtain ⟨k₀, here, _, ids⟩ := emulated.allotted.listed member
  rw [← ids]
  exact emulated.emulable.units k₀ here

theorem mapping : mm.renew.setVaddr outcome .MM_GN r.tg = some r.mm := by
  obtain ⟨_, _, first, unit, head, on, mapping⟩ := resourceAllocation_cases emulated.run
  have member := List.mem_of_mem_head? head
  have gn : unit.arch = .GN := by
    rw [emulated.allotted.on member] at on
    rw [← Option.some.inj on]
    exact emulated.unit_gn member
  rwa [if_pos gn] at mapping

/-- A kernel gets a buffer that names it at the buffer's physical address, where it is in the file. -/
theorem buffer_at {k : Kernel} (member : k ∈ r.tg.kernels) {b : Buffer} (known : p.buffer b.id = some b)
    (names : k.id ∈ b.names) : ∃ b', (OpenCL.store cxt r.tg).buffers[b.id]? = some b' ∧
      r.mm.tlbBuffers k.id b.id = some b'.phyAddr ∧ ∀ j < b.size,
        b'.phyAddr + j < KernelArguments.memSize emulator.sizes ∧
          emulator.file (b'.phyAddr + j) =
            some (.byte ((bufferWindows p (OpenCL.store cxt r.tg)).cell b.id j)) := by
  obtain ⟨b', listed, bare, here⟩ := emulated.allotted.stored.buffers b (List.mem_of_find?_eq_some known)
  obtain ⟨ids, same⟩ := buffer_names bare
  obtain ⟨b'', listed'', ids'', found⟩ := setVaddr_bufferAt emulated.mapping listed (emulated.allotted.guest member)
    (by rw [same]; exact names)
  obtain rfl := List.inj_on_of_nodup_map emulated.allotted.bufferIds listed'' listed ids''
  rw [ids] at found
  refine ⟨b'', here, found, fun j inside => ?_⟩
  obtain ⟨asked, sent, _, located⟩ := emulated.allotted.located
  obtain ⟨placed, answered, tile, cluster, phyAddr⟩ := located.buffers b'' listed''
  rw [ids] at answered
  obtain ⟨old, request, size⟩ := emulated.allotted.sent_buffer sent known
  obtain ⟨below, kept⟩ := (emulated.emulable.filed asked sent).bytes b.id old placed request answered j (by omega)
  rw [bufferWindows_cell _ here, tile, cluster, phyAddr]
  exact ⟨below, kept⟩

/-- A kernel gets an event that names it at the register's address, where it is in the file. -/
theorem event_at {k : Kernel} (member : k ∈ r.tg.kernels) {e : Event} (known : e ∈ p.tg.events)
    (names : k.id ∈ e.names) : ∃ e', (OpenCL.store cxt r.tg).events[e.id]? = some e' ∧
      r.mm.tlbEvents k.id e.id = some e'.phyAddr ∧
        e'.phyAddr + 4 ≤ KernelArguments.memSize emulator.sizes ∧
          emulator.file e'.phyAddr =
            some (.register ((eventWindows p (OpenCL.store cxt r.tg)).cell e.id 0)) := by
  obtain ⟨asked, f, e', sent, found, address, here, answered, cluster⟩ :=
    emulated.allotted.event_address emulated.mapping (emulated.allotted.guest member) member known names
  obtain ⟨below, kept⟩ := (emulated.emulable.filed asked sent).words _ _ answered
  rw [show eventAddress .MM_GN (p.units k.id) f = f.phyAddr from rfl, address] at found
  rw [eventWindows_cell _ here, cluster]
  exact ⟨e', here, found, below, kept⟩

theorem value_saturate {v : Nat} (below : v < KernelArguments.memSize emulator.sizes) : saturate w v = v :=
  saturate_below (Nat.lt_trans below emulated.emulable.small)

/-- A kernel that has been started has the size of the file and the addresses of its events and arguments. -/
theorem started {kid : Nat} {k : Kernel} (found : p.kernel kid = some k) :
    ∃ k' ∈ r.tg.kernels, k'.bare = k.bare ∧ k'.id = k.id ∧ k ∈ p.tg.kernels ∧ k.id = kid ∧
      ∃ argv, (p.emulate cxt r w emulator).started kid = some argv ∧
        argument w argv 1 = some (KernelArguments.memSize emulator.sizes : Int) ∧
        ∀ (i : Nat) a, (allArguments k' (p.arguments k.id))[i]? = some a → ∃ value,
          a.valueIn (r.mm.tlb k') = some value ∧ argument w argv (2 + i) = some (saturate w value) := by
  obtain ⟨k', member', bare, ids, member, same, _, stored, on⟩ := emulated.allotted.reads found
  obtain ⟨file, binary, name⟩ := emulated.emulable.binaries k member
  have function : k'.kernel = k.kernel := by
    have same := congrArg Kernel.kernel bare
    exact same
  have binary' : k'.kernel.version .GN = some file := by
    rw [function, binary]
  subst same
  obtain ⟨argv, started, size, values⟩ := Emulation.started_values (d := p.emulate cxt r w emulator) stored on
    (emulated.emulable.units k member) binary' name
    (emulated.allotted.value_known member bare (emulated.emulable.given k member))
  have fits := saturate_below emulated.emulable.small
  exact ⟨k', member', bare, ids, member, rfl, argv, started, size.trans (congrArg some fits), values⟩

/-- What a kernel's buffer pointer leads to: the word of the buffer's address, and on from there. -/
theorem memoryAt_eq {kid j : Nat} {b : Buffer} (found : p.parameter kid j = some b) (inhabited : 0 < b.size) :
    ∃ b', (OpenCL.store cxt r.tg).buffers[b.id]? = some b' ∧
      (∀ j < b.size, b'.phyAddr + j < KernelArguments.memSize emulator.sizes ∧
        emulator.file (b'.phyAddr + j) = some (.byte ((bufferWindows p (OpenCL.store cxt r.tg)).cell b.id j))) ∧
      ∀ offset, (p.emulate cxt r w emulator).platform.memoryAt kid j offset =
        emulator.byteAt (KernelArguments.memSize emulator.sizes) (4 * (b'.phyAddr / 4) + offset) := by
  obtain ⟨k, reads, _⟩ := Option.bind_eq_some_iff.mp found
  obtain ⟨k', member', bare, ids, member, rfl, argv, started, size, values⟩ := emulated.started reads
  obtain ⟨known, names, ⟨v, passed⟩, declared⟩ :=
    emulated.allotted.buffer_passed k' (emulated.emulable.given k member) found
  obtain ⟨b', here, address, bytes⟩ := emulated.buffer_at member' known (by rw [ids]; exact names)
  refine ⟨b', here, bytes, fun offset => ?_⟩
  have below : b'.phyAddr < KernelArguments.memSize emulator.sizes := (bytes 0 inhabited).1
  obtain ⟨value, mine, decoded⟩ := values (4 + j) _ passed
  obtain rfl := Option.some.inj (address.symm.trans mine)
  rw [emulated.value_saturate below, ← Nat.add_assoc] at decoded
  have pointed : gnPointer w (p.kargs k.id) argv .pointer j = some (b'.phyAddr / 4) := by
    rw [gnPointer_eq (by decide) declared decoded, gnMemoryMap_nat (Nat.lt_trans below (memSize_lt _))]
  obtain ⟨events, init⟩ := mangoGnInit_some size (own_given values)
  have init : mangoGnInit (p.emulate cxt r w emulator).w argv = _ := init
  have pointed : gnPointer (p.emulate cxt r w emulator).w
    ((p.emulate cxt r w emulator).kargs k.id) argv .pointer j =
    _ := pointed
  simp only [Emulation.platform, started, init, pointed, Option.bind_eq_bind, Option.bind_some]
  rfl

/-- What a kernel's event pointer leads to: the word of the register's address. -/
theorem registerAt_eq {kid : Nat} {event : DeviceEvent} {e : Event} (found : p.deviceEvent kid event = some e) :
    ∃ e', (OpenCL.store cxt r.tg).events[e.id]? = some e' ∧
      e'.phyAddr + 4 ≤ KernelArguments.memSize emulator.sizes ∧
      emulator.file e'.phyAddr = some (.register ((eventWindows p (OpenCL.store cxt r.tg)).cell e.id 0)) ∧
      (p.emulate cxt r w emulator).platform.registerAt kid event =
        emulator.wordAt (KernelArguments.memSize emulator.sizes) (4 * (e'.phyAddr / 4)) := by
  obtain ⟨k, reads, _⟩ := Option.bind_eq_some_iff.mp found
  obtain ⟨k', member', bare, ids, member, rfl, argv, started, size, values⟩ := emulated.started reads
  obtain ⟨known, names, ⟨v, passed⟩, declared⟩ :=
    emulated.allotted.event_passed reads bare (emulated.emulable.given k member) found
  obtain ⟨e', here, address, below, kept⟩ := emulated.event_at member' known (by rw [ids]; exact names)
  refine ⟨e', here, below, kept, ?_⟩
  obtain ⟨value, mine, decoded⟩ := values _ _ passed
  obtain rfl := Option.some.inj (address.symm.trans mine)
  have inside : e'.phyAddr < KernelArguments.memSize emulator.sizes := by omega
  rw [emulated.value_saturate inside] at decoded
  have pointed := gnEventPointer_eq size (own_given values) decoded (Nat.lt_trans inside (memSize_lt _)) declared
  obtain ⟨events, init⟩ := mangoGnInit_some size (own_given values)
  have init : mangoGnInit (p.emulate cxt r w emulator).w argv = _ := init
  have pointed : gnEventPointer (p.emulate cxt r w emulator).w
    ((p.emulate cxt r w emulator).kargs k.id) argv event =
    _ := pointed
  simp only [Emulation.platform, started, init, pointed, Option.bind_eq_bind, Option.bind_some]
  rfl

/-- Pointers to words lead where they are to lead. -/
theorem placed (aligned : Aligned p (OpenCL.store cxt r.tg)) : Placed p (p.emulate cxt r w emulator).platform where
  buffers id b found := by
    obtain ⟨b', _, bare, stored⟩ := emulated.allotted.stored.buffers b (List.mem_of_find?_eq_some found)
    rw [Application.buffer_id found] at stored
    exact ⟨b', stored, bare⟩
  events id e found := by
    obtain ⟨e', _, _, stored⟩ := emulated.allotted.stored.events e (List.mem_of_find?_eq_some found)
    rw [Application.event_id found] at stored
    exact ⟨e', stored⟩
  memory := emulated.allotted.memory_separate
  registers := emulated.allotted.registers_separate
  pointers kid j b found offset inside := by
    obtain ⟨b', here, bytes, leads⟩ := emulated.memoryAt_eq found (by omega)
    obtain ⟨below, kept⟩ := bytes offset inside
    have word := aligned.buffers kid j b found (by omega) b' here
    rw [leads, Nat.mul_div_cancel' word, Emulator.byteAt_eq_some]
    exact ⟨by exact_mod_cast below, kept⟩
  deviceEvents kid event e found := by
    obtain ⟨e', here, below, kept, leads⟩ := emulated.registerAt_eq found
    have word := aligned.events kid event e found e' here
    rw [leads, Nat.mul_div_cancel' word, Emulator.wordAt_eq_some]
    exact ⟨by exact_mod_cast below, kept⟩

theorem aligned_of (buffers : ∀ b ∈ r.tg.buffers, 4 ∣ b.phyAddr) (events : ∀ e ∈ r.tg.events, 4 ∣ e.phyAddr) :
    Aligned p (OpenCL.store cxt r.tg) := by
  constructor
  · intro kid j b found _ b' here
    obtain ⟨b'', listed, _, here'⟩ :=
      emulated.allotted.stored.buffers b (List.mem_of_find?_eq_some (Application.parameter_self found))
    obtain rfl := Option.some.inj (here'.symm.trans here)
    exact buffers b'' listed
  · intro kid event e found e' here
    obtain ⟨e'', listed, _, here'⟩ :=
      emulated.allotted.stored.events e (List.mem_of_find?_eq_some (Application.deviceEvent_self found))
    obtain rfl := Option.some.inj (here'.symm.trans here)
    exact events e'' listed

/-- A pointer that is not to a word leads elsewhere. -/
theorem astray {kid j : Nat} {b b' : Buffer} (found : p.parameter kid j = some b) (inhabited : 0 < b.size)
    (here : (OpenCL.store cxt r.tg).buffers[b.id]? = some b') (split : ¬ 4 ∣ b'.phyAddr) :
    (p.emulate cxt r w emulator).platform.memoryAt kid j 0 ≠
      some ((bufferWindows p (OpenCL.store cxt r.tg)).cell b.id 0) := by
  obtain ⟨b'', here', bytes, leads⟩ := emulated.memoryAt_eq found inhabited
  obtain rfl := Option.some.inj (here'.symm.trans here)
  intro there
  rw [leads, Emulator.byteAt_eq_some] at there
  have same := emulator.once _ _ _ there.2 (bytes 0 inhabited).2
  omega

theorem event_astray {kid : Nat} {event : DeviceEvent} {e e' : Event} (found : p.deviceEvent kid event = some e)
    (here : (OpenCL.store cxt r.tg).events[e.id]? = some e') (split : ¬ 4 ∣ e'.phyAddr) :
    (p.emulate cxt r w emulator).platform.registerAt kid event ≠
      some ((eventWindows p (OpenCL.store cxt r.tg)).cell e.id 0) := by
  obtain ⟨e'', here', _, kept, leads⟩ := emulated.registerAt_eq found
  obtain rfl := Option.some.inj (here'.symm.trans here)
  intro there
  rw [leads, Emulator.wordAt_eq_some] at there
  have same := emulator.once _ _ _ there.2 kept
  omega

end Emulated

section Transparency

variable {p : Application} {cxt : Context}

/-- What the hardware has where the objects are. -/
def contentsOf (p : Application) (cxt : Context) (h : Hardware) : Contents where
  arrays id j := cells h.memory ((bufferWindows p cxt).cell id j)
  values id := slots h.regs ((eventWindows p cxt).cell id 0)

theorem shows_contentsOf (h : Hardware) : Shows p cxt (contentsOf p cxt h) h := by
  refine ⟨fun _ _ _ => rfl, fun id j inside => ?_⟩
  obtain ⟨e, _, first⟩ := eventWindows_inside inside
  obtain rfl := Nat.lt_one_iff.mp first
  rfl

/-- The platform does what the application does, whatever host and kernels do. -/
def Transparent (p : Application) (f : Platform) : Prop :=
  ∀ (contents contents' : Contents) (h : Hardware) (commands : List Command) (answers : List (List Nat)),
    Shows p f.cxt contents h → Machine.run p.step contents commands = some (answers, contents') →
      ∃ h', Machine.run f.step h commands = some (answers, h') ∧ Shows p f.cxt contents' h'

variable {f : Platform}

theorem Transparent.memoryAt (transparent : Transparent p f) {kid j : Nat} {b : Buffer}
    (found : p.parameter kid j = some b) (inhabited : 0 < b.size) :
    f.memoryAt kid j 0 = some ((bufferWindows p f.cxt).cell b.id 0) := by
  let here := (bufferWindows p f.cxt).cell b.id 0
  let h : Hardware := ⟨fun c t a => if (c, t, a) = here then 1 else 0, fun _ _ => 0⟩
  obtain ⟨h', ran, _⟩ := transparent (contentsOf p f.cxt h) (contentsOf p f.cxt h) h [.load kid j 0] [[1]]
    (shows_contentsOf h) (by
      simp [Machine.run, Application.step, found, inhabited, contentsOf, h, cells, here])
  obtain ⟨answer, t, later, one, _, same⟩ := Machine.run_cons ran
  obtain ⟨cell, there, one⟩ := Option.bind_eq_some_iff.mp one
  cases one
  have loaded : h.loadByte cell = 1 := by
    have first := (List.cons.inj same).1
    exact ((List.cons.inj first).1).symm
  rw [there]
  by_contra other
  have apart : cell ≠ here := fun same => other (congrArg some same)
  simp [Hardware.loadByte, h, apart] at loaded

theorem Transparent.registerAt (transparent : Transparent p f) {kid : Nat} {event : DeviceEvent} {e : Event}
    (found : p.deviceEvent kid event = some e) :
    f.registerAt kid event = some ((eventWindows p f.cxt).cell e.id 0) := by
  let here := (eventWindows p f.cxt).cell e.id 0
  let h : Hardware := ⟨fun _ _ _ => 0, fun c a => if (c, a) = here then 1 else 0⟩
  obtain ⟨h', ran, _⟩ := transparent (contentsOf p f.cxt h) _ h [.deviceReadSynchronization kid event] [[1]]
    (shows_contentsOf h) (by
      simp [Machine.run, Application.step, found, contentsOf, h, slots, here]; rfl)
  obtain ⟨answer, t, later, one, _, same⟩ := Machine.run_cons ran
  obtain ⟨slot, there, one⟩ := Option.bind_eq_some_iff.mp one
  cases one
  have read : (h.readRegister slot).1 = 1 := by
    have first := (List.cons.inj same).1
    exact ((List.cons.inj first).1).symm
  rw [there]
  by_contra other
  have apart : slot ≠ here := fun same => other (congrArg some same)
  simp [Hardware.readRegister, Registers.read, h, apart] at read

variable {created : Nat} {registrations : List Registration} {given : List Answer} {s : Registry}
  {kernels buffers events : List Nat} {manager : BbqueGraph → BbqueGraph} {outcome : Nat → Bool}
  {regs : Registers} {mm : Mm} {r : Allocated} {emulator : Emulator} {w : Nat}

theorem constructed_emulated (registered : History.registerAll created registrations = some (given, s))
    (few : s.created ≤ 2^32) (made : mangoTaskGraphCreate s.cxt kernels buffers events = some p.tg)
    (kernelIds : kernels.Nodup) (bufferIds : buffers.Nodup) (emulable : Emulable p manager emulator w)
    (run : resourceAllocation manager outcome p.tg regs mm = some r) :
    Emulated p s.cxt manager outcome regs mm r emulator w := by
  obtain ⟨formed, known⟩ := constructed_formed registered few made kernelIds bufferIds
  exact ⟨formed, known, emulable, run⟩

/-- In simulated mode, where the virtual addresses are the physical ones and a kernel finds them in a file, host
    and kernels get the answers that arrays and variables would give exactly when the buffers and registers that
    the kernels have pointers to begin where words of the file begin: `mango_memory_map` divides by 4. -/
theorem emulation_transparent_iff
    (registered : History.registerAll created registrations = some (given, s)) (few : s.created ≤ 2^32)
    (made : mangoTaskGraphCreate s.cxt kernels buffers events = some p.tg) (kernelIds : kernels.Nodup)
    (bufferIds : buffers.Nodup) (emulable : Emulable p manager emulator w)
    (run : resourceAllocation manager outcome p.tg regs mm = some r) :
    Transparent p (p.emulate s.cxt r w emulator).platform ↔ Aligned p (OpenCL.store s.cxt r.tg) := by
  have emulated := constructed_emulated registered few made kernelIds bufferIds emulable run
  constructor
  · intro transparent
    constructor
    · intro kid j b found inhabited b' here
      by_contra split
      exact emulated.astray found inhabited here split (transparent.memoryAt found inhabited)
    · intro kid event e found e' here
      by_contra split
      exact emulated.event_astray found here split (transparent.registerAt found)
  · intro aligned contents contents' h commands answers shown ran
    exact (emulated.placed aligned).simulated.run shown ran

end Transparency

section File

/-- A kernel on an emulated unit that makes one buffer of another. -/
def emulatedRegistrations : List Registration :=
  [.kernel 1 (KernelFunction.empty.load (fun _ => true) "gn" .GN .BINARY).2 [10] [11],
    .memory 10 100 .BUFFER [0] [1], .memory 11 64 .BUFFER [1] [0]]

def emulatedGraph : TaskGraph where
  kernels :=
    [{ id := 1, kernel := (KernelFunction.empty.load (fun _ => true) "gn" .GN .BINARY).2
       buffersIn := [10], buffersOut := [11], threadCount := 0
       terminationEvent := event 1, taskEvents := [event 2, event 3, event 4]
       unit := none, phyAddr := 0, memTile := 0, clusterId := 0 }]
  buffers := [⟨10, 100, .BUFFER, [0], [1], ⟨5, 0, [0], [1], 0⟩, 0, 0, 0⟩,
    ⟨11, 64, .BUFFER, [1], [0], ⟨6, 0, [1], [0], 0⟩, 0, 0, 0⟩]
  events := (List.range' 1 4).map event ++ [⟨5, 0, [0], [1], 0⟩, ⟨6, 0, [1], [0], 0⟩]
where
  event (id : Nat) : Event := ⟨id, 0, [1], [1], 0⟩

def emulatedUnit (_ : Nat) : HwUnit := ⟨9, .GN⟩

def emulatedApplication : Application where
  tg := emulatedGraph
  units := emulatedUnit
  arguments kid := if kid = 1 then [.buffer 10 none, .buffer 11 none, .event 6 none] else []
  kargs kid := if kid = 1 then [.pointer, .pointer, .mangoEvent] else []

def emulatedManager : BbqueGraph → BbqueGraph := placeOn fun _ => (9, .GN)

/-- Registers at the front, and then the tiles, of `2^24` bytes each. -/
def smallFile (offset : Nat) : InFile :=
  if offset < 2^24 then .register (0, offset) else .byte (0, offset / 2^24, offset)

def smallEmulator : Emulator where
  sizes := [[2^28]]
  file offset := some (smallFile offset)
  once offset offset' here first second := by
    obtain rfl := Option.some.inj first
    have same := Option.some.inj second
    unfold smallFile at same
    split at same <;> split at same <;> simp at same
    · exact same.symm
    · exact same.2.symm

theorem emulated_constructed : ∃ given s, History.registerAll 1 emulatedRegistrations = some (given, s) ∧
    s.created = 7 ∧ mangoTaskGraphCreate s.cxt [1] [10, 11] [] = some emulatedGraph := by
  have constructed : (History.registerAll 1 emulatedRegistrations).bind (fun h =>
      (mangoTaskGraphCreate h.2.cxt [1] [10, 11] []).map fun tg => (h.2.created, tg)) =
        some (7, emulatedGraph) := by rfl
  obtain ⟨⟨given, s⟩, registered, made⟩ := Option.bind_eq_some_iff.mp constructed
  obtain ⟨tg, made, same⟩ := Option.map_eq_some_iff.mp made
  obtain ⟨count, rfl⟩ := Prod.mk.inj same
  exact ⟨given, s, registered, count, made⟩

section Asked

variable {asked : BbqueGraph} (sent : toBbque emulatedGraph = some asked)

include sent

theorem emulated_cluster : asked.cluster = 0 := by
  have none : (toBbque emulatedGraph).map BbqueGraph.cluster = some 0 := by decide
  rw [sent] at none
  exact Option.some.inj none

theorem emulated_task {id : Nat} {task : BbqueTask} (found : asked.tasks[id]? = some task) :
    (task.targets .GN).isSome := by
  have offered : (toBbque emulatedGraph).map (fun asked => asked.tasks.toList.all fun entry =>
      (entry.2.targets .GN).isSome) = some true := by decide
  rw [sent, Option.map_some, Option.some.injEq, List.all_eq_true] at offered
  exact offered _ (Std.TreeMap.mem_toList_iff_getElem?_eq_some.mpr found)

theorem emulated_size {id : Nat} {b : BbqueBuffer} (found : asked.buffers[id]? = some b) :
    (id = 10 ∨ id = 11) ∧ b.size ≤ 100 := by
  have listed : (toBbque emulatedGraph).map (fun asked => asked.buffers.toList.all fun entry =>
      (decide (entry.1 = 10) || decide (entry.1 = 11)) && decide (entry.2.size ≤ 100)) = some true := by decide
  rw [sent, Option.map_some, Option.some.injEq, List.all_eq_true] at listed
  simpa using listed _ (Std.TreeMap.mem_toList_iff_getElem?_eq_some.mpr found)

theorem emulated_housed : Housed emulatedUnit asked (emulatedManager asked) := by
  refine ⟨placeOn_answers fun id t found => emulated_task sent found, ?_, ?_⟩
  · intro id t found
    simp only [emulatedManager, placeOn, Std.TreeMap.getElem?_map, Option.map_eq_some_iff] at found
    obtain ⟨_, _, rfl⟩ := found
    rfl
  · intro id id' old old' b b' _ _ answered answered' other same
    simp only [emulatedManager, placeOn, Std.TreeMap.getElem?_map, Option.map_eq_some_iff] at answered answered'
    obtain ⟨_, _, rfl⟩ := answered
    obtain ⟨_, _, rfl⟩ := answered'
    exact absurd same other

theorem emulated_filed : Filed smallEmulator asked (emulatedManager asked) := by
  have cluster : (emulatedManager asked).cluster = 0 := by
    have same := emulated_cluster sent
    exact same
  obtain ⟨_, _, eventKeys⟩ := toBbque_keys sent
  constructor
  · intro id old b request answered j inside
    obtain ⟨ids, small⟩ := emulated_size sent request
    simp only [emulatedManager, placeOn, Std.TreeMap.getElem?_map, Option.map_eq_some_iff] at answered
    obtain ⟨_, _, rfl⟩ := answered
    have size : KernelArguments.memSize smallEmulator.sizes = 2^28 := rfl
    refine ⟨by rw [size]; dsimp only; omega, ?_⟩
    have high : ¬ 2^24 * id + j < 2^24 := by omega
    have tile : (2^24 * id + j) / 2^24 = id := by omega
    simp only [smallEmulator, smallFile, high, tile, cluster, ↓reduceIte]
  · intro id addr answered
    simp only [emulatedManager, placeOn, Std.TreeMap.getElem?_map, Option.map_eq_some_iff] at answered
    obtain ⟨old, found, rfl⟩ := answered
    have known : id ∈ asked.events := Std.TreeMap.mem_iff_isSome_getElem?.mpr (by rw [found]; rfl)
    have bound : ∀ id ∈ emulatedGraph.events.map Event.id, 4 * id + 8 < 2^24 := by decide
    have low := bound id ((eventKeys id).mp known)
    have size : KernelArguments.memSize smallEmulator.sizes = 2^28 := rfl
    refine ⟨by rw [size]; omega, ?_⟩
    have front : 4 * id + 4 < 2^24 := by omega
    simp only [smallEmulator, smallFile, front, cluster, ↓reduceIte]

end Asked

theorem emulated_emulable : Emulable emulatedApplication emulatedManager smallEmulator 64 where
  units _ _ := rfl
  binaries := by decide
  housed asked sent := emulated_housed sent
  filed asked sent := emulated_filed sent
  given k member a inside := by
    have event : (⟨6, 0, [1], [0], 0⟩ : Event) ∈ emulatedGraph.events := by decide
    simp only [emulatedApplication, emulatedGraph, List.mem_cons, List.not_mem_nil, or_false] at member
    subst member
    simp only [emulatedApplication, ↓reduceIte, List.mem_cons, List.not_mem_nil, or_false] at inside
    rcases inside with rfl | rfl | rfl
    · exact ⟨_, List.mem_cons_self, rfl, by decide⟩
    · exact ⟨_, List.mem_cons_of_mem _ List.mem_cons_self, rfl, by decide⟩
    · exact ⟨_, event, rfl, by decide⟩
  small := by decide

theorem emulated_allocated : ∃ r, resourceAllocation emulatedManager (fun _ => true) emulatedGraph
    (fun _ _ => 0) .start = some r ∧ (∀ b ∈ r.tg.buffers, 4 ∣ b.phyAddr) ∧ ∀ e ∈ r.tg.events, 4 ∣ e.phyAddr := by
  have allocated : (resourceAllocation emulatedManager (fun _ => true) emulatedGraph (fun _ _ => 0) .start).map
      (fun r => decide ((∀ b ∈ r.tg.buffers, 4 ∣ b.phyAddr) ∧ ∀ e ∈ r.tg.events, 4 ∣ e.phyAddr)) = some true := by
    decide
  obtain ⟨r, run, aligned⟩ := Option.map_eq_some_iff.mp allocated
  exact ⟨r, run, of_decide_eq_true aligned⟩

theorem emulation_transparent_iff_aligned : ∃ cxt r h,
    resourceAllocation emulatedManager (fun _ => true) emulatedGraph (fun _ _ => 0) .start = some r ∧
      Machine.run (emulatedApplication.emulate cxt r 64 smallEmulator).platform.step ⟨fun _ _ _ => 0, r.regs⟩
        [.mangoWrite 10 fun j => j + 1, .load 1 0 41, .store 1 1 3 84, .load 1 1 3,
          .deviceWriteSynchronization 1 (.param 2) 1, .hostReadSynchronization 6] =
        some ([[], [42], [], [84], [], [1]], h) := by
  obtain ⟨given, s, registered, count, made⟩ := emulated_constructed
  obtain ⟨r, run, buffers, events⟩ := emulated_allocated
  have few : s.created ≤ 2^32 := by
    rw [count]
    decide
  have emulated := constructed_emulated (p := emulatedApplication) registered few made (by decide) (by decide)
    emulated_emulable run
  have aligned := emulated.aligned_of buffers events
  have transparent := (emulation_transparent_iff (p := emulatedApplication) registered few made (by decide)
    (by decide) emulated_emulable run).mpr aligned
  obtain ⟨contents', ran⟩ : ∃ contents', Machine.run emulatedApplication.step
      (contentsOf emulatedApplication (OpenCL.store s.cxt r.tg) ⟨fun _ _ _ => 0, r.regs⟩)
      [.mangoWrite 10 fun j => j + 1, .load 1 0 41, .store 1 1 3 84, .load 1 1 3,
        .deviceWriteSynchronization 1 (.param 2) 1, .hostReadSynchronization 6] =
      some ([[], [42], [], [84], [], [1]], contents') := ⟨_, rfl⟩
  obtain ⟨h, ran', _⟩ := transparent _ contents' _ _ _ (shows_contentsOf _) ran
  exact ⟨s.cxt, r, h, run, ran'⟩

end File

end MangoModel.System
