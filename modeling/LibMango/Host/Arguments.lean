import LibMango.Device.Entry
import LibMango.Host.Mm
import LibMango.Fallible.Loops

namespace MangoModel.Host

open Numeral Device Fallible

section Encoding

structure Tlb where
  buffers : Nat → Option Nat
  events : Nat → Option Nat

def Mm.tlb (s : Mm) (k : Kernel) : Tlb := ⟨s.tlbBuffers k.id, s.tlbEvents k.id⟩

inductive ScalarType where
  | char
  | unsignedChar
  | short
  | unsignedShort
  | int
  | unsignedInt
  | float
  deriving DecidableEq, Repr

/-- An argument with its value; `BufferArg` and `EventArg` have none until they get it from a
    TLB. -/
inductive Arg where
  | scalar (type : ScalarType) (value : Nat)
  | buffer (id : Nat) (value : Option Nat)
  | event (id : Nat) (value : Option Nat)
  deriving DecidableEq, Repr

namespace Arg

/-- `(mango_size_t)arg` for an integer. -/
def ofInt (type : ScalarType) (arg : Int) : Arg := .scalar type (arg % 2^32).toNat

def ofBuffer (b : Buffer) : Arg := .buffer b.id none

def ofEvent (e : Event) : Arg := .event e.id none

def getValue : Arg → Option Nat
  | .scalar _ value => some value
  | .buffer _ value | .event _ value => value

/-- `none` where the TLB has no entry, which ends the process. -/
def setValue (tlb : Tlb) : Arg → Option Arg
  | .scalar type value => some (.scalar type value)
  | .buffer id _ => (tlb.buffers id).map fun addr => .buffer id (some addr)
  | .event id _ => (tlb.events id).map fun addr => .event id (some addr)

end Arg

structure KernelArguments where
  args : List Arg
  kernel : Kernel

/-- `std::stringstream`: the text and whether numbers are printed in base 16. -/
structure Stream where
  text : List Char
  hex : Bool

namespace Stream

def write (s : Stream) (text : List Char) : Stream := { s with text := s.text ++ text }

def setHex (s : Stream) : Stream := { s with hex := true }

def number (s : Stream) (n : Nat) : Stream := s.write (Nat.toDigits (if s.hex then 16 else 10) n)

end Stream

namespace KernelArguments

def setup (tlb : Tlb) (arguments : List Arg) (kernel : Kernel) : Option KernelArguments := do
  let evArg ← (Arg.ofEvent kernel.terminationEvent).setValue tlb
  let evArgs ← kernel.taskEvents.mapM fun ev => (Arg.ofEvent ev).setValue tlb
  let args ← arguments.mapM (Arg.setValue tlb)
  return ⟨evArg :: evArgs ++ args, kernel⟩

def memSize (clusters : List (List Nat)) : Nat :=
  clusters.foldl (fun sum tiles => tiles.foldl (fun sum size => (sum + size) % 2^64) sum) 0

/-- What the string begins with; a build with `GNEMU` knows the memory sizes. -/
def beginning (gnemu : Option (List (List Nat))) (arch : UnitType) (kernel : Kernel) : Option Stream :=
  let ss : Stream := ⟨[], false⟩
  match gnemu with
  | some clusters =>
    if arch = .GN then do
      let version ← kernel.kernel.version arch
      return (((ss.write version.toList).write [' ', '0', 'x']).setHex).number (memSize clusters)
    else some (ss.write ['x'])
  | none => some (ss.write ['x'])

def writeArgument (ss : Stream) (arg : Arg) : Option Stream := do
  let value ← arg.getValue
  match arg with
  | .buffer _ _ | .event _ _ => return ((ss.write [' ', '0', 'x']).setHex).number value
  | .scalar _ _ => return (ss.write [' ']).number value

def getArguments (gnemu : Option (List (List Nat))) (arch : UnitType) (ka : KernelArguments) :
    Option (List Char) := do
  let ss ← beginning gnemu arch ka.kernel
  let ss ← ka.args.foldlM writeArgument ss
  return ss.text

/-- The HN library hands the kernel the string split at its spaces. -/
def argv (text : List Char) : List (List Char) := text.splitOn ' '

end KernelArguments

end Encoding

section Tokens

def Arg.token (arg : Arg) (value : Nat) : List Char :=
  match arg with
  | .scalar _ _ => Nat.toDigits 16 value
  | .buffer _ _ | .event _ _ => '0' :: 'x' :: Nat.toDigits 16 value

variable {tlb : Tlb} {kernel : Kernel} {arguments : List Arg} {ka : KernelArguments}

theorem magnitude_token (arg : Arg) (value : Nat) : magnitude (arg.token value) = value := by
  cases arg with
  | scalar => exact magnitude_toDigits value
  | buffer => exact magnitude_prefixed value
  | event => exact magnitude_prefixed value

theorem strtol_token (w : Nat) (arg : Arg) (value : Nat) :
    strtol w (arg.token value) = saturate w value := by
  cases arg with
  | scalar => exact strtol_toDigits value
  | buffer => exact strtol_prefixed value
  | event => exact strtol_prefixed value

theorem space_not_mem_token (arg : Arg) (value : Nat) : ' ' ∉ arg.token value := by
  have digits := not_mem_toDigits (c := ' ') rfl value
  cases arg <;> simp [Arg.token, digits]

theorem writeArgument_hex {ss : Stream} {arg : Arg} {value : Nat} (found : arg.getValue = some value)
    (hex : ss.hex = true ∨ ∃ id v, arg = .event id v) :
    KernelArguments.writeArgument ss arg = some ⟨ss.text ++ ' ' :: arg.token value, true⟩ := by
  rcases ss with ⟨text, base⟩
  unfold KernelArguments.writeArgument
  rw [found]
  cases arg with
  | scalar type v =>
    obtain rfl : base = true := by simpa using hex
    simp [Stream.write, Stream.number, Arg.token]
  | buffer id v => simp [Stream.write, Stream.setHex, Stream.number, Arg.token]
  | event id v => simp [Stream.write, Stream.setHex, Stream.number, Arg.token]

def tokens (valued : List (Arg × Nat)) : List (List Char) := valued.map fun p => p.1.token p.2

theorem writeArguments_hex {text : List Char} {valued : List (Arg × Nat)}
    (values : ∀ p ∈ valued, p.1.getValue = some p.2) :
    (valued.map Prod.fst).foldlM KernelArguments.writeArgument ⟨text, true⟩ =
      some ⟨text ++ (tokens valued).flatMap (' ' :: ·), true⟩ := by
  induction valued generalizing text with
  | nil => simp [tokens]
  | cons p rest ih =>
    rw [List.map_cons, List.foldlM_cons, writeArgument_hex (values p List.mem_cons_self) (.inl rfl)]
    have more := @ih (text ++ ' ' :: p.1.token p.2) fun q later =>
      values q (List.mem_cons_of_mem _ later)
    simp only [Option.bind_eq_bind, Option.bind_some, more, tokens, List.map_cons, List.flatMap_cons,
      List.append_assoc]

theorem argv_spaced {first : List Char} {rest : List (List Char)} (clean : ' ' ∉ first)
    (others : ∀ t ∈ rest, ' ' ∉ t) :
    KernelArguments.argv (first ++ rest.flatMap (' ' :: ·)) = first :: rest := by
  unfold KernelArguments.argv
  induction rest generalizing first with
  | nil => simpa using List.splitOn_eq_singleton clean
  | cons t rest ih =>
    rw [List.flatMap_cons, List.cons_append, List.splitOn_append_cons_self_of_not_mem clean]
    rw [ih (others t List.mem_cons_self) fun t' later => others t' (List.mem_cons_of_mem _ later)]

def Arg.valueIn (tlb : Tlb) : Arg → Option Nat
  | .scalar _ value => some value
  | .buffer id _ => tlb.buffers id
  | .event id _ => tlb.events id

theorem setValue_some {a a' : Arg} (set : a.setValue tlb = some a') :
    ∃ value, a.valueIn tlb = some value ∧ a'.getValue = some value := by
  cases a with
  | scalar type value =>
    cases set
    exact ⟨value, rfl, rfl⟩
  | buffer id =>
    obtain ⟨addr, found, rfl⟩ := Option.map_eq_some_iff.mp set
    exact ⟨addr, found, rfl⟩
  | event id =>
    obtain ⟨addr, found, rfl⟩ := Option.map_eq_some_iff.mp set
    exact ⟨addr, found, rfl⟩

structure SetUp (tlb : Tlb) (kernel : Kernel) (arguments : List Arg) (ka : KernelArguments) : Prop where
  kernel_eq : ka.kernel = kernel
  first : ∃ id v rest, ka.args = .event id v :: rest
  values : List.Forall₂ (fun a a' => ∃ value, a.valueIn tlb = some value ∧ a'.getValue = some value)
    (Arg.ofEvent kernel.terminationEvent :: kernel.taskEvents.map Arg.ofEvent ++ arguments) ka.args

theorem setup_spec (built : KernelArguments.setup tlb arguments kernel = some ka) :
    SetUp tlb kernel arguments ka := by
  obtain ⟨evArg, exit, built⟩ := Option.bind_eq_some_iff.mp built
  obtain ⟨evArgs, tasks, built⟩ := Option.bind_eq_some_iff.mp built
  obtain ⟨args, own, built⟩ := Option.bind_eq_some_iff.mp built
  cases built
  obtain ⟨addr, _, rfl⟩ := Option.map_eq_some_iff.mp exit
  have events := (mapM_forall₂ tasks).imp fun e a' => setValue_some
  have others := (mapM_forall₂ own).imp fun a a' => setValue_some
  refine ⟨rfl, ⟨_, _, _, rfl⟩, .cons (setValue_some exit) ?_⟩
  exact List.rel_append (List.forall₂_map_left_iff.mpr events) others

theorem beginning_spec {gnemu : Option (List (List Nat))} {arch : UnitType} {ss : Stream}
    (begun : KernelArguments.beginning gnemu arch kernel = some ss)
    (emulated : arch = .GN → gnemu.isSome)
    (name : ∀ file, arch = .GN → kernel.kernel.version .GN = some file → ' ' ∉ file.toList) :
    ∃ first more, ss.text = first ++ List.flatMap (' ' :: ·) more ∧ ' ' ∉ first ∧
      (∀ t ∈ more, ' ' ∉ t) ∧ 1 + more.length + 4 = startIndex arch := by
  by_cases gn : arch = .GN
  · subst gn
    obtain ⟨clusters, rfl⟩ := Option.isSome_iff_exists.mp (emulated rfl)
    simp only [KernelArguments.beginning, ↓reduceIte] at begun
    obtain ⟨file, version, ended⟩ := Option.bind_eq_some_iff.mp begun
    cases ended
    refine ⟨file.toList, ['0' :: 'x' :: Nat.toDigits 16 (KernelArguments.memSize clusters)], ?_,
      name file rfl version, ?_, rfl⟩
    · simp [Stream.write, Stream.setHex, Stream.number]
    · simp [not_mem_toDigits (c := ' ') rfl]
  · have single : KernelArguments.beginning gnemu arch kernel = some ⟨['x'], false⟩ := by
      cases gnemu <;> simp [KernelArguments.beginning, gn, Stream.write]
    rw [single] at begun
    cases begun
    refine ⟨['x'], [], rfl, by decide, by simp, ?_⟩
    cases arch <;> first | rfl | exact absurd rfl gn

/-- Behind its beginning, the string has a token for each argument. -/
theorem getArguments_spec {gnemu : Option (List (List Nat))} {arch : UnitType} {text : List Char}
    (set : SetUp tlb kernel arguments ka) (printed : ka.getArguments gnemu arch = some text) :
    ∃ ss valued, KernelArguments.beginning gnemu arch kernel = some ss ∧
      text = ss.text ++ (tokens valued).flatMap (' ' :: ·) ∧ ka.args = valued.map Prod.fst ∧
        ∀ p ∈ valued, p.1.getValue = some p.2 := by
  obtain ⟨ss, begun, printed⟩ := Option.bind_eq_some_iff.mp printed
  obtain ⟨ss', written, printed⟩ := Option.bind_eq_some_iff.mp printed
  rw [set.kernel_eq] at begun
  have values : ∀ a ∈ ka.args, a.getValue = some (a.getValue.getD 0) := by
    refine forall₂_right set.values fun a a' related => ?_
    obtain ⟨value, _, found⟩ := related
    rw [found, Option.getD_some]
  obtain ⟨id, v, rest, args⟩ := set.first
  have listed : ka.args = (ka.args.map fun a => (a, a.getValue.getD 0)).map Prod.fst := by
    simp [Function.comp_def]
  refine ⟨ss, ka.args.map fun a => (a, a.getValue.getD 0), begun, ?_, listed, by simpa using values⟩
  cases printed
  rw [args] at values written ⊢
  rw [List.foldlM_cons, writeArgument_hex (values _ List.mem_cons_self) (.inr ⟨id, v, rfl⟩)] at written
  have later := @writeArguments_hex
    (ss.text ++ ' ' :: Arg.token (.event id v) ((Arg.event id v).getValue.getD 0))
    (rest.map fun a => (a, a.getValue.getD 0)) (by
      simpa using fun a member => values a (List.mem_cons_of_mem _ member))
  simp only [List.map_map, Function.comp_def, List.map_id'] at later
  rw [Option.bind_eq_bind, Option.bind_some, later] at written
  cases written
  simp [tokens]

/-- The string, split at its spaces: some tokens of the beginning, and then one for each argument. -/
theorem argv_spec {gnemu : Option (List (List Nat))} {arch : UnitType} {text : List Char}
    (set : SetUp tlb kernel arguments ka) (printed : ka.getArguments gnemu arch = some text)
    (emulated : arch = .GN → gnemu.isSome)
    (name : ∀ file, arch = .GN → kernel.kernel.version .GN = some file → ' ' ∉ file.toList) :
    ∃ front valued, KernelArguments.argv text = front ++ tokens valued ∧ front.length + 4 = startIndex arch ∧
      ka.args = valued.map Prod.fst ∧ ∀ p ∈ valued, p.1.getValue = some p.2 := by
  obtain ⟨ss, valued, begun, text_eq, listed, values⟩ := getArguments_spec set printed
  obtain ⟨first, more, texts, clean, others, count⟩ := beginning_spec begun emulated name
  refine ⟨first :: more, valued, ?_, ?_, listed, values⟩
  · rw [text_eq, texts, List.append_assoc, ← List.flatMap_append, argv_spaced clean, List.cons_append]
    intro t member
    rcases List.mem_append.mp member with early | late
    · exact others t early
    · obtain ⟨p, _, rfl⟩ := List.mem_map.mp late
      exact space_not_mem_token p.1 p.2
  · rw [List.length_cons]
    omega

theorem argv_at {gnemu : Option (List (List Nat))} {arch : UnitType} {text : List Char}
    (set : SetUp tlb kernel arguments ka) (printed : ka.getArguments gnemu arch = some text)
    (emulated : arch = .GN → gnemu.isSome)
    (name : ∀ file, arch = .GN → kernel.kernel.version .GN = some file → ' ' ∉ file.toList)
    {i : Nat} {a : Arg}
    (found : (Arg.ofEvent kernel.terminationEvent :: kernel.taskEvents.map Arg.ofEvent ++ arguments)[i]? =
      some a) :
    ∃ (a' : Arg) (value : Nat), (KernelArguments.argv text)[startIndex arch - 4 + i]? = some (a'.token value) ∧
      a.valueIn tlb = some value := by
  obtain ⟨front, valued, argv, count, args, values⟩ := argv_spec set printed emulated name
  obtain ⟨a', at_, value, mine, theirs⟩ := forall₂_getElem? set.values found
  rw [args, List.getElem?_map] at at_
  obtain ⟨p, there, rfl⟩ := Option.map_eq_some_iff.mp at_
  have same : p.2 = value := Option.some.inj ((values p (List.mem_of_getElem? there)).symm.trans theirs)
  refine ⟨p.1, value, ?_, mine⟩
  rw [argv, List.getElem?_append_right (by omega), tokens, List.getElem?_map]
  rw [show startIndex arch - 4 + i - front.length = i by omega, there, Option.map_some, same]

theorem argv_length {gnemu : Option (List (List Nat))} {arch : UnitType} {text : List Char}
    (set : SetUp tlb kernel arguments ka) (printed : ka.getArguments gnemu arch = some text)
    (emulated : arch = .GN → gnemu.isSome)
    (name : ∀ file, arch = .GN → kernel.kernel.version .GN = some file → ' ' ∉ file.toList) :
    (KernelArguments.argv text).length = startIndex arch + arguments.length := by
  obtain ⟨front, valued, argv, count, args, _⟩ := argv_spec set printed emulated name
  have total := set.values.length_eq
  have same : ka.args.length = valued.length := by rw [args, List.length_map]
  have three := kernel.three
  simp only [List.length_append, List.length_cons, List.length_map] at total
  rw [argv, List.length_append, tokens, List.length_map]
  omega

end Tokens

section Delivery

theorem take_four {α : Type} {l : List α} {a b c d : α} (first : l[0]? = some a) (second : l[1]? = some b)
    (third : l[2]? = some c) (fourth : l[3]? = some d) : l.take 4 = [a, b, c, d] := by
  rcases l with _ | ⟨w, _ | ⟨x, _ | ⟨y, _ | ⟨z, rest⟩⟩⟩⟩ <;> simp_all

/-- The entry point and the start-up code of the device find in `argv` what the host put there. -/
structure Delivered (arch : UnitType) (kargs : List ParamType) (tlb : Tlb) (kernel : Kernel)
    (arguments : List Arg) (argv : List (List Char)) : Prop where
  count : argv.length = startIndex arch + arguments.length
  params : ∀ (j : Nat) type a, kargs[j]? = some type → type ≠ .other → arguments[j]? = some a →
    (genKernelEntry arch kargs)[j]? = some (some (type, startIndex arch + j)) ∧
      ∃ token value, argv[startIndex arch + j]? = some token ∧ a.valueIn tlb = some value ∧
        magnitude token = value
  events : ∃ exit a b r, tlb.events kernel.terminationEvent.id = some exit ∧
    kernel.taskEvents.map (fun e => tlb.events e.id) = [some a, some b, some r] ∧
      ((argv.drop (startIndex arch - 4)).take 4).map magnitude = [exit, a, b, r] ∧
      ∀ w, (arch = .PEAK → mangoPeakInit w argv =
          some ⟨saturate w exit, saturate w a, saturate w b, saturate w r⟩) ∧
        (arch = .GN → (mangoGnInit w argv).map Prod.snd =
          some ⟨(saturate w exit).tdiv 4, (saturate w a).tdiv 4, (saturate w b).tdiv 4,
            (saturate w r).tdiv 4⟩)

/-- What the host encodes for a kernel is what its device decodes. -/
theorem arguments_delivered {gnemu : Option (List (List Nat))} {arch : UnitType} {kargs : List ParamType}
    {tlb : Tlb} {kernel : Kernel} {arguments : List Arg} {ka : KernelArguments} {text : List Char}
    (built : KernelArguments.setup tlb arguments kernel = some ka)
    (printed : ka.getArguments gnemu arch = some text) (emulated : arch = .GN → gnemu.isSome)
    (name : ∀ file, arch = .GN → kernel.kernel.version .GN = some file → ' ' ∉ file.toList) :
    Delivered arch kargs tlb kernel arguments (KernelArguments.argv text) := by
  have set := setup_spec built
  have at_ := fun i a => argv_at set printed emulated name (i := i) (a := a)
  have length := argv_length set printed emulated name
  have three := kernel.three
  refine ⟨length, fun j type a param known own => ⟨genKernelEntry_get param known, ?_⟩, ?_⟩
  · obtain ⟨a', value, token, mine⟩ := at_ (4 + j) a (by
      rw [List.cons_append, Nat.add_comm, List.getElem?_cons_succ, List.getElem?_append_right (by simp [three])]
      simpa [three] using own)
    have start : startIndex arch - 4 + (4 + j) = startIndex arch + j := by
      have four : 4 ≤ startIndex arch := by cases arch <;> decide
      omega
    rw [start] at token
    exact ⟨_, value, token, mine, magnitude_token a' value⟩
  · obtain ⟨e₁, e₂, e₃, tasks⟩ := List.length_eq_three.mp three
    rw [tasks] at at_ ⊢
    obtain ⟨a₀, exit, token₀, value₀⟩ := at_ 0 _ rfl
    obtain ⟨a₁, a, token₁, value₁⟩ := at_ 1 _ rfl
    obtain ⟨a₂, b, token₂, value₂⟩ := at_ 2 _ rfl
    obtain ⟨a₃, r, token₃, value₃⟩ := at_ 3 _ rfl
    refine ⟨exit, a, b, r, value₀, ?_, ?_, fun w => ⟨fun peak => ?_, fun gn => ?_⟩⟩
    · simp only [Arg.valueIn, Arg.ofEvent] at value₁ value₂ value₃
      simp only [List.map_cons, List.map_nil, value₁, value₂, value₃]
    · rw [← List.getElem?_drop] at token₀ token₁ token₂ token₃
      rw [take_four token₀ token₁ token₂ token₃]
      simp only [List.map_cons, List.map_nil, magnitude_token]
    · subst peak
      change (KernelArguments.argv text)[1]? = _ at token₀
      change (KernelArguments.argv text)[2]? = _ at token₁
      change (KernelArguments.argv text)[3]? = _ at token₂
      change (KernelArguments.argv text)[4]? = _ at token₃
      simp [mangoPeakInit, argument, token₀, token₁, token₂, token₃, strtol_token]
    · subst gn
      rcases first : (KernelArguments.argv text)[1]? with _ | size
      · rw [List.getElem?_eq_none_iff] at first
        have six : startIndex .GN = 6 := rfl
        omega
      · change (KernelArguments.argv text)[2]? = _ at token₀
        change (KernelArguments.argv text)[3]? = _ at token₁
        change (KernelArguments.argv text)[4]? = _ at token₂
        change (KernelArguments.argv text)[5]? = _ at token₃
        simp [mangoGnInit, argument, first, token₀, token₁, token₂, token₃, strtol_token]

/-- A kernel on a PEAK unit, whose events and buffers are mapped at their ids times 4096. -/
def plainKernel : Kernel where
  id := 1
  kernel := (KernelFunction.empty.load (fun _ => true) "peak" .PEAK .BINARY).2
  buffersIn := [10]
  buffersOut := []
  threadCount := 0
  terminationEvent := ⟨1, 0, [1], [1], 0⟩
  taskEvents := [⟨2, 0, [1], [1], 0⟩, ⟨3, 0, [1], [1], 0⟩, ⟨4, 0, [1], [1], 0⟩]
  unit := some ⟨5, .PEAK⟩
  phyAddr := 0
  memTile := 0
  clusterId := 0

def plainTlb : Tlb := ⟨fun id => some (4096 * id), fun id => some (4096 * id)⟩

theorem arguments_delivered_buffer_scalar :
    Delivered .PEAK [.pointer, .int] plainTlb plainKernel [.buffer 10 none, .scalar .int 255]
      (KernelArguments.argv "x 0x1000 0x2000 0x3000 0x4000 0xa000 ff".toList) :=
  arguments_delivered rfl (show KernelArguments.getArguments none .PEAK _ = some _ from rfl) (by simp)
    (by simp)

end Delivery

end MangoModel.Host
