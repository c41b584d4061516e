import LibMango.Host.Context
import LibMango.Host.Loading
import LibMango.OpenCL.Devices
import LibMango.Vectors.Latest

namespace MangoModel.OpenCL

open Host Vectors

section Model

/-- A C string: its address, and the text that is there. -/
@[ext] structure CString where
  address : Nat
  text : String
  deriving DecidableEq, Repr

/-- Devices are known by their addresses, and `none` is the null pointer. -/
structure MangoKernelFunction where
  device : Option Nat
  function : Option KernelFunction
  buffersIn : List Nat
  buffersOut : List Nat

/-- What `std::map` enters under a key that it does not have. -/
instance : Inhabited MangoKernelFunction := ⟨none, none, [], []⟩

structure Program where
  mapKernelFunctions : IdMap MangoKernelFunction

structure ClContext where
  devices : List Nat
  program : Option Program

/-- How a call ends that does not return: the process ends, an allocation fails, or a code is thrown. -/
inductive Ending where
  | ended
  | badAlloc
  | thrown (code : ClCode)
  deriving DecidableEq, Repr

/-- What the outside answers during a call: the units of the devices, which files can be read when a
    binary is loaded, and which allocations are granted. -/
structure Setting where
  unitType : Nat → UnitType
  readable : Nat → String → Bool
  memory : Nat → Bool

/-- What the functions that create something return and write to `errcode_ret`, once they are caught;
    `none` where they do not return. -/
def caught {α : Type} : Except Ending α → Option (Option α × ClCode)
  | .ok a => some (some a, .CL_SUCCESS)
  | .error .ended => none
  | .error .badAlloc => some (none, .CL_OUT_OF_HOST_MEMORY)
  | .error (.thrown code) => some (none, code)

/-- `none` where an assertion fails. -/
def mangoLoadKernel (readable : String → Bool) (kname : String) (kernel : KernelFunction)
    (unit : UnitType) : Option (ExitCode × KernelFunction) :=
  if unit = .STOP then none
  else
    let (err, kernel) := kernel.load readable kname unit .BINARY
    some (if err = .SUCCESS then .SUCCESS else .ERR_INVALID_KERNEL_FILE, kernel)

/-- The map of the program, and what has been written to `binary_status`. -/
structure Creating where
  functions : IdMap MangoKernelFunction
  status : Nat → Option ClCode

variable (w : Setting) (binaries : List CString) (wanted : Bool)

def Creating.write (s : Creating) (i : Nat) (code : ClCode) : Creating :=
  if wanted then { s with status := Function.update s.status i (some code) } else s

def Creating.enter (s : Creating) (device : Nat) (path : CString) (f : KernelFunction) : Creating :=
  { s with
    functions := s.functions.insert path.address
      { s.functions.getD path.address default with device := some device, function := some f } }

/-- The loop over the devices, from the i-th one on. -/
def createFunctions : Nat → List Nat → Creating → Except Ending Unit × Creating
  | _, [], s => (.ok (), s)
  | i, device :: rest, s =>
    match binaries[i]? with
    | none => (.error .ended, s)
    | some path =>
      if w.memory (i + 1) = false then (.error .badAlloc, s)
      else match mangoLoadKernel (w.readable i) path.text .empty (w.unitType device) with
        | none => (.error .ended, s)
        | some (err, f) =>
          let s := s.enter device path f
          if err ≠ .SUCCESS then
            (.error (.thrown .CL_INVALID_BINARY), { s with functions := ∅ }.write wanted i .CL_INVALID_BINARY)
          else createFunctions (i + 1) rest (s.write wanted i .CL_SUCCESS)

structure Creation where
  result : Except Ending Program
  status : Nat → Option ClCode
  context : Option ClContext

def clCreateProgramWithBinary (context : Option ClContext) (deviceList : Option (List Nat))
    (binaries : Option (List CString)) : Creation :=
  match context with
  | none => ⟨.error (.thrown .CL_INVALID_CONTEXT), fun _ => none, context⟩
  | some c =>
    match deviceList with
    | none | some [] => ⟨.error (.thrown .CL_INVALID_DEVICE), fun _ => none, context⟩
    | some (device :: rest) =>
      if ¬ ∀ d ∈ device :: rest, d ∈ c.devices then
        ⟨.error (.thrown .CL_INVALID_DEVICE), fun _ => none, context⟩
      else match binaries with
        | none => ⟨.error (.thrown .CL_INVALID_VALUE),
            (Creating.write wanted ⟨∅, fun _ => none⟩ 0 .CL_INVALID_VALUE).status, context⟩
        | some binaries =>
          if w.memory 0 = false then ⟨.error .badAlloc, fun _ => none, context⟩
          else match createFunctions w binaries wanted 0 (device :: rest) ⟨∅, fun _ => none⟩ with
            | (.error ending, s) => ⟨.error ending, s.status, context⟩
            | (.ok (), s) => ⟨.ok ⟨s.functions⟩, s.status, some { c with program := some ⟨s.functions⟩ }⟩

/-- The loading of the i-th binary for its device is tried, with the given code. -/
def Tried (i device : Nat) (path : CString) (err : ExitCode) : Prop :=
  w.memory (i + 1) = true ∧
    ∃ f, mangoLoadKernel (w.readable i) path.text .empty (w.unitType device) = some (err, f)

/-- The program has a kernel function bound to the device with the binary loaded for its unit type. -/
def Program.Bound (program : Program) (device : Nat) (path : CString) : Prop :=
  ∃ (address : Nat) (entry : MangoKernelFunction) (f : KernelFunction),
    program.mapKernelFunctions[address]? = some entry ∧ entry.device = some device ∧
      entry.function = some f ∧ f.loaded = true ∧ f.version (w.unitType device) = some path.text

/-- Loading fails at an index, after it has succeeded at those before it. -/
def FailsAt (devices : List Nat) (i : Nat) : Prop :=
  w.memory 0 = true ∧
  (∀ j < i, ∀ device path, devices[j]? = some device → binaries[j]? = some path →
    Tried w j device path .SUCCESS) ∧
  ∃ device path err, devices[i]? = some device ∧ binaries[i]? = some path ∧ Tried w i device path err ∧
    err ≠ .SUCCESS

/-- All binaries are kept or none is, with the codes that say so. -/
structure Created (context : ClContext) (devices : List Nat) : Prop where
  kept : ∀ program,
    (clCreateProgramWithBinary w wanted (some context) (some devices) (some binaries)).result = .ok program →
    ∀ (i device : Nat) (path : CString), devices[i]? = some device → binaries[i]? = some path →
      program.Bound w device path ∧
        (wanted → (clCreateProgramWithBinary w wanted (some context) (some devices)
          (some binaries)).status i = some .CL_SUCCESS)
  failed : ∀ i, FailsAt w binaries devices i →
    let call := clCreateProgramWithBinary w wanted (some context) (some devices) (some binaries)
    caught call.result = some (none, .CL_INVALID_BINARY) ∧ call.context = some context ∧
      (wanted → ∀ j, call.status j =
        if j < i then some .CL_SUCCESS else if j = i then some .CL_INVALID_BINARY else none)

end Model

section Loop

variable {w : Setting} {binaries : List CString} {wanted : Bool} {i device : Nat} {rest : List Nat}
  {s s' : Creating} {path : CString} {f : KernelFunction}

/-- What a new kernel function is once a binary has been loaded. -/
def loadedFunction (unit : UnitType) (file : String) : KernelFunction :=
  { (KernelFunction.empty.setVersion unit file).setSize unit with loaded := true }

theorem mangoLoadKernel_success {readable : String → Bool} {unit : UnitType} {file : String}
    (run : mangoLoadKernel readable file .empty unit = some (.SUCCESS, f)) : f = loadedFunction unit file := by
  unfold mangoLoadKernel at run
  split at run
  · cases run
  · rcases KernelFunction.load_cases .empty ⟨readable, file, unit, .BINARY⟩ with loaded | failed | failed
    · obtain ⟨success, _, same⟩ := loaded
      simp only [LoadCall.result] at success same
      simp only [success, ↓reduceIte, Option.some.injEq, Prod.mk.injEq, true_and] at run
      exact run.symm.trans same
    all_goals
      have other := failed.1
      simp only [LoadCall.result] at other
      simp [other] at run

theorem loadedFunction_version (unit : UnitType) (file : String) :
    (loadedFunction unit file).version unit = some file :=
  Function.update_self _ _ _

theorem createFunctions_step (found : binaries[i]? = some path) (tried : Tried w i device path .SUCCESS) :
    createFunctions w binaries wanted i (device :: rest) s =
      createFunctions w binaries wanted (i + 1) rest
        ((s.enter device path (loadedFunction (w.unitType device) path.text)).write wanted i .CL_SUCCESS) := by
  obtain ⟨granted, f, loaded⟩ := tried
  have known := mangoLoadKernel_success loaded
  simp [createFunctions, found, granted, loaded, known]

theorem createFunctions_fails {err : ExitCode} (found : binaries[i]? = some path)
    (tried : Tried w i device path err) (failed : err ≠ .SUCCESS) :
    ∃ s', createFunctions w binaries wanted i (device :: rest) s =
        (.error (.thrown .CL_INVALID_BINARY), s') ∧
      (wanted → s'.status = Function.update s.status i (some .CL_INVALID_BINARY)) := by
  obtain ⟨granted, f, loaded⟩ := tried
  refine ⟨_, by simp [createFunctions, found, granted, loaded, failed]; rfl, ?_⟩
  rintro rfl
  rfl

/-- If the loop comes to its end, each binary has been loaded. -/
theorem createFunctions_tried (run : createFunctions w binaries wanted i (device :: rest) s = (.ok (), s')) :
    ∃ path, binaries[i]? = some path ∧ Tried w i device path .SUCCESS := by
  unfold createFunctions at run
  split at run
  · cases run
  · next path found =>
    split at run
    · cases run
    · next granted =>
      split at run
      · cases run
      · next err f loaded =>
        dsimp only at run
        split at run
        · cases run
        · next success =>
          refine ⟨path, found, by simpa using granted, f, ?_⟩
          rw [loaded, not_not.mp success]

/-- The table is that of the items entered so far. -/
def Tabled (w : Setting) (items : List (Nat × CString)) (functions : IdMap MangoKernelFunction) : Prop :=
  ∀ address : Nat, functions[address]? =
    (latest (fun item => item.2.address) items address).map fun item =>
      ⟨some item.1, some (loadedFunction (w.unitType item.1) item.2.text), [], []⟩

theorem Tabled.enter {items : List (Nat × CString)} (tabled : Tabled w items s.functions) (device : Nat)
    (path : CString) : Tabled w (items ++ [(device, path)])
      (s.enter device path (loadedFunction (w.unitType device) path.text)).functions := by
  intro address
  rw [latest_append, Creating.enter, Std.TreeMap.getElem?_insert]
  have before := tabled path.address
  by_cases same : path.address = address
  · rw [if_pos same, if_pos (Std.LawfulEqCmp.compare_eq_iff_eq.mpr same), Option.map_some,
      Std.TreeMap.getD_eq_getD_getElem?, before]
    cases latest (fun item : Nat × CString => item.2.address) items path.address <;> rfl
  · rw [if_neg same, if_neg (fun equal => same (Std.LawfulEqCmp.compare_eq_iff_eq.mp equal))]
    exact tabled address

theorem Creating.write_functions (s : Creating) (wanted : Bool) (i : Nat) (code : ClCode) :
    (s.write wanted i code).functions = s.functions := by
  cases wanted <;> rfl

theorem Creating.write_status (s : Creating) (wanted : Bool) (i : Nat) (code : ClCode) (given : wanted) :
    (s.write wanted i code).status = Function.update s.status i (some code) := by
  cases wanted with
  | false => cases given
  | true => rfl

theorem createFunctions_ok (run : createFunctions w binaries wanted i rest s = (.ok (), s')) :
    (∀ (j device : Nat), rest[j]? = some device →
      ∃ path, binaries[i + j]? = some path ∧ Tried w (i + j) device path .SUCCESS) ∧
    (∀ done, Tabled w done s.functions → Tabled w (done ++ rest.zip (binaries.drop i)) s'.functions) ∧
    (wanted → ∀ j, s'.status j =
      if i ≤ j ∧ j < i + rest.length then some .CL_SUCCESS else s.status j) := by
  induction rest generalizing i s with
  | nil =>
    cases run
    refine ⟨nofun, fun done tabled => by simpa using tabled, fun _ j => ?_⟩
    rw [if_neg (by simp)]
  | cons device rest ih =>
    obtain ⟨path, found, tried⟩ := createFunctions_tried run
    rw [createFunctions_step found tried] at run
    obtain ⟨all, tabled, status⟩ := ih run
    refine ⟨?_, ?_, ?_⟩
    · intro j device' listed
      cases j with
      | zero =>
        cases listed
        exact ⟨path, found, tried⟩
      | succ j =>
        have later := all j device' listed
        rwa [Nat.add_right_comm] at later
    · intro done before
      have next := tabled (done ++ [(device, path)]) (by
        rw [Creating.write_functions]
        exact before.enter device path)
      have inside : i < binaries.length := (List.getElem?_eq_some_iff.mp found).1
      have here : binaries[i] = path := (List.getElem?_eq_some_iff.mp found).2
      rw [List.drop_eq_getElem_cons inside, List.zip_cons_cons, here]
      rwa [List.append_assoc] at next
    · intro given j
      rw [status given, Creating.write_status _ _ _ _ given]
      by_cases now : j = i
      · subst now
        rw [Function.update_self, if_neg (by omega), if_pos (by simp)]
      · rw [Function.update_of_ne now, List.length_cons]
        exact if_congr (by omega) rfl rfl

theorem createFunctions_succeeds (wanted : Bool) (s : Creating) (all : ∀ (j device : Nat), rest[j]? = some device →
    ∃ path, binaries[i + j]? = some path ∧ Tried w (i + j) device path .SUCCESS) :
    ∃ s', createFunctions w binaries wanted i rest s = (.ok (), s') := by
  induction rest generalizing i s with
  | nil => exact ⟨s, rfl⟩
  | cons device rest ih =>
    obtain ⟨path, found, tried⟩ := all 0 device rfl
    rw [Nat.add_zero] at found tried
    rw [createFunctions_step found tried]
    apply ih
    intro j device' listed
    have later := all (j + 1) device' listed
    rwa [Nat.add_comm j 1, ← Nat.add_assoc] at later

theorem createFunctions_failsAt (wanted : Bool) (s : Creating) {k : Nat} {err : ExitCode}
    (before : ∀ j < k, ∀ device path, rest[j]? = some device → binaries[i + j]? = some path →
      Tried w (i + j) device path .SUCCESS)
    (listed : rest[k]? = some device) (found : binaries[i + k]? = some path)
    (tried : Tried w (i + k) device path err) (failed : err ≠ .SUCCESS) :
    ∃ s', createFunctions w binaries wanted i rest s = (.error (.thrown .CL_INVALID_BINARY), s') ∧
      (wanted → ∀ j, s'.status j = if i ≤ j ∧ j < i + k then some .CL_SUCCESS
        else if j = i + k then some .CL_INVALID_BINARY else s.status j) := by
  induction k generalizing i rest s with
  | zero =>
    cases rest with
    | nil => cases listed
    | cons first rest =>
      cases listed
      rw [Nat.add_zero] at found tried ⊢
      obtain ⟨s', run, status⟩ := createFunctions_fails found tried failed
      refine ⟨s', run, fun given j => ?_⟩
      rw [status given, if_neg (by omega)]
      by_cases here : j = i
      · subst here
        rw [Function.update_self, if_pos rfl]
      · rw [Function.update_of_ne here, if_neg here]
  | succ k ih =>
    cases rest with
    | nil => cases listed
    | cons first rest =>
      have inside : i + (k + 1) < binaries.length := (List.getElem?_eq_some_iff.mp found).1
      have here : binaries[i]? = some binaries[i] := List.getElem?_eq_getElem (by omega)
      have shift : i + (k + 1) = i + 1 + k := by omega
      rw [createFunctions_step here (before 0 (by omega) first _ rfl here)]
      rw [shift] at found tried
      obtain ⟨s', run, status⟩ := ih _ (fun j less d p given path => by
        have later := before (j + 1) (by omega) d p given (by
          rwa [Nat.add_comm j 1, ← Nat.add_assoc])
        rwa [Nat.add_comm j 1, ← Nat.add_assoc] at later) listed found tried
      refine ⟨s', run, fun given j => ?_⟩
      rw [status given, Creating.write_status _ _ _ _ given]
      by_cases now : j = i
      · subst now
        rw [if_neg (by omega), if_neg (by omega), Function.update_self, if_pos (by omega)]
      · rw [Function.update_of_ne now]
        exact if_congr (by omega) rfl (if_congr (by omega) rfl rfl)

end Loop

section Creation

/-- All binaries are loaded. -/
def Succeeds (w : Setting) (binaries : List CString) (devices : List Nat) : Prop :=
  w.memory 0 = true ∧ ∀ (i device : Nat) (path : CString), devices[i]? = some device →
    binaries[i]? = some path → Tried w i device path .SUCCESS

/-- For each device and path there is a place where the device stands with a path of the same text,
    and the pointer to it is not entered with anything else behind it. -/
def Kept (devices : List Nat) (binaries : List CString) : Prop :=
  ∀ item ∈ devices.zip binaries, ∃ other ∈ devices.zip binaries,
    latest (fun item => item.2.address) (devices.zip binaries) other.2.address = some other ∧
      other.1 = item.1 ∧ other.2.text = item.2.text

variable {w : Setting} {binaries : List CString} {wanted : Bool} {devices : List Nat} {context : ClContext}

theorem bound_iff {items : List (Nat × CString)} {functions : IdMap MangoKernelFunction}
    (tabled : Tabled w items functions) (device : Nat) (path : CString) :
    Program.Bound w ⟨functions⟩ device path ↔ ∃ other ∈ items,
      latest (fun item => item.2.address) items other.2.address = some other ∧
        other.1 = device ∧ other.2.text = path.text := by
  constructor
  · rintro ⟨address, entry, f, found, bound, function, _, version⟩
    rw [tabled address] at found
    obtain ⟨item, last, rfl⟩ := Option.map_eq_some_iff.mp found
    obtain ⟨member, same⟩ := latest_mem last
    cases bound
    cases function
    rw [loadedFunction_version, Option.some_inj] at version
    exact ⟨item, member, same ▸ last, rfl, version⟩
  · rintro ⟨item, _, last, rfl, text⟩
    refine ⟨item.2.address, _, _, (tabled _).trans (congrArg _ last), rfl, rfl, rfl, ?_⟩
    rw [loadedFunction_version, text]

theorem clCreateProgramWithBinary_within (some_ : devices ≠ []) (inside : ∀ d ∈ devices, d ∈ context.devices) :
    clCreateProgramWithBinary w wanted (some context) (some devices) (some binaries) =
      if w.memory 0 = false then ⟨.error .badAlloc, fun _ => none, some context⟩
      else match createFunctions w binaries wanted 0 devices ⟨∅, fun _ => none⟩ with
        | (.error ending, s) => ⟨.error ending, s.status, some context⟩
        | (.ok (), s) => ⟨.ok ⟨s.functions⟩, s.status, some { context with program := some ⟨s.functions⟩ }⟩ := by
  cases devices with
  | nil => exact absurd rfl some_
  | cons device rest => exact if_neg (not_not.mpr inside)

theorem tabled_empty : Tabled w [] ∅ := fun _ => Std.TreeMap.getElem?_emptyc

/-- A call that fails in between leaves the codes that say so, and the context as it was. -/
theorem clCreateProgramWithBinary_failsAt (some_ : devices ≠ [])
    (inside : ∀ d ∈ devices, d ∈ context.devices) {i : Nat} (fails : FailsAt w binaries devices i) :
    let call := clCreateProgramWithBinary w wanted (some context) (some devices) (some binaries)
    caught call.result = some (none, .CL_INVALID_BINARY) ∧ call.context = some context ∧
      (wanted → ∀ j, call.status j =
        if j < i then some .CL_SUCCESS else if j = i then some .CL_INVALID_BINARY else none) := by
  obtain ⟨granted, before, device, path, err, listed, found, tried, failed⟩ := fails
  rw [← Nat.zero_add i] at found tried
  obtain ⟨s', run, status⟩ := createFunctions_failsAt wanted ⟨∅, fun _ => none⟩
    (fun j less d p => by rw [Nat.zero_add]; exact before j less d p) listed found tried failed
  rw [clCreateProgramWithBinary_within some_ inside, if_neg (by simp [granted]), run]
  refine ⟨rfl, rfl, fun given j => ?_⟩
  simpa using status given j

theorem clCreateProgramWithBinary_succeeds (wanted : Bool) (some_ : devices ≠ [])
    (inside : ∀ d ∈ devices, d ∈ context.devices) (length : binaries.length = devices.length)
    (succeeds : Succeeds w binaries devices) : ∃ program,
      (clCreateProgramWithBinary w wanted (some context) (some devices) (some binaries)).result =
        .ok program := by
  have tried : ∀ (j device : Nat), devices[j]? = some device →
      ∃ path, binaries[0 + j]? = some path ∧ Tried w (0 + j) device path .SUCCESS := by
    intro j device listed
    have below : j < binaries.length := length ▸ (List.getElem?_eq_some_iff.mp listed).1
    have found : binaries[j]? = some binaries[j] := List.getElem?_eq_getElem below
    rw [Nat.zero_add]
    exact ⟨_, found, succeeds.2 j device _ listed found⟩
  obtain ⟨s', run⟩ := createFunctions_succeeds wanted ⟨∅, fun _ => none⟩ tried
  rw [clCreateProgramWithBinary_within some_ inside, if_neg (by simp [succeeds.1]), run]
  exact ⟨_, rfl⟩

theorem clCreateProgramWithBinary_ok (some_ : devices ≠ []) (inside : ∀ d ∈ devices, d ∈ context.devices)
    {program : Program}
    (returned : (clCreateProgramWithBinary w wanted (some context) (some devices) (some binaries)).result =
      .ok program) :
    Succeeds w binaries devices ∧ Tabled w (devices.zip binaries) program.mapKernelFunctions ∧
      (wanted → ∀ i < devices.length, (clCreateProgramWithBinary w wanted (some context) (some devices)
        (some binaries)).status i = some .CL_SUCCESS) := by
  rw [clCreateProgramWithBinary_within some_ inside] at returned ⊢
  split at returned
  · cases returned
  · next granted =>
    rw [if_neg granted]
    cases run : createFunctions w binaries wanted 0 devices ⟨∅, fun _ => none⟩ with
    | mk result s' =>
      rw [run] at returned
      cases result with
      | error ending => cases returned
      | ok =>
        cases returned
        obtain ⟨tried, tabled, status⟩ := createFunctions_ok run
        refine ⟨⟨by simpa using granted, fun j d p given there => ?_⟩, tabled [] tabled_empty,
          fun given i below => (status given i).trans (if_pos (by omega))⟩
        obtain ⟨q, same, loaded⟩ := tried j d given
        rw [Nat.zero_add] at same loaded
        obtain rfl := Option.some.inj (same.symm.trans there)
        exact loaded

/-- Creation is all or nothing exactly where no device's kernel is overwritten in the map. -/
theorem created_iff (some_ : devices ≠ []) (inside : ∀ d ∈ devices, d ∈ context.devices)
    (length : binaries.length = devices.length) :
    Created w binaries wanted context devices ↔ (Succeeds w binaries devices → Kept devices binaries) := by
  constructor
  · intro created succeeds item member
    obtain ⟨i, found⟩ := List.mem_iff_getElem?.mp member
    obtain ⟨listed, found⟩ := List.getElem?_zip_eq_some.mp found
    obtain ⟨program, returned⟩ := clCreateProgramWithBinary_succeeds wanted some_ inside length succeeds
    have bound := (created.kept program returned i _ _ listed found).1
    exact (bound_iff (clCreateProgramWithBinary_ok some_ inside returned).2.1 _ _).mp bound
  · intro kept
    constructor
    · intro program returned i device path listed found
      obtain ⟨succeeds, tabled, status⟩ := clCreateProgramWithBinary_ok some_ inside returned
      have member : (device, path) ∈ devices.zip binaries :=
        List.mem_of_getElem? (List.getElem?_zip_eq_some.mpr ⟨listed, found⟩)
      exact ⟨(bound_iff tabled _ _).mpr (kept succeeds _ member),
        fun given => status given i (List.getElem?_eq_some_iff.mp listed).1⟩
    · intro i
      exact clCreateProgramWithBinary_failsAt some_ inside

/-- Every file can be read, the devices 1 and 2 are of PEAK and GN, and there is memory. -/
def twoUnits : Setting := ⟨fun device => if device = 1 then .PEAK else .GN, fun _ _ => true, fun _ => true⟩

theorem twoUnits_succeeds (binaries : List CString) (devices : List Nat) :
    Succeeds twoUnits binaries devices := by
  refine ⟨rfl, fun i device path listed found => ⟨rfl, ?_⟩⟩
  have unit : twoUnits.unitType device = .PEAK ∨ twoUnits.unitType device = .GN := by
    unfold twoUnits
    dsimp only
    split <;> simp
  rcases unit with peak | gn
  · rw [peak]
    exact ⟨_, rfl⟩
  · rw [gn]
    exact ⟨_, rfl⟩

theorem created_two_paths :
    Created twoUnits [⟨100, "peak"⟩, ⟨200, "gn"⟩] true ⟨[1, 2], none⟩ [1, 2] :=
  (created_iff (by decide) (by decide) rfl).mpr fun _ => by
    unfold Kept
    decide

/-- The same path for two devices: the program is created and has nothing for the first of them. -/
theorem created_one_path_twice : ∃ program,
    (clCreateProgramWithBinary twoUnits true (some ⟨[1, 2], none⟩) (some [1, 2])
      (some [⟨100, "kernel"⟩, ⟨100, "kernel"⟩])).result = .ok program ∧
    ¬ program.Bound twoUnits 1 ⟨100, "kernel"⟩ ∧
    ¬ Created twoUnits [⟨100, "kernel"⟩, ⟨100, "kernel"⟩] true ⟨[1, 2], none⟩ [1, 2] := by
  have inside : ∀ d ∈ [1, 2], d ∈ (⟨[1, 2], none⟩ : ClContext).devices := by decide
  obtain ⟨program, returned⟩ := clCreateProgramWithBinary_succeeds true (by decide) inside rfl
    (twoUnits_succeeds [⟨100, "kernel"⟩, ⟨100, "kernel"⟩] [1, 2])
  have unbound : ¬ program.Bound twoUnits 1 ⟨100, "kernel"⟩ := by
    rw [bound_iff (clCreateProgramWithBinary_ok (by decide) inside returned).2.1]
    decide
  exact ⟨program, returned, unbound, fun created => unbound (created.kept program returned 0 1 _ rfl rfl).1⟩

end Creation

end MangoModel.OpenCL
