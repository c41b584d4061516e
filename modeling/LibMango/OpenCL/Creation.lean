import LibMango.Fallible.Ends
import LibMango.OpenCL.Lookup
import LibMango.OpenCL.Objects

namespace MangoModel.OpenCL

open Fallible Host

section Model

def nonNull {α : Type} (code : ClCode) : Option α → Except Ending α
  | none => .error (.thrown code)
  | some a => .ok a

def check (code : ClCode) (p : Prop) [Decidable p] : Except Ending Unit :=
  if p then .ok () else .error (.thrown code)

/-- An assertion fails, or a null pointer is used. -/
def alive {α : Type} : Option α → Except Ending α
  | none => .error .ended
  | some a => .ok a

def granted (memory : Bool) : Except Ending Unit := if memory then .ok () else .error .badAlloc

/-- The end of the functions that create something: the code is written, and the object returned. -/
def creating {α : Type} (errcodeRet : Bool) (body : Except Ending α) : Except Ending α × Option ClCode :=
  match body with
  | .ok a => (.ok a, if errcodeRet then some .CL_SUCCESS else none)
  | .error ending => (.error ending, none)

/-- What is returned and what has been written to `errcode_ret` behind the catch; `none` where the call
    does not return. -/
def catching {α : Type} (errcodeRet : Bool) : Except Ending α × Option ClCode → Option (Option α × Option ClCode)
  | (.ok a, written) => some (some a, written)
  | (.error .ended, _) => none
  | (.error .badAlloc, written) => some (none, if errcodeRet then some .CL_OUT_OF_HOST_MEMORY else written)
  | (.error (.thrown code), written) => some (none, if errcodeRet then some code else written)

/-- What the functions that return a code return. -/
def codeOf {α : Type} : Except ClCode α → ClCode
  | .ok _ => .CL_SUCCESS
  | .error code => code

/-- What the calls find. -/
structure Prior where
  setting : Setting
  availableUnits : List UnitType
  processName : Option String
  process : Process
  contextDevices : Nat → List (Option Nat)
  objects : Objects

namespace Prior

variable (p : Prior) (errcodeRet : Bool)

def mangoInit (applicationName recipe : String) : Except Ending (ExitCode × Process) := do
  let process ← alive (p.process.init applicationName recipe)
  granted (p.setting.memory 0)
  return (.SUCCESS, process)

def clCreateContext (devices : Option (List Nat)) (recipe : Option String) :
    Except Ending ClContext × Option ClCode :=
  creating errcodeRet do
    let recipe ← alive recipe
    let processName ← alive p.processName
    let devices ← nonNull .CL_INVALID_DEVICE devices
    let (err, _) ← p.mangoInit processName recipe
    check .CL_INVALID_VALUE (err = .SUCCESS)
    granted (p.setting.memory 1)
    return ⟨devices, none⟩

def validType : ClDeviceType :=
  CL_DEVICE_TYPE_GPU ||| CL_DEVICE_TYPE_ACCELERATOR ||| CL_DEVICE_TYPE_CPU ||| CL_DEVICE_TYPE_CUSTOM |||
    CL_DEVICE_TYPE_DEFAULT

/-- The code of the second query is thrown, whichever it is, and nothing behind that is reached. -/
def clCreateContextFromType (deviceType : ClDeviceType) : Except Ending ClContext × Option ClCode :=
  (do
    check .CL_INVALID_DEVICE_TYPE (deviceType &&& validType ≠ 0)
    let count := clGetDeviceIds p.availableUnits deviceType 0 false true
    check (codeOf count) (codeOf count = .CL_SUCCESS)
    let numDevices := (count.toOption.bind DeviceIds.numDevices).getD 0
    alive (if numDevices > 0 then some () else none)
    granted (p.setting.memory 0)
    let err := codeOf (clGetDeviceIds p.availableUnits deviceType numDevices true true)
    granted (p.setting.memory 1)
    .error (.thrown err), none)

/-- The new queue and what it leaves; every device of the context is given the queue. -/
def clCreateCommandQueue (context device : Option Nat) : Except Ending (Nat × Objects) × Option ClCode :=
  creating errcodeRet do
    let context ← nonNull .CL_INVALID_CONTEXT context
    let _ ← nonNull .CL_INVALID_DEVICE device
    granted (p.setting.memory 0)
    let devices ← alive ((p.contextDevices context).mapM id)
    return (p.objects.next, p.objects.clCreateCommandQueue (fun _ => devices) context)

def extractKernelIDs (kernels : Option (Nat → Option Nat)) (numKernels : Int) : Except Ending (List Nat) :=
  (List.range numKernels.toNat).mapM fun i => do
    let kernels ← alive kernels
    let address ← alive (kernels i)
    let k ← alive (p.objects.kernels address)
    return k.kernel

def clCreateBuffer (context : Option Nat) (flags size : Nat) (numKernelsIn : Int)
    (kernelsIn : Option (Nat → Option Nat)) (numKernelsOut : Int) (kernelsOut : Option (Nat → Option Nat))
    (bufferId : Nat) : Except Ending (Nat × Objects) × Option ClCode :=
  creating errcodeRet do
    let context ← nonNull .CL_INVALID_CONTEXT context
    check .CL_INVALID_VALUE (flags &&& (CL_MEM_READ_WRITE ||| CL_MEM_WRITE_ONLY ||| CL_MEM_READ_ONLY) ≠ 0)
    check .CL_INVALID_BUFFER_SIZE (size ≠ 0)
    granted (p.setting.memory 0)
    let kernelsIn ← p.extractKernelIDs kernelsIn numKernelsIn
    let kernelsOut ← p.extractKernelIDs kernelsOut numKernelsOut
    let lists ← nonNull .CL_INVALID_VALUE (bufferKernels flags kernelsIn kernelsOut)
    let (_, s) ← alive (p.objects.registry.register (.memory bufferId size .BUFFER lists.1 lists.2))
    granted (p.setting.memory 1)
    let after ← alive ((p.objects.newMem ⟨context, bufferId⟩ s).mangoTaskGraphAdd
      (p.objects.contextQueue context) ((s.getBuffer bufferId).map .buffer)).toOption
    granted (p.setting.memory 2)
    return (p.objects.next, after)

def clCreateProgramWithBinary (context : Option ClContext) (deviceList : Option (List Nat))
    (binaries : Option (List CString)) (binaryStatus : Bool) : Except Ending Program × Option ClCode :=
  creating errcodeRet (OpenCL.clCreateProgramWithBinary p.setting binaryStatus context deviceList binaries).result

/-- A program comes with its context. -/
def clCreateKernel (program : Option (Nat × Program)) (binaryPath : Option CString) (kernelId : Nat) :
    Except Ending (Nat × Objects) × Option ClCode :=
  creating errcodeRet do
    let (context, program) ← nonNull .CL_INVALID_PROGRAM program
    let binaryPath ← nonNull .CL_INVALID_VALUE binaryPath
    let found := program.clCreateKernel binaryPath
    let code := (found.map codeOf).getD .CL_SUCCESS
    check code (code = .CL_SUCCESS)
    granted (p.setting.memory 0)
    let kernFunct ← alive (found.bind Except.toOption)
    let device ← alive kernFunct.device
    let function ← alive kernFunct.function
    let after ← alive (p.objects.clCreateKernel context device kernelId function kernFunct.buffersIn
      kernFunct.buffersOut).toOption
    return (p.objects.next, after)

end Prior

inductive CreateCall where
  | context (devices : Option (List Nat)) (recipe : Option String)
  | contextFromType (deviceType : ClDeviceType)
  | commandQueue (context device : Option Nat)
  | buffer (context : Option Nat) (flags size : Nat) (numKernelsIn : Int)
      (kernelsIn : Option (Nat → Option Nat)) (numKernelsOut : Int)
      (kernelsOut : Option (Nat → Option Nat)) (bufferId : Nat)
  | programWithBinary (context : Option ClContext) (deviceList : Option (List Nat))
      (binaries : Option (List CString)) (binaryStatus : Bool)
  | kernel (program : Option (Nat × Program)) (binaryPath : Option CString) (kernelId : Nat)

/-- A call that returns has written a code, and has returned null exactly when that is not success. -/
def CodeAgrees {α : Type} (returned : Option (Option α × Option ClCode)) : Prop :=
  ∀ result written, returned = some (result, written) →
    ∃ code, written = some code ∧ (result = none ↔ code ≠ .CL_SUCCESS)

/-- If `clGetDeviceIDs` gives devices of a type, a context is made that has just these. -/
def Prior.MakesContext (p : Prior) (deviceType : ClDeviceType) : Prop :=
  ∀ n units, clGetDeviceIds p.availableUnits deviceType 0 false true = .ok ⟨some n, none⟩ →
    clGetDeviceIds p.availableUnits deviceType n true true = .ok ⟨some n, some units⟩ →
    ∃ context written, catching true (p.clCreateContextFromType deviceType) = some (some context, written) ∧
      context.devices.map p.setting.unitType = units

def CreateCall.Consistent (p : Prior) : CreateCall → Prop
  | .context devices recipe => CodeAgrees (catching true (p.clCreateContext true devices recipe))
  | .contextFromType deviceType =>
    CodeAgrees (catching true (p.clCreateContextFromType deviceType)) ∧ p.MakesContext deviceType
  | .commandQueue parent device => CodeAgrees (catching true (p.clCreateCommandQueue true parent device))
  | .buffer parent flags size numKernelsIn kernelsIn numKernelsOut kernelsOut bufferId =>
    CodeAgrees (catching true
      (p.clCreateBuffer true parent flags size numKernelsIn kernelsIn numKernelsOut kernelsOut bufferId))
  | .programWithBinary parent deviceList binaries binaryStatus =>
    CodeAgrees (catching true (p.clCreateProgramWithBinary true parent deviceList binaries binaryStatus))
  | .kernel program binaryPath kernelId =>
    CodeAgrees (catching true (p.clCreateKernel true program binaryPath kernelId))

end Model

section Endings

variable {α β : Type}

/-- The code of success is not thrown. -/
abbrev Refuses (x : Except Ending α) : Prop := Ends (· ≠ .thrown .CL_SUCCESS) (fun _ => True) x

theorem Refuses.bind {x : Except Ending α} {f : α → Except Ending β} (first : Refuses x)
    (rest : ∀ a, Refuses (f a)) : Refuses (x >>= f) :=
  Ends.bind first fun a _ => rest a

theorem refuses_ok (a : α) : Refuses (pure a) := trivial

theorem refuses_error {ending : Ending} (other : ending ≠ .thrown .CL_SUCCESS) :
    Refuses (.error ending : Except Ending α) := other

theorem refuses_nonNull {code : ClCode} (fails : code ≠ .CL_SUCCESS) (a : Option α) :
    Refuses (nonNull code a) := by
  cases a with
  | none => exact fun same => fails (Ending.thrown.inj same)
  | some a => trivial

theorem refuses_check {code : ClCode} {q : Prop} [Decidable q] (fails : ¬ q → code ≠ .CL_SUCCESS) :
    Refuses (check code q) := by
  by_cases holds : q
  · rw [check, if_pos holds]
    trivial
  · rw [check, if_neg holds]
    exact fun same => fails holds (Ending.thrown.inj same)

theorem refuses_alive (a : Option α) : Refuses (alive a) := by
  cases a with
  | none => exact refuses_error (by decide)
  | some a => trivial

theorem refuses_granted (memory : Bool) : Refuses (granted memory) := by
  cases memory with
  | false => exact refuses_error (by decide)
  | true => trivial

theorem refuses_mapM {f : β → Except Ending α} (each : ∀ b, Refuses (f b)) (items : List β) :
    Refuses (items.mapM f) := by
  induction items with
  | nil => trivial
  | cons b rest ih =>
    rw [List.mapM_cons]
    exact (each b).bind fun a => ih.bind fun as => refuses_ok (a :: as)

/-- What is returned tells the code, if the code of success is only ever written. -/
theorem codeAgrees_creating {body : Except Ending α} (refuses : Refuses body) :
    CodeAgrees (catching true (creating true body)) := by
  intro result written returned
  match body with
  | .ok a =>
    cases returned
    exact ⟨.CL_SUCCESS, rfl, by simp⟩
  | .error .ended => cases returned
  | .error .badAlloc =>
    cases returned
    exact ⟨.CL_OUT_OF_HOST_MEMORY, rfl, by simp⟩
  | .error (.thrown code) =>
    cases returned
    exact ⟨code, rfl, iff_of_true rfl fun same => refuses (congrArg Ending.thrown same)⟩

end Endings

section Calls

theorem clCreateContext_agrees (p : Prior) (devices : Option (List Nat)) (recipe : Option String) :
    CodeAgrees (catching true (p.clCreateContext true devices recipe)) := by
  apply codeAgrees_creating
  refine .bind (refuses_alive _) fun recipe => .bind (refuses_alive _) fun processName => ?_
  refine .bind (refuses_nonNull (by decide) _) fun devices => .bind ?_ fun ⟨err, _⟩ => ?_
  · exact .bind (refuses_alive _) fun process => .bind (refuses_granted _) fun _ => refuses_ok _
  · exact .bind (refuses_check fun _ => by decide) fun _ => .bind (refuses_granted _) fun _ => refuses_ok _

theorem clCreateCommandQueue_agrees (p : Prior) (context device : Option Nat) :
    CodeAgrees (catching true (p.clCreateCommandQueue true context device)) := by
  apply codeAgrees_creating
  refine .bind (refuses_nonNull (by decide) _) fun context => ?_
  refine .bind (refuses_nonNull (by decide) _) fun _ => ?_
  exact .bind (refuses_granted _) fun _ => .bind (refuses_alive _) fun devices => refuses_ok _

theorem extractKernelIDs_refuses (p : Prior) (kernels : Option (Nat → Option Nat)) (numKernels : Int) :
    Refuses (p.extractKernelIDs kernels numKernels) := by
  refine refuses_mapM (fun i => ?_) _
  refine .bind (refuses_alive _) fun kernels => .bind (refuses_alive _) fun address => ?_
  exact .bind (refuses_alive _) fun k => refuses_ok _

theorem clCreateBuffer_agrees (p : Prior) (context : Option Nat) (flags size : Nat) (numKernelsIn : Int)
    (kernelsIn : Option (Nat → Option Nat)) (numKernelsOut : Int) (kernelsOut : Option (Nat → Option Nat))
    (bufferId : Nat) : CodeAgrees (catching true (p.clCreateBuffer true context flags size numKernelsIn
      kernelsIn numKernelsOut kernelsOut bufferId)) := by
  apply codeAgrees_creating
  refine .bind (refuses_nonNull (by decide) _) fun context => ?_
  refine .bind (refuses_check fun _ => by decide) fun _ => ?_
  refine .bind (refuses_check fun _ => by decide) fun _ => .bind (refuses_granted _) fun _ => ?_
  refine .bind (extractKernelIDs_refuses p _ _) fun kernelsIn => ?_
  refine .bind (extractKernelIDs_refuses p _ _) fun kernelsOut => ?_
  refine .bind (refuses_nonNull (by decide) _) fun lists => .bind (refuses_alive _) fun ⟨_, s⟩ => ?_
  refine .bind (refuses_granted _) fun _ => .bind (refuses_alive _) fun after => ?_
  exact .bind (refuses_granted _) fun _ => refuses_ok _

theorem clCreateKernel_agrees (p : Prior) (program : Option (Nat × Program)) (binaryPath : Option CString)
    (kernelId : Nat) : CodeAgrees (catching true (p.clCreateKernel true program binaryPath kernelId)) := by
  apply codeAgrees_creating
  refine .bind (refuses_nonNull (by decide) _) fun ⟨context, program⟩ => ?_
  refine .bind (refuses_nonNull (by decide) _) fun binaryPath => ?_
  refine .bind (refuses_check id) fun _ => .bind (refuses_granted _) fun _ => ?_
  refine .bind (refuses_alive _) fun kernFunct => .bind (refuses_alive _) fun device => ?_
  exact .bind (refuses_alive _) fun function => .bind (refuses_alive _) fun after => refuses_ok _

theorem createFunctions_refuses {w : Setting} {binaries : List CString} {wanted : Bool} {i : Nat}
    {devices : List Nat} {s : Creating} : Refuses (createFunctions w binaries wanted i devices s).1 := by
  induction devices generalizing i s with
  | nil => trivial
  | cons device rest ih =>
    unfold createFunctions
    split
    · exact refuses_error (by decide)
    · split
      · exact refuses_error (by decide)
      · split
        · exact refuses_error (by decide)
        · dsimp only
          split
          · exact refuses_error (by decide)
          · exact ih

theorem clCreateProgramWithBinary_agrees (p : Prior) (context : Option ClContext)
    (deviceList : Option (List Nat)) (binaries : Option (List CString)) (binaryStatus : Bool) :
    CodeAgrees (catching true
      (p.clCreateProgramWithBinary true context deviceList binaries binaryStatus)) := by
  apply codeAgrees_creating
  unfold clCreateProgramWithBinary
  split
  · exact refuses_error (by decide)
  · split
    · exact refuses_error (by decide)
    · exact refuses_error (by decide)
    · split
      · exact refuses_error (by decide)
      · split
        · exact refuses_error (by decide)
        · split
          · exact refuses_error (by decide)
          · split
            · next run => exact (congrArg (fun r => Refuses r.1) run).mp createFunctions_refuses
            · trivial

theorem clGetDeviceIds_error {units : List UnitType} {deviceType : ClDeviceType} {numEntries : Nat}
    {devices numDevices : Bool} {code : ClCode}
    (run : clGetDeviceIds units deviceType numEntries devices numDevices = .error code) :
    code ≠ .CL_SUCCESS := by
  rintro rfl
  unfold clGetDeviceIds at run
  dsimp only at run
  repeat' split at run
  all_goals cases run

/-- A query for the number of devices that succeeds is followed by one for the devices that does. -/
theorem clGetDeviceIds_again {units : List UnitType} {deviceType : ClDeviceType} {ids : DeviceIds}
    (run : clGetDeviceIds units deviceType 0 false true = .ok ids) : ∃ n found,
      ids = ⟨some n, none⟩ ∧ clGetDeviceIds units deviceType n true true = .ok ⟨some n, some found⟩ := by
  unfold clGetDeviceIds at run ⊢
  dsimp only at run ⊢
  rw [if_neg (by simp)] at run
  split at run
  · cases run
  · next valid =>
    split at run
    · cases run
    · next some_ =>
      cases run
      let available := getAvailableDevicesByType units deviceType
      refine ⟨_, available.take (uint32 available.length), rfl, ?_⟩
      rw [if_neg (by simpa using some_), if_neg valid, if_neg some_, if_neg (lt_irrefl _)]
      rfl

theorem clCreateContextFromType_never (p : Prior) (deviceType : ClDeviceType) (context : ClContext) :
    (p.clCreateContextFromType deviceType).1 ≠ .ok context := by
  have any : ∀ {α : Type} (x : Except Ending α), Ends (fun _ => True) (fun _ => True) x := by
    intro α x
    cases x <;> trivial
  have never : Ends (fun _ => True) (fun _ => False) (p.clCreateContextFromType deviceType).1 := by
    refine .bind (any _) fun _ _ => .bind (any _) fun _ _ => .bind (any _) fun _ _ => ?_
    exact .bind (any _) fun _ _ => .bind (any _) fun _ _ => trivial
  exact fun made => never.result made

theorem clCreateContextFromType_refuses {p : Prior} {deviceType : ClDeviceType} {code : ClCode}
    (failed : clGetDeviceIds p.availableUnits deviceType 0 false true = .error code) :
    Refuses (p.clCreateContextFromType deviceType).1 := by
  have fails := clGetDeviceIds_error failed
  unfold Prior.clCreateContextFromType
  refine .bind (refuses_check fun _ => by decide) fun _ => ?_
  dsimp only
  rw [failed, codeOf, check, if_neg fails]
  exact fun same => fails (Ending.thrown.inj same)

theorem creating_of_never {α : Type} {body : Except Ending α} (never : ∀ a, body ≠ .ok a) :
    creating true body = (body, none) := by
  cases body with
  | error ending => rfl
  | ok a => exact absurd rfl (never a)

/-- Results and codes agree for all six calls but where `clGetDeviceIDs` succeeds for the type that a
    context is to be made from. -/
theorem creation_consistent_iff (p : Prior) (call : CreateCall) : call.Consistent p ↔
    ∀ deviceType, call = .contextFromType deviceType →
      ∀ ids, clGetDeviceIds p.availableUnits deviceType 0 false true ≠ .ok ids := by
  cases call with
  | context devices recipe => exact iff_of_true (clCreateContext_agrees p _ _) nofun
  | commandQueue parent device => exact iff_of_true (clCreateCommandQueue_agrees p _ _) nofun
  | buffer => exact iff_of_true (clCreateBuffer_agrees p _ _ _ _ _ _ _ _) nofun
  | programWithBinary => exact iff_of_true (clCreateProgramWithBinary_agrees p _ _ _ _) nofun
  | kernel => exact iff_of_true (clCreateKernel_agrees p _ _ _) nofun
  | contextFromType deviceType =>
    have never := clCreateContextFromType_never p deviceType
    constructor
    · rintro ⟨_, makes⟩ _ same ids found
      cases same
      obtain ⟨n, units, rfl, again⟩ := clGetDeviceIds_again found
      obtain ⟨context, written, made, _⟩ := makes n units found again
      cases body : (p.clCreateContextFromType deviceType).1 with
      | ok other => exact never other body
      | error ending =>
        have pair : p.clCreateContextFromType deviceType = (.error ending, none) := Prod.ext body rfl
        rw [pair] at made
        cases ending <;> cases made
    · intro condition
      cases found : clGetDeviceIds p.availableUnits deviceType 0 false true with
      | ok ids => exact absurd found (condition deviceType rfl ids)
      | error code =>
        refine ⟨?_, fun n units first => ?_⟩
        · have agrees := codeAgrees_creating (clCreateContextFromType_refuses found)
          rwa [creating_of_never never] at agrees
        · rw [found] at first
          cases first

/-- With the devices that the source lists, and memory for all. -/
def listed : Prior where
  setting := twoUnits
  availableUnits := [.GN, .GN, .GPU, .PEAK]
  processName := some "sample"
  process := .start
  contextDevices _ := []
  objects := .start

/-- The processors are found, and the call returns null and the code of success. -/
theorem context_from_cpus :
    catching true (listed.clCreateContextFromType CL_DEVICE_TYPE_CPU) = some (none, some .CL_SUCCESS) ∧
    ¬ (CreateCall.contextFromType CL_DEVICE_TYPE_CPU).Consistent listed := by
  have returned : catching true (listed.clCreateContextFromType CL_DEVICE_TYPE_CPU) =
      some (none, some .CL_SUCCESS) := rfl
  refine ⟨returned, fun consistent => ?_⟩
  obtain ⟨code, written, agrees⟩ := consistent.1 _ _ returned
  cases written
  exact agrees.mp rfl rfl

end Calls

end MangoModel.OpenCL
