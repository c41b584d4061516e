import LibMango.Host.Graph
import LibMango.Machine

namespace MangoModel.OpenCL

open Host

/-- The codes that the functions of the model return or throw. -/
inductive ClCode where
  | CL_SUCCESS
  | CL_DEVICE_NOT_FOUND
  | CL_OUT_OF_HOST_MEMORY
  | CL_INVALID_VALUE
  | CL_INVALID_DEVICE_TYPE
  | CL_INVALID_DEVICE
  | CL_INVALID_CONTEXT
  | CL_INVALID_COMMAND_QUEUE
  | CL_INVALID_MEM_OBJECT
  | CL_INVALID_BINARY
  | CL_INVALID_PROGRAM
  | CL_INVALID_PROGRAM_EXECUTABLE
  | CL_INVALID_KERNEL_NAME
  | CL_INVALID_KERNEL
  | CL_INVALID_EVENT_WAIT_LIST
  | CL_INVALID_EVENT
  | CL_INVALID_BUFFER_SIZE
  deriving DecidableEq, Repr

abbrev ClDeviceType : Type := BitVec 64

def CL_DEVICE_TYPE_DEFAULT : ClDeviceType := 1 <<< 0
def CL_DEVICE_TYPE_CPU : ClDeviceType := 1 <<< 1
def CL_DEVICE_TYPE_GPU : ClDeviceType := 1 <<< 2
def CL_DEVICE_TYPE_ACCELERATOR : ClDeviceType := 1 <<< 3
def CL_DEVICE_TYPE_CUSTOM : ClDeviceType := 1 <<< 4
def CL_DEVICE_TYPE_ALL : ClDeviceType := 0xFFFFFFFF

/-- `GPU` is the unit type that the C interface calls `GPGPU`. -/
def getAvailableDevicesByType (availableUnits : List UnitType) (deviceType : ClDeviceType) :
    List UnitType :=
  if deviceType = CL_DEVICE_TYPE_ALL then availableUnits
  else if deviceType = CL_DEVICE_TYPE_CPU ∨ deviceType = CL_DEVICE_TYPE_DEFAULT then
    availableUnits.filter fun unit => unit = .GN
  else if deviceType = CL_DEVICE_TYPE_GPU then availableUnits.filter fun unit => unit = .GPU
  else availableUnits.filter fun unit => unit ≠ .GPU ∨ unit ≠ .GN

/-- What `cl_get_device_ids` writes to `num_devices` and to `devices`, where these are not null. -/
structure DeviceIds where
  numDevices : Option Nat
  devices : Option (List UnitType)
  deriving DecidableEq, Repr

def clGetDeviceIds (availableUnits : List UnitType) (deviceType : ClDeviceType) (numEntries : Nat)
    (devices numDevices : Bool) : Except ClCode DeviceIds :=
  let validTypes := CL_DEVICE_TYPE_GPU ||| CL_DEVICE_TYPE_CPU ||| CL_DEVICE_TYPE_ACCELERATOR |||
    CL_DEVICE_TYPE_DEFAULT
  if (devices = false ∧ numDevices = false) ∨ (devices = true ∧ numEntries = 0) then
    .error .CL_INVALID_VALUE
  else if deviceType &&& validTypes = 0 then .error .CL_INVALID_DEVICE_TYPE
  else
    let availableDevices := getAvailableDevicesByType availableUnits deviceType
    let totalNum := uint32 availableDevices.length
    if totalNum = 0 then .error .CL_DEVICE_NOT_FOUND
    else if numEntries > totalNum then .error .CL_INVALID_VALUE
    else .ok ⟨if numDevices then some totalNum else none,
      if devices then some (availableDevices.take numEntries) else none⟩

section Classes

/-- The types that the class of a unit goes by. -/
def deviceClass : UnitType → ClDeviceType
  | .GN => CL_DEVICE_TYPE_CPU ||| CL_DEVICE_TYPE_DEFAULT
  | .GPU => CL_DEVICE_TYPE_GPU
  | _ => CL_DEVICE_TYPE_ACCELERATOR

/-- A bit of the mask names the class of the unit. -/
def Names (deviceType : ClDeviceType) (unit : UnitType) : Prop := deviceType &&& deviceClass unit ≠ 0

instance (deviceType : ClDeviceType) : DecidablePred (Names deviceType) := fun unit =>
  inferInstanceAs (Decidable (deviceType &&& deviceClass unit ≠ 0))

variable (units : List UnitType)

def Exact (deviceType : ClDeviceType) : Prop :=
  getAvailableDevicesByType units deviceType = units.filter fun unit => Names deviceType unit

/-- Each unit is in the selection for just one of the three types. -/
def Partitioned : Prop :=
  let cpu := getAvailableDevicesByType units CL_DEVICE_TYPE_CPU
  let gpu := getAvailableDevicesByType units CL_DEVICE_TYPE_GPU
  let accelerator := getAvailableDevicesByType units CL_DEVICE_TYPE_ACCELERATOR
  cpu.Disjoint gpu ∧ cpu.Disjoint accelerator ∧ gpu.Disjoint accelerator ∧
    (cpu ++ gpu ++ accelerator).Perm units

/-- The types that a mask combines. -/
def deviceTypes : List ClDeviceType :=
  [CL_DEVICE_TYPE_DEFAULT, CL_DEVICE_TYPE_CPU, CL_DEVICE_TYPE_GPU, CL_DEVICE_TYPE_ACCELERATOR]

/-- The selection for the mask is the union of those for its bits. -/
def Unites (deviceType : ClDeviceType) : Prop :=
  getAvailableDevicesByType units deviceType = units.filter fun unit =>
    ∃ bit ∈ deviceTypes, deviceType &&& bit ≠ 0 ∧ unit ∈ getAvailableDevicesByType units bit

theorem names_cpu (unit : UnitType) : Names CL_DEVICE_TYPE_CPU unit ↔ unit = .GN := by
  cases unit <;> decide

theorem names_default (unit : UnitType) : Names CL_DEVICE_TYPE_DEFAULT unit ↔ unit = .GN := by
  cases unit <;> decide

theorem names_gpu (unit : UnitType) : Names CL_DEVICE_TYPE_GPU unit ↔ unit = .GPU := by
  cases unit <;> decide

theorem available_cpu : getAvailableDevicesByType units CL_DEVICE_TYPE_CPU =
    units.filter fun unit => unit = .GN := by
  rw [getAvailableDevicesByType, if_neg (by decide), if_pos (.inl rfl)]

theorem available_default : getAvailableDevicesByType units CL_DEVICE_TYPE_DEFAULT =
    units.filter fun unit => unit = .GN := by
  rw [getAvailableDevicesByType, if_neg (by decide), if_pos (.inr rfl)]

theorem available_gpu : getAvailableDevicesByType units CL_DEVICE_TYPE_GPU =
    units.filter fun unit => unit = .GPU := by
  rw [getAvailableDevicesByType, if_neg (by decide), if_neg (by decide), if_pos rfl]

/-- No unit is of both types that the last branch leaves out. -/
theorem available_other {deviceType : ClDeviceType} (cpu : deviceType ≠ CL_DEVICE_TYPE_CPU)
    (default : deviceType ≠ CL_DEVICE_TYPE_DEFAULT) (gpu : deviceType ≠ CL_DEVICE_TYPE_GPU) :
    getAvailableDevicesByType units deviceType = units := by
  have every : ∀ unit ∈ units, decide (unit ≠ UnitType.GPU ∨ unit ≠ .GN) = true := by
    intro unit _
    cases unit <;> decide
  rw [getAvailableDevicesByType]
  split
  · rfl
  · rw [if_neg (not_or.mpr ⟨cpu, default⟩)]
    exact List.filter_eq_self.mpr every

theorem exact_iff (deviceType : ClDeviceType) : Exact units deviceType ↔
    deviceType = CL_DEVICE_TYPE_DEFAULT ∨ deviceType = CL_DEVICE_TYPE_CPU ∨
      deviceType = CL_DEVICE_TYPE_GPU ∨ ∀ unit ∈ units, Names deviceType unit := by
  by_cases default : deviceType = CL_DEVICE_TYPE_DEFAULT
  · subst default
    simp [Exact, available_default, names_default]
  by_cases cpu : deviceType = CL_DEVICE_TYPE_CPU
  · subst cpu
    simp [Exact, available_cpu, names_cpu]
  by_cases gpu : deviceType = CL_DEVICE_TYPE_GPU
  · subst gpu
    simp [Exact, available_gpu, names_gpu]
  rw [Exact, available_other units cpu default gpu, eq_comm, List.filter_eq_self]
  simp [default, cpu, gpu]

theorem available_accelerator : getAvailableDevicesByType units CL_DEVICE_TYPE_ACCELERATOR = units :=
  available_other units (by decide) (by decide) (by decide)

theorem names_gn {deviceType : ClDeviceType} : Names deviceType .GN ↔
    deviceType &&& CL_DEVICE_TYPE_CPU ≠ 0 ∨ deviceType &&& CL_DEVICE_TYPE_DEFAULT ≠ 0 := by
  rw [Names, deviceClass, BitVec.and_or_distrib_left]
  exact (not_congr BitVec.or_eq_zero_iff).trans not_and_or

/-- As the selection for accelerators is the whole list, so is any union with it. -/
theorem union_iff {unit : UnitType} (available : unit ∈ units) (deviceType : ClDeviceType) :
    (∃ bit ∈ deviceTypes, deviceType &&& bit ≠ 0 ∧ unit ∈ getAvailableDevicesByType units bit) ↔
      deviceType &&& CL_DEVICE_TYPE_ACCELERATOR ≠ 0 ∨ Names deviceType unit := by
  simp only [deviceTypes, List.mem_cons, List.not_mem_nil, or_false, exists_eq_or_imp, exists_eq_left,
    available_default, available_cpu, available_gpu, available_accelerator, List.mem_filter, available,
    decide_eq_true_eq, true_and, and_true]
  cases unit with
  | GN =>
    rw [names_gn]
    simp only [reduceCtorEq, and_true, and_false, false_or]
    tauto
  | GPU => simp [Names, deviceClass, or_comm]
  | _ => simp [Names, deviceClass]

theorem unites_iff (deviceType : ClDeviceType) : Unites units deviceType ↔
    deviceType &&& CL_DEVICE_TYPE_ACCELERATOR ≠ 0 ∨ Exact units deviceType := by
  have union : (units.filter fun unit => ∃ bit ∈ deviceTypes, deviceType &&& bit ≠ 0 ∧
      unit ∈ getAvailableDevicesByType units bit) =
      units.filter fun unit => deviceType &&& CL_DEVICE_TYPE_ACCELERATOR ≠ 0 ∨ Names deviceType unit :=
    List.filter_congr fun unit available => decide_eq_decide.mpr (union_iff units available deviceType)
  rw [Unites, union]
  by_cases accelerator : deviceType &&& CL_DEVICE_TYPE_ACCELERATOR = 0
  · simp [accelerator, Exact]
  · have whole : getAvailableDevicesByType units deviceType = units := by
      apply available_other units <;> (rintro rfl; exact accelerator (by decide))
    rw [whole]
    exact iff_of_true (List.filter_eq_self.mpr fun _ _ => decide_eq_true (.inl accelerator)).symm
      (.inl accelerator)

theorem partitioned_iff : Partitioned units ↔ ∀ unit ∈ units, unit ≠ .GN ∧ unit ≠ .GPU := by
  simp only [Partitioned, available_cpu, available_gpu, available_accelerator]
  constructor
  · rintro ⟨_, cpu, gpu, _⟩ unit member
    exact ⟨fun gn => cpu (List.mem_filter.mpr ⟨member, by simpa using gn⟩) member,
      fun other => gpu (List.mem_filter.mpr ⟨member, by simpa using other⟩) member⟩
  · intro others
    have noCpu : (units.filter fun unit => unit = UnitType.GN) = [] :=
      List.filter_eq_nil_iff.mpr fun unit member => by simpa using (others unit member).1
    have noGpu : (units.filter fun unit => unit = UnitType.GPU) = [] :=
      List.filter_eq_nil_iff.mpr fun unit member => by simpa using (others unit member).2
    rw [noCpu, noGpu]
    exact ⟨List.disjoint_nil_left _, List.disjoint_nil_left _, List.disjoint_nil_left _, List.Perm.refl _⟩

/-- The selection is exact for the three single types that the branches ask for, and where the
    mask names every unit that there is. -/
theorem device_selection_iff (deviceType : ClDeviceType) :
    (Exact units deviceType ↔
      deviceType = CL_DEVICE_TYPE_DEFAULT ∨ deviceType = CL_DEVICE_TYPE_CPU ∨
        deviceType = CL_DEVICE_TYPE_GPU ∨ ∀ unit ∈ units, Names deviceType unit) ∧
    (Partitioned units ↔ ∀ unit ∈ units, unit ≠ .GN ∧ unit ≠ .GPU) ∧
    (Unites units deviceType ↔
      deviceType &&& CL_DEVICE_TYPE_ACCELERATOR ≠ 0 ∨ deviceType = CL_DEVICE_TYPE_DEFAULT ∨
        deviceType = CL_DEVICE_TYPE_CPU ∨ deviceType = CL_DEVICE_TYPE_GPU ∨
        ∀ unit ∈ units, Names deviceType unit) := by
  refine ⟨exact_iff units deviceType, partitioned_iff units, ?_⟩
  rw [unites_iff, exact_iff]

/-- Of the units that the library lists, accelerators are all of them, and so are CPUs and GPUs. -/
theorem device_selection_of_listed_units :
    clGetDeviceIds [.GN, .GN, .GPU, .PEAK] CL_DEVICE_TYPE_ACCELERATOR 4 true true =
      .ok ⟨some 4, some [.GN, .GN, .GPU, .PEAK]⟩ ∧
    clGetDeviceIds [.GN, .GN, .GPU, .PEAK] (CL_DEVICE_TYPE_CPU ||| CL_DEVICE_TYPE_GPU) 4 true true =
      .ok ⟨some 4, some [.GN, .GN, .GPU, .PEAK]⟩ ∧
    ¬ Exact [.GN, .GN, .GPU, .PEAK] CL_DEVICE_TYPE_ACCELERATOR ∧
    ¬ Partitioned [.GN, .GN, .GPU, .PEAK] ∧
    ¬ Unites [.GN, .GN, .GPU, .PEAK] (CL_DEVICE_TYPE_CPU ||| CL_DEVICE_TYPE_GPU) := by
  refine ⟨by decide, by decide, ?_, ?_, ?_⟩
  · rw [exact_iff]
    decide
  · rw [partitioned_iff]
    decide
  · rw [unites_iff, exact_iff]
    decide

end Classes

end MangoModel.OpenCL
