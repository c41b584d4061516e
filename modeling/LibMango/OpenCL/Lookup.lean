import LibMango.OpenCL.Programs

namespace MangoModel.OpenCL

open Host Vectors

section Model

/-- The calls on a program that name one of its kernels by the path of its binary. -/
inductive PathCall (π : Type) where
  | setInputBufferIDs (binary : π) (ids : List Nat)
  | setOutputBufferIDs (binary : π) (ids : List Nat)
  | createKernel (binaryPath : π)

namespace PathCall

variable {π θ : Type}

def map (f : π → θ) : PathCall π → PathCall θ
  | .setInputBufferIDs binary ids => .setInputBufferIDs (f binary) ids
  | .setOutputBufferIDs binary ids => .setOutputBufferIDs (f binary) ids
  | .createKernel binaryPath => .createKernel (f binaryPath)

end PathCall

def MAX_NUM_KERNEL_BUFFERS : Nat := 10

namespace Program

variable (program : Program)

/-- The entry under a path, which is made where there is none. -/
def entry (binary : CString) : MangoKernelFunction :=
  program.mapKernelFunctions.getD binary.address default

def enter (binary : CString) (entry : MangoKernelFunction) : Program :=
  ⟨program.mapKernelFunctions.insert binary.address entry⟩

/-- The end of a `cl_int` function that has no `return`: what comes behind it is undefined. -/
def flowsOff (_ : Program) : Option Program := none

/-- `none` where an assertion fails or the behaviour is undefined, here and below. -/
def clSetInputBufferIDs (binary : CString) (ids : List Nat) : Option Program :=
  if ids.length < MAX_NUM_KERNEL_BUFFERS then
    (program.enter binary { program.entry binary with buffersIn := ids }).flowsOff
  else none

def clSetOutputBufferIDs (binary : CString) (ids : List Nat) : Option Program :=
  if ids.length < MAX_NUM_KERNEL_BUFFERS then
    (program.enter binary { program.entry binary with buffersOut := ids }).flowsOff
  else none

/-- What the kernel is made from, which is all that the path decides. The registration asserts that
    the function is there and loaded. -/
def clCreateKernel (binaryPath : CString) : Option (Except ClCode MangoKernelFunction) :=
  if program.mapKernelFunctions.isEmpty then some (.error .CL_INVALID_PROGRAM_EXECUTABLE)
  else match program.mapKernelFunctions[binaryPath.address]? with
    | none => some (.error .CL_INVALID_KERNEL_NAME)
    | some kernFunct =>
      match kernFunct.function with
      | none => none
      | some f => if f.loaded then some (.ok kernFunct) else none

/-- The results of the calls that create kernels. -/
def run : List (PathCall CString) → Program → Option (List (Except ClCode MangoKernelFunction))
  | [], _ => some []
  | .setInputBufferIDs binary ids :: rest, program => do
    let program ← program.clSetInputBufferIDs binary ids
    run rest program
  | .setOutputBufferIDs binary ids :: rest, program => do
    let program ← program.clSetOutputBufferIDs binary ids
    run rest program
  | .createKernel binaryPath :: rest, program => do
    let result ← program.clCreateKernel binaryPath
    let results ← run rest program
    return result :: results

end Program

/-- What the calls are to do, told by the texts of the paths: the device and the function of each
    binary, and the ids that have been set last. -/
structure Library where
  binary : String → Option (Nat × KernelFunction)
  inputs : String → List Nat
  outputs : String → List Nat

namespace Library

def createKernel (library : Library) (text : String) : Except ClCode MangoKernelFunction :=
  match library.binary text with
  | none => .error .CL_INVALID_KERNEL_NAME
  | some (device, f) => .ok ⟨some device, some f, library.inputs text, library.outputs text⟩

def run : List (PathCall String) → Library → Option (List (Except ClCode MangoKernelFunction))
  | [], _ => some []
  | .setInputBufferIDs text ids :: rest, library =>
    if ids.length < MAX_NUM_KERNEL_BUFFERS then
      run rest { library with inputs := Function.update library.inputs text ids }
    else none
  | .setOutputBufferIDs text ids :: rest, library =>
    if ids.length < MAX_NUM_KERNEL_BUFFERS then
      run rest { library with outputs := Function.update library.outputs text ids }
    else none
  | .createKernel text :: rest, library => do
    let results ← run rest library
    return library.createKernel text :: results

/-- The library of a new program. -/
def ofBinaries (w : Setting) (items : List (Nat × CString)) : Library where
  binary text := (items.find? fun item => item.2.text = text).map fun item =>
    (item.1, loadedFunction (w.unitType item.1) text)
  inputs _ := []
  outputs _ := []

end Library

/-- The call sets no ids, and its path is the pointer that a binary was given by or has neither the text
    nor the address of one. -/
def PathCall.Own (items : List (Nat × CString)) : PathCall CString → Prop
  | .setInputBufferIDs _ _ | .setOutputBufferIDs _ _ => False
  | .createKernel path => (∃ item ∈ items, item.2 = path) ∨
      ∀ item ∈ items, item.2.text ≠ path.text ∧ item.2.address ≠ path.address

/-- No two binaries have the same text, and none has its text at the address of another. -/
structure Unlike (items : List (Nat × CString)) : Prop where
  texts : ∀ x ∈ items, ∀ y ∈ items, x.2.text = y.2.text → x = y
  addresses : ∀ x ∈ items, ∀ y ∈ items, x.2.address = y.2.address → x = y

/-- The map has for each binary what the library has, and nothing else. -/
structure Reads (w : Setting) (items : List (Nat × CString)) (program : Program) (library : Library) :
    Prop where
  binaries : ∀ item ∈ items, program.mapKernelFunctions[item.2.address]? =
    some ⟨some item.1, some (loadedFunction (w.unitType item.1) item.2.text),
      library.inputs item.2.text, library.outputs item.2.text⟩
  others : ∀ address : Nat, (∀ item ∈ items, item.2.address ≠ address) →
    program.mapKernelFunctions[address]? = none
  same : library.binary = (Library.ofBinaries w items).binary

end Model

section Steps

variable {w : Setting} {items : List (Nat × CString)} {program : Program} {library : Library}

theorem ofBinaries_binary (unlike : Unlike items) {item : Nat × CString} (member : item ∈ items) :
    (Library.ofBinaries w items).binary item.2.text =
      some (item.1, loadedFunction (w.unitType item.1) item.2.text) := by
  have found : items.find? (fun other => other.2.text = item.2.text) = some item := by
    cases search : items.find? (fun other => other.2.text = item.2.text) with
    | none =>
      have missing := List.find?_eq_none.mp search item member
      simp at missing
    | some other =>
      have same := List.find?_some search
      rw [unlike.texts other (List.mem_of_find?_eq_some search) item member (of_decide_eq_true same)]
  simp only [Library.ofBinaries, found, Option.map_some]

theorem ofBinaries_none {text : String} (unknown : ∀ item ∈ items, item.2.text ≠ text) :
    (Library.ofBinaries w items).binary text = none := by
  have missing : items.find? (fun item => item.2.text = text) = none :=
    List.find?_eq_none.mpr fun item member => by simpa using unknown item member
  simp only [Library.ofBinaries, missing, Option.map_none]

theorem Reads.filled (reads : Reads w items program library) {item : Nat × CString} (member : item ∈ items) :
    program.mapKernelFunctions.isEmpty = false := by
  have entered := reads.binaries item member
  exact Std.TreeMap.isEmpty_eq_false_iff_exists_mem.mpr
    ⟨item.2.address, Std.TreeMap.mem_iff_isSome_getElem?.mpr (by rw [entered]; rfl)⟩

theorem Reads.clCreateKernel_of_mem (reads : Reads w items program library) {item : Nat × CString}
    (member : item ∈ items) {path : CString} (named : item.2.address = path.address) :
    program.clCreateKernel path =
      some (.ok ⟨some item.1, some (loadedFunction (w.unitType item.1) item.2.text),
        library.inputs item.2.text, library.outputs item.2.text⟩) := by
  simp only [Program.clCreateKernel, reads.filled member, ← named, reads.binaries item member]
  rfl

theorem Reads.clCreateKernel_of_free (reads : Reads w items program library) (some_ : items ≠ [])
    {path : CString} (free : ∀ item ∈ items, item.2.address ≠ path.address) :
    program.clCreateKernel path = some (.error .CL_INVALID_KERNEL_NAME) := by
  obtain ⟨item, member⟩ := List.exists_mem_of_ne_nil items some_
  simp only [Program.clCreateKernel, reads.filled member, reads.others path.address free]
  rfl

theorem Reads.createKernel_of_mem (reads : Reads w items program library) (unlike : Unlike items)
    {item : Nat × CString} (member : item ∈ items) : library.createKernel item.2.text =
      .ok ⟨some item.1, some (loadedFunction (w.unitType item.1) item.2.text),
        library.inputs item.2.text, library.outputs item.2.text⟩ := by
  simp only [Library.createKernel, reads.same, ofBinaries_binary unlike member]

theorem Reads.createKernel_of_unknown (reads : Reads w items program library) {text : String}
    (unknown : ∀ item ∈ items, item.2.text ≠ text) :
    library.createKernel text = .error .CL_INVALID_KERNEL_NAME := by
  simp only [Library.createKernel, reads.same, ofBinaries_none unknown]

/-- A kernel is made from what its path says exactly where the path is the program's own. -/
theorem Reads.clCreateKernel_iff (reads : Reads w items program library) (unlike : Unlike items)
    (some_ : items ≠ []) (path : CString) :
    program.clCreateKernel path = some (library.createKernel path.text) ↔
      (PathCall.createKernel path).Own items := by
  by_cases placed : ∃ item ∈ items, item.2.address = path.address
  · obtain ⟨item, member, named⟩ := placed
    rw [reads.clCreateKernel_of_mem member named]
    constructor
    · intro agrees
      by_cases known : ∃ other ∈ items, other.2.text = path.text
      · obtain ⟨other, listed, text⟩ := known
        rw [← text, reads.createKernel_of_mem unlike listed] at agrees
        simp only [Option.some.injEq, Except.ok.injEq, MangoKernelFunction.mk.injEq] at agrees
        obtain ⟨device, function, _⟩ := agrees
        have version := congrArg (fun f => f.version (w.unitType item.1)) function
        rw [← device] at version
        simp only [loadedFunction_version, Option.some_inj] at version
        obtain rfl := unlike.texts item member other listed version
        exact .inl ⟨item, member, CString.ext_iff.mpr ⟨named, text⟩⟩
      · rw [reads.createKernel_of_unknown fun other listed text => known ⟨other, listed, text⟩] at agrees
        cases agrees
    · rintro (⟨other, listed, rfl⟩ | unknown)
      · obtain rfl := unlike.addresses item member other listed named
        rw [reads.createKernel_of_mem unlike member]
      · exact absurd named (unknown item member).2
  · have free : ∀ item ∈ items, item.2.address ≠ path.address :=
      fun item member named => placed ⟨item, member, named⟩
    rw [reads.clCreateKernel_of_free some_ free]
    constructor
    · intro agrees
      refine .inr fun item member => ⟨fun text => ?_, free item member⟩
      rw [← text, reads.createKernel_of_mem unlike member] at agrees
      cases agrees
    · rintro (⟨other, listed, rfl⟩ | unknown)
      · exact absurd rfl (free other listed)
      · rw [reads.createKernel_of_unknown fun item member => (unknown item member).1]

end Steps

section Runs

variable {w : Setting} {items : List (Nat × CString)} {program : Program} {library : Library}
  {calls : List (PathCall CString)}

def texts (calls : List (PathCall CString)) : List (PathCall String) := calls.map (·.map CString.text)

theorem setInputBufferIDs_undefined (binary : CString) (ids : List Nat) (rest : List (PathCall CString)) :
    program.run (.setInputBufferIDs binary ids :: rest) = none := by
  rw [Program.run, Program.clSetInputBufferIDs]
  split <;> rfl

theorem setOutputBufferIDs_undefined (binary : CString) (ids : List Nat) (rest : List (PathCall CString)) :
    program.run (.setOutputBufferIDs binary ids :: rest) = none := by
  rw [Program.run, Program.clSetOutputBufferIDs]
  split <;> rfl

/-- A call that asks for a kernel leaves the program as it is, so each goes for itself. -/
theorem run_createKernel_iff {path : CString} {created : Except ClCode MangoKernelFunction}
    {results : List (Except ClCode MangoKernelFunction)} :
    program.run (.createKernel path :: calls) = some (created :: results) ↔
      program.clCreateKernel path = some created ∧ program.run calls = some results := by
  rw [Program.run]
  cases program.clCreateKernel path <;> cases program.run calls <;> simp

theorem library_run_createKernel (path : CString) : library.run (texts (.createKernel path :: calls)) =
    (library.run (texts calls)).map (library.createKernel path.text :: ·) := by
  rw [texts, List.map_cons, PathCall.map, Library.run]
  exact Option.map_eq_bind.symm

theorem library_run_isSome (own : ∀ call ∈ calls, call.Own items) : (library.run (texts calls)).isSome := by
  induction calls with
  | nil => rfl
  | cons call rest ih =>
    have later := ih fun call listed => own call (List.mem_cons_of_mem _ listed)
    cases call with
    | setInputBufferIDs binary ids => exact (own _ List.mem_cons_self).elim
    | setOutputBufferIDs binary ids => exact (own _ List.mem_cons_self).elim
    | createKernel path =>
      rw [library_run_createKernel, Option.isSome_map]
      exact later

/-- A run has the results that the texts tell exactly where each of its calls is the program's own. -/
theorem Reads.run_iff (reads : Reads w items program library) (unlike : Unlike items) (some_ : items ≠ [])
    (returns : (library.run (texts calls)).isSome) :
    program.run calls = library.run (texts calls) ↔ ∀ call ∈ calls, call.Own items := by
  induction calls with
  | nil => simp [Program.run, Library.run, texts]
  | cons call rest ih =>
    cases call with
    | setInputBufferIDs binary ids =>
      obtain ⟨results, found⟩ := Option.isSome_iff_exists.mp returns
      rw [found, setInputBufferIDs_undefined]
      exact iff_of_false (Option.some_ne_none results).symm fun own => own _ List.mem_cons_self
    | setOutputBufferIDs binary ids =>
      obtain ⟨results, found⟩ := Option.isSome_iff_exists.mp returns
      rw [found, setOutputBufferIDs_undefined]
      exact iff_of_false (Option.some_ne_none results).symm fun own => own _ List.mem_cons_self
    | createKernel path =>
      rw [library_run_createKernel, Option.isSome_map] at returns
      obtain ⟨results, found⟩ := Option.isSome_iff_exists.mp returns
      have later := ih returns
      rw [found] at later
      rw [library_run_createKernel, found, Option.map_some, run_createKernel_iff,
        reads.clCreateKernel_iff unlike some_ path, later, List.forall_mem_cons]

theorem Reads.run (reads : Reads w items program library) (unlike : Unlike items) (some_ : items ≠ [])
    (own : ∀ call ∈ calls, call.Own items) : program.run calls = library.run (texts calls) :=
  (reads.run_iff unlike some_ (library_run_isSome own)).mpr own

end Runs

section Programs

variable {w : Setting} {binaries : List CString} {wanted : Bool} {devices : List Nat} {context : ClContext}
  {program : Program}

theorem unlike_of_different (different : (binaries.map CString.text).Nodup)
    (coherent : ∀ x ∈ binaries, ∀ y ∈ binaries, x.address = y.address → x.text = y.text) :
    Unlike (devices.zip binaries) := by
  have texts : ∀ x ∈ devices.zip binaries, ∀ y ∈ devices.zip binaries, x.2.text = y.2.text → x = y := by
    intro x listed y listed' same
    obtain ⟨i, found⟩ := List.mem_iff_getElem?.mp listed
    obtain ⟨j, found'⟩ := List.mem_iff_getElem?.mp listed'
    have path := (List.getElem?_zip_eq_some.mp found).2
    have path' := (List.getElem?_zip_eq_some.mp found').2
    have inside : i < (binaries.map CString.text).length := by
      rw [List.length_map]
      exact (List.getElem?_eq_some_iff.mp path).1
    obtain rfl : i = j := (List.getElem?_inj inside different).mp (by
      rw [List.getElem?_map, List.getElem?_map, path, path', Option.map_some, Option.map_some, same])
    exact Option.some.inj (found.symm.trans found')
  refine ⟨texts, fun x listed y listed' same => texts x listed y listed' ?_⟩
  exact coherent _ (List.of_mem_zip listed).2 _ (List.of_mem_zip listed').2 same

theorem reads_of_tabled {items : List (Nat × CString)} {functions : IdMap MangoKernelFunction}
    (tabled : Tabled w items functions) (unlike : Unlike items) :
    Reads w items ⟨functions⟩ (Library.ofBinaries w items) where
  binaries item member := by
    rw [tabled, latest_of_unique (fun other listed same => unlike.addresses _ listed _ member same) member]
    rfl
  others address free := by
    rw [tabled]
    cases found : latest (fun item : Nat × CString => item.2.address) items address with
    | none => rfl
    | some item => exact absurd (latest_mem found).2 (free item (latest_mem found).1)
  same := rfl

/-- A run has the results that the texts of its paths tell exactly where it sets no ids and passes the
    program's own paths; so two such runs with the same texts agree. -/
theorem lookup_by_text (some_ : devices ≠ []) (inside : ∀ d ∈ devices, d ∈ context.devices)
    (length : binaries.length = devices.length) (different : (binaries.map CString.text).Nodup)
    (coherent : ∀ x ∈ binaries, ∀ y ∈ binaries, x.address = y.address → x.text = y.text)
    (created : (clCreateProgramWithBinary w wanted (some context) (some devices) (some binaries)).result =
      .ok program) :
    let items := devices.zip binaries
    let library := Library.ofBinaries w items
    (∀ calls : List (PathCall CString), (∀ call ∈ calls, call.Own items) →
      program.run calls = library.run (texts calls)) ∧
    (∀ calls calls' : List (PathCall CString), (∀ call ∈ calls, call.Own items) →
      (∀ call ∈ calls', call.Own items) → texts calls = texts calls' →
      program.run calls = program.run calls') ∧
    ∀ calls : List (PathCall CString), (library.run (texts calls)).isSome →
      (program.run calls = library.run (texts calls) ↔ ∀ call ∈ calls, call.Own items) := by
  intro items library
  have unlike : Unlike items := unlike_of_different different coherent
  have reads : Reads w items program library :=
    reads_of_tabled (clCreateProgramWithBinary_ok some_ inside created).2.1 unlike
  have listed : items ≠ [] := by
    intro empty
    rcases List.zip_eq_nil_iff.mp empty with none_ | none_
    · exact some_ none_
    · rw [none_] at length
      exact some_ (List.length_eq_zero_iff.mp length.symm)
  refine ⟨fun calls own => reads.run unlike listed own, fun calls calls' own own' same => ?_,
    fun calls returns => reads.run_iff unlike listed returns⟩
  rw [reads.run unlike listed own, reads.run unlike listed own', same]

theorem lookup_of_two_binaries : ∃ program,
    (clCreateProgramWithBinary twoUnits true (some ⟨[1, 2], none⟩) (some [1, 2])
      (some [⟨100, "peak"⟩, ⟨200, "gn"⟩])).result = .ok program ∧
    program.run [.createKernel ⟨200, "gn"⟩, .createKernel ⟨300, "dct"⟩] =
      some [.ok ⟨some 2, some (loadedFunction .GN "gn"), [], []⟩, .error .CL_INVALID_KERNEL_NAME] := by
  have inside : ∀ d ∈ [1, 2], d ∈ (⟨[1, 2], none⟩ : ClContext).devices := by decide
  obtain ⟨program, created⟩ := clCreateProgramWithBinary_succeeds true (by decide) inside rfl
    (twoUnits_succeeds [⟨100, "peak"⟩, ⟨200, "gn"⟩] [1, 2])
  refine ⟨program, created, ?_⟩
  have told := (lookup_by_text (by decide) inside rfl (by decide) (by decide) created).1
  refine (told _ ?_).trans rfl
  simp [PathCall.Own]

/-- A string with the text of the binary at another address: the kernel is not found. -/
theorem lookup_by_other_pointer : ∃ program,
    (clCreateProgramWithBinary twoUnits true (some ⟨[1], none⟩) (some [1])
      (some [⟨100, "kernel"⟩])).result = .ok program ∧
    program.run [.createKernel ⟨100, "kernel"⟩] =
      some [.ok ⟨some 1, some (loadedFunction .PEAK "kernel"), [], []⟩] ∧
    program.run [.createKernel ⟨200, "kernel"⟩] = some [.error .CL_INVALID_KERNEL_NAME] := by
  have inside : ∀ d ∈ [1], d ∈ (⟨[1], none⟩ : ClContext).devices := by decide
  obtain ⟨program, created⟩ := clCreateProgramWithBinary_succeeds true (by decide) inside rfl
    (twoUnits_succeeds [⟨100, "kernel"⟩] [1])
  have unlike : Unlike (List.zip [1] [⟨100, "kernel"⟩]) := unlike_of_different (by decide) (by decide)
  have reads : Reads twoUnits [(1, ⟨100, "kernel"⟩)] program (Library.ofBinaries twoUnits _) :=
    reads_of_tabled (clCreateProgramWithBinary_ok (by decide) inside created).2.1 unlike
  refine ⟨program, created, ?_, ?_⟩
  · rw [Program.run, reads.clCreateKernel_of_mem List.mem_cons_self rfl]
    rfl
  · rw [Program.run, reads.clCreateKernel_of_free (by decide) (by decide)]
    rfl

end Programs

end MangoModel.OpenCL
