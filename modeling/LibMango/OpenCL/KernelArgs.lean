import LibMango.Host.Scalars

namespace MangoModel.OpenCL

open Host

section Model

/-- What `arg_value` points to: bytes, a buffer with its id, or room for an event. -/
inductive ArgValue where
  | scalar (mem : Nat → UInt8)
  | buffer (id : Nat)
  | event

structure Call where
  argIndex : Nat
  argSize : Nat
  argValue : ArgValue

/-- A kernel with the addresses of its arguments, and the arguments that have been allocated. -/
structure ClKernel where
  kernel : Nat
  args : List Nat
  objects : List Arg

def ClKernel.create (kernel : Nat) (objects : List Arg) : ClKernel := ⟨kernel, [], objects⟩

/-- `sizeof(int)`, `sizeof(long)` and `sizeof(short)` are kept, and all else becomes `uint32_t`. -/
def scalarSize : Nat → Nat
  | 4 => 4
  | 8 => 8
  | 2 => 2
  | _ => 4

def mangoGetBufferEvent (cxt : Context) (buffer : Nat) : Option Nat := do
  let b ← cxt.buffers[buffer]?
  if b.event.id = 0 then none else some b.event.id

/-- The event of the buffer that an earlier argument stands for; a scalar has no id to read. -/
def ClKernel.argEvent (cxt : Context) (k : ClKernel) (argIndex : Nat) : Option Nat := do
  let address ← k.args[argIndex]?
  match ← k.objects[address]? with
  | .buffer id _ | .event id _ => mangoGetBufferEvent cxt id
  | .scalar _ _ => none

def ClKernel.newArg (cxt : Context) (k : ClKernel) (call : Call) : Option Arg :=
  match call.argValue with
  | .scalar mem => mangoArg cxt k.kernel mem (scalarSize call.argSize) .SCALAR
  | .buffer id => mangoArg cxt k.kernel (bytes id) 8 .BUFFER
  | .event => do
    let ev ← k.argEvent cxt call.argIndex
    mangoArg cxt k.kernel (bytes ev) 8 .EVENT

/-- `none` where the call throws, or ends the process. -/
def clSetKernelArg (cxt : Context) (k : ClKernel) (call : Call) : Option ClKernel :=
  if call.argSize = 0 then none
  else do
    let arg ← k.newArg cxt call
    return { k with args := k.args ++ [k.objects.length], objects := k.objects ++ [arg] }

end Model

section Indices

/-- The place in the sequence of the last call with an index. -/
def lastCall : List Call → Nat → Option Nat
  | [], _ => none
  | call :: rest, i =>
    match lastCall rest i with
    | some place => some (place + 1)
    | none => if call.argIndex = i then some 0 else none

variable {calls : List Call} {cxt : Context} {k k' : ClKernel} {i n place : Nat}

theorem lastCall_some (found : lastCall calls i = some place) :
    (calls.map Call.argIndex)[place]? = some i := by
  induction calls generalizing place with
  | nil => cases found
  | cons call rest ih =>
    rw [lastCall] at found
    split at found
    · next later last =>
      cases found
      exact ih last
    · split at found
      · next same =>
        cases found
        rw [← same]
        rfl
      · cases found

theorem lastCall_of_mem (member : i ∈ calls.map Call.argIndex) : ∃ place, lastCall calls i = some place := by
  induction calls with
  | nil => cases member
  | cons call rest ih =>
    rw [lastCall]
    rcases List.mem_cons.mp member with same | later
    · rcases lastCall rest i with _ | place
      · exact ⟨0, if_pos same.symm⟩
      · exact ⟨place + 1, rfl⟩
    · obtain ⟨place, found⟩ := ih later
      exact ⟨place + 1, by rw [found]⟩

theorem clSetKernelArgs_args (run : calls.foldlM (clSetKernelArg cxt) k = some k') :
    k'.args = k.args ++ List.range' k.objects.length calls.length ∧
      k'.objects.length = k.objects.length + calls.length := by
  refine Fallible.foldlM_invariant (motive := fun done k' =>
    k'.args = k.args ++ List.range' k.objects.length done.length ∧
      k'.objects.length = k.objects.length + done.length) (fun done call k₁ k₂ _ before one => ?_) ?_ run
  · obtain ⟨args, objects⟩ := before
    rw [clSetKernelArg] at one
    split at one
    · cases one
    · obtain ⟨arg, _, one⟩ := Option.bind_eq_some_iff.mp one
      cases one
      constructor
      · rw [List.length_append, List.length_singleton, List.range'_1_concat, ← List.append_assoc, ← args,
          ← objects]
      · simp only [List.length_append, List.length_singleton]
        omega
  · simp

/-- The arguments of a new kernel stand at their indices, each from the last call with the index, if and
    only if the calls have set the indices once each and in ascending order. -/
theorem set_args_indexed_iff {kernel : Nat} {objects : List Arg}
    (run : calls.foldlM (clSetKernelArg cxt) (.create kernel objects) = some k)
    (indices : ∀ i, i ∈ calls.map Call.argIndex ↔ i < n) :
    (k.args.length = n ∧ ∀ i < n, k.args[i]? = (lastCall calls i).map (objects.length + ·)) ↔
      calls.map Call.argIndex = List.range n := by
  obtain ⟨args, _⟩ := clSetKernelArgs_args run
  simp only [ClKernel.create, List.nil_append] at args
  have at_ : ∀ i < calls.length, k.args[i]? = some (objects.length + i) := by
    intro i below
    rw [args, List.getElem?_range' below, Nat.one_mul]
  constructor
  · rintro ⟨length, last⟩
    rw [args, List.length_range'] at length
    apply List.ext_getElem?
    intro i
    by_cases below : i < n
    · obtain ⟨place, found⟩ := lastCall_of_mem ((indices i).mpr below)
      have same := last i below
      rw [found, at_ i (by omega), Option.map_some, Option.some.injEq] at same
      obtain rfl : i = place := by omega
      rw [lastCall_some found, List.getElem?_range below]
    · rw [List.getElem?_eq_none (by simpa [length] using below),
        List.getElem?_eq_none (by simpa using below)]
  · intro ascending
    have length : calls.length = n := by
      have lengths := congrArg List.length ascending
      simpa using lengths
    refine ⟨by rw [args, List.length_range', length], ?_⟩
    intro i below
    obtain ⟨place, found⟩ := lastCall_of_mem ((indices i).mpr below)
    have index := lastCall_some found
    rw [ascending] at index
    obtain ⟨_, same⟩ := List.getElem?_eq_some_iff.mp index
    rw [List.getElem_range] at same
    rw [found, at_ i (by omega), same]
    rfl

def scalarCall (argIndex : Nat) (v : Int) : Call := ⟨argIndex, 4, .scalar (bytes v)⟩

theorem set_args_indexed_ascending : ∃ k,
    [scalarCall 0 7, scalarCall 1 8].foldlM (clSetKernelArg plainContext) (.create 1 []) = some k ∧
    ((k.args.length = 2 ∧
        ∀ i < 2, k.args[i]? = (lastCall [scalarCall 0 7, scalarCall 1 8] i).map (([] : List Arg).length + ·)) ↔
      [scalarCall 0 7, scalarCall 1 8].map Call.argIndex = List.range 2) := by
  have run : [scalarCall 0 7, scalarCall 1 8].foldlM (clSetKernelArg plainContext) (.create 1 []) =
    some _ := rfl
  refine ⟨_, run, set_args_indexed_iff run ?_⟩
  intro i
  simp only [scalarCall, List.map_cons, List.map_nil, List.mem_cons, List.not_mem_nil, or_false]
  omega

/-- In descending order the two arguments are passed the wrong way round. -/
theorem set_args_descending : ∃ k,
    [scalarCall 1 8, scalarCall 0 7].foldlM (clSetKernelArg plainContext) (.create 1 []) = some k ∧
    (k.args.mapM fun address => (k.objects[address]?).bind Arg.getValue) = some [8, 7] ∧
    ¬ (k.args.length = 2 ∧
        ∀ i < 2, k.args[i]? = (lastCall [scalarCall 1 8, scalarCall 0 7] i).map (([] : List Arg).length + ·)) := by
  have run : [scalarCall 1 8, scalarCall 0 7].foldlM (clSetKernelArg plainContext) (.create 1 []) =
    some _ := rfl
  refine ⟨_, run, by decide, ?_⟩
  rintro ⟨_, last⟩
  exact absurd (last 0 (by decide)) (by decide)

end Indices

section Scalars

/-- What a scalar argument becomes is determined by the bytes that were passed, and for the sizes of
    the unsigned types it is the number they form. -/
structure FromBytes (cxt : Context) (k : ClKernel) (argIndex argSize : Nat) : Prop where
  same : ∀ mem mem' : Nat → UInt8, (∀ i < argSize, mem i = mem' i) →
    clSetKernelArg cxt k ⟨argIndex, argSize, .scalar mem⟩ =
      clSetKernelArg cxt k ⟨argIndex, argSize, .scalar mem'⟩
  number : argSize = 1 ∨ argSize = 2 ∨ argSize = 4 → ∀ mem k',
    clSetKernelArg cxt k ⟨argIndex, argSize, .scalar mem⟩ = some k' →
      ∃ type, k'.objects = k.objects ++ [.scalar type (load mem argSize)]

variable {cxt : Context} {k : ClKernel} {argIndex argSize : Nat} {mem mem' : Nat → UInt8}

theorem load_congr {size : Nat} (agree : ∀ i < size, mem i = mem' i) : load mem size = load mem' size := by
  induction size with
  | zero => rfl
  | succ size ih =>
    rw [load, load, ih fun i below => agree i (by omega), agree size (Nat.lt_succ_self size)]

theorem load_lt (size : Nat) : load mem size < 256^size := by
  induction size with
  | zero => exact Nat.one_pos
  | succ size ih =>
    have byte := (mem size).toNat_lt
    calc load mem size + (mem size).toNat * 256^size
        < 256^size + (mem size).toNat * 256^size := Nat.add_lt_add_right ih _
      _ = ((mem size).toNat + 1) * 256^size := by rw [Nat.succ_mul, Nat.add_comm]
      _ ≤ 256 * 256^size := Nat.mul_le_mul_right _ (by omega)
      _ = 256^(size + 1) := by rw [Nat.pow_succ, Nat.mul_comm]

/-- The sizes that are told apart are read in full, and no more. -/
theorem scalarArg_congr {size : Nat} (agree : ∀ i < size, mem i = mem' i) :
    scalarArg mem size = scalarArg mem' size := by
  unfold scalarArg
  split <;> first | rfl | rw [load_congr agree]

theorem scalarSize_le (positive : argSize ≠ 0) (one : argSize ≠ 1) (three : argSize ≠ 3) :
    scalarSize argSize ≤ argSize := by
  unfold scalarSize
  split
  · exact Nat.le_refl 4
  · exact Nat.le_refl 8
  · exact Nat.le_refl 2
  · next four eight two =>
    have other : argSize ≠ 2 := two
    omega

theorem ofInt_load (type : ScalarType) {size : Nat} (fits : size ≤ 4) :
    Arg.ofInt type (load mem size) = .scalar type (load mem size) := by
  have bound : 256^size ≤ 256^4 := Nat.pow_le_pow_right (by decide) fits
  have below : load mem size < 256^size := load_lt size
  rw [Arg.ofInt]
  congr 1
  omega

theorem clSetKernelArg_scalar (positive : argSize ≠ 0) {registered : Kernel}
    (found : cxt.kernels[k.kernel]? = some registered) :
    clSetKernelArg cxt k ⟨argIndex, argSize, .scalar mem⟩ = (scalarArg mem (scalarSize argSize)).map fun arg =>
      { k with args := k.args ++ [k.objects.length], objects := k.objects ++ [arg] } := by
  simp only [clSetKernelArg, if_neg positive, ClKernel.newArg, mangoArg, found, Option.bind_eq_bind,
    Option.bind_some]
  cases scalarArg mem (scalarSize argSize) <;> rfl

theorem clSetKernelArg_unregistered (found : cxt.kernels[k.kernel]? = none) :
    clSetKernelArg cxt k ⟨argIndex, argSize, .scalar mem⟩ = none := by
  simp only [clSetKernelArg, ClKernel.newArg, mangoArg, found, Option.bind_eq_bind, Option.bind_none]
  exact ite_self none

/-- Of one or three bytes, four are read. -/
theorem fromBytes_fails {registered : Kernel} (found : cxt.kernels[k.kernel]? = some registered)
    (size : argSize = 1 ∨ argSize = 3) : ¬ FromBytes cxt k argIndex argSize := by
  intro fromBytes
  have agree : ∀ i < argSize, (0 : UInt8) = if i = 3 then 1 else 0 := by
    intro i below
    rw [if_neg (by omega)]
  have same := fromBytes.same (fun _ => 0) (fun i => if i = 3 then 1 else 0) agree
  rw [clSetKernelArg_scalar (by omega) found, clSetKernelArg_scalar (by omega) found] at same
  have read : scalarSize argSize = 4 := by rcases size with rfl | rfl <;> rfl
  rw [read] at same
  simp [scalarArg, Arg.ofInt, load] at same

/-- A scalar argument depends on nothing but the bytes that were passed, unless these are one or three.
    Where the kernel is not registered an assertion fails. -/
theorem scalar_from_bytes_iff (cxt : Context) (k : ClKernel) (argIndex argSize : Nat) :
    FromBytes cxt k argIndex argSize ↔
      (cxt.kernels[k.kernel]?.isSome → argSize ≠ 1 ∧ argSize ≠ 3) := by
  cases found : cxt.kernels[k.kernel]? with
  | none =>
    refine iff_of_true ⟨?_, ?_⟩ (by simp)
    · intro mem mem' _
      rw [clSetKernelArg_unregistered found, clSetKernelArg_unregistered found]
    · intro _ mem k' run
      rw [clSetKernelArg_unregistered found] at run
      cases run
  | some registered =>
    constructor
    · intro fromBytes _
      exact ⟨fun one => fromBytes_fails found (.inl one) fromBytes,
        fun three => fromBytes_fails found (.inr three) fromBytes⟩
    · intro other
      obtain ⟨one, three⟩ := other rfl
      constructor
      · intro mem mem' agree
        by_cases zero : argSize = 0
        · simp only [clSetKernelArg, if_pos zero]
        · have within := scalarSize_le zero one three
          rw [clSetKernelArg_scalar zero found, clSetKernelArg_scalar zero found,
            scalarArg_congr fun i below => agree i (by omega)]
      · intro size mem k' run
        rw [clSetKernelArg_scalar (by omega) found] at run
        obtain ⟨arg, made, run⟩ := Option.map_eq_some_iff.mp run
        cases run
        rcases size with unsigned | rfl | rfl
        · exact absurd unsigned one
        · cases made
          exact ⟨_, by rw [ofInt_load _ (by decide)]⟩
        · cases made
          exact ⟨_, by rw [ofInt_load _ (by decide)]⟩

/-- A byte is passed and three more are read behind it: the argument is 1 or 257. -/
theorem scalar_byte_reads_four :
    (clSetKernelArg plainContext (.create 1 []) ⟨0, 1, .scalar fun i => if i = 0 then 1 else 0⟩).map
        ClKernel.objects = some [.scalar .unsignedInt 1] ∧
    (clSetKernelArg plainContext (.create 1 []) ⟨0, 1, .scalar fun i => if i < 2 then 1 else 0⟩).map
        ClKernel.objects = some [.scalar .unsignedInt 257] ∧
    ¬ FromBytes plainContext (.create 1 []) 0 1 :=
  ⟨by decide, by decide, fromBytes_fails (show plainContext.kernels[1]? = some _ from rfl) (.inl rfl)⟩

end Scalars

end MangoModel.OpenCL
