import LibMango.System.Allocation

namespace MangoModel.System

open Host Device OpenCL Interleave Layout Fallible Numeral

section Numbers

variable {w v : Nat}

theorem saturate_below (below : v < 2^(w - 1)) : saturate w v = v := by
  have wide : (v : Int) < 2^(w - 1) := by exact_mod_cast below
  unfold saturate
  generalize (2:Int)^(w - 1) = limit at wide
  omega

theorem saturate_small (long : 32 ≤ w) (small : v < 2^31) : saturate w v = v :=
  saturate_below (Nat.lt_of_lt_of_le small (Nat.pow_le_pow_right (by decide) (by omega)))

/-- The pointers of the lower half of the address space come through `strtol` unchanged. -/
theorem mangoMemoryMap_saturate (long : 32 ≤ w) (small : v < 2^31) : mangoMemoryMap (saturate w v) = v := by
  rw [saturate_small long small, mangoMemoryMap]
  omega

end Numbers

section Starting

variable {tlb : Tlb} {kernel : Kernel} {arguments : List Arg} {ka : KernelArguments}

/-- What a kernel is started with: its own events come before its arguments. -/
def allArguments (kernel : Kernel) (arguments : List Arg) : List Arg :=
  Arg.ofEvent kernel.terminationEvent :: kernel.taskEvents.map Arg.ofEvent ++ arguments

theorem allArguments_own (kernel : Kernel) (arguments : List Arg) {i : Nat} (few : i < 4) :
    (allArguments kernel arguments)[i]? = (kernel.events[i]?).map Arg.ofEvent := by
  have four : (kernel.events.map Arg.ofEvent).length = 4 := by simp [Kernel.events, kernel.three]
  have split : allArguments kernel arguments = kernel.events.map Arg.ofEvent ++ arguments := rfl
  rw [split, List.getElem?_append_left (by omega), List.getElem?_map]

theorem allArguments_param (kernel : Kernel) (arguments : List Arg) (j : Nat) :
    (allArguments kernel arguments)[4 + j]? = arguments[j]? := by
  have three := kernel.three
  rw [allArguments, List.cons_append, show 4 + j = 3 + j + 1 by omega, List.getElem?_cons_succ,
    List.getElem?_append_right (by simp [three])]
  simp [three]

theorem allArguments_four (kernel : Kernel) (arguments : List Arg) {i : Nat} (few : i < 4) :
    ∃ a, (allArguments kernel arguments)[i]? = some a := by
  have count : kernel.events.length = 4 := by simp [Kernel.events, kernel.three]
  exact ⟨_, by rw [allArguments_own _ _ few, List.getElem?_eq_getElem (by omega), Option.map_some]⟩

theorem own_given {kernel : Kernel} {arguments : List Arg} {tlb : Tlb} {w first : Nat} {argv : List (List Char)}
    (values : ∀ (i : Nat) a, (allArguments kernel arguments)[i]? = some a → ∃ value,
      a.valueIn tlb = some value ∧ argument w argv (first + i) = some (saturate w value)) :
    ∀ i < 4, ∃ value, argument w argv (first + i) = some value := by
  intro i few
  obtain ⟨a, place⟩ := allArguments_four kernel arguments few
  obtain ⟨_, _, found⟩ := values i a place
  exact ⟨_, found⟩

/-- Where an event's address is among what a kernel is started with. -/
def DeviceEvent.index : DeviceEvent → Nat
  | .exit => 0
  | .a => 1
  | .b => 2
  | .r => 3
  | .param j => 4 + j

theorem setValue_isSome {a : Arg} (known : (a.valueIn tlb).isSome) : ∃ a', a.setValue tlb = some a' := by
  obtain ⟨value, found⟩ := Option.isSome_iff_exists.mp known
  cases a with
  | scalar type value => exact ⟨_, rfl⟩
  | buffer id =>
    have here : tlb.buffers id = some value := found
    exact ⟨_, by rw [Arg.setValue, here]; rfl⟩
  | event id =>
    have here : tlb.events id = some value := found
    exact ⟨_, by rw [Arg.setValue, here]; rfl⟩

theorem setup_succeeds (known : ∀ a ∈ allArguments kernel arguments, (a.valueIn tlb).isSome) :
    ∃ ka, KernelArguments.setup tlb arguments kernel = some ka := by
  obtain ⟨evArg, exit⟩ := setValue_isSome (known _ List.mem_cons_self)
  obtain ⟨evArgs, tasks⟩ : ∃ evArgs,
      (kernel.taskEvents.mapM fun ev => (Arg.ofEvent ev).setValue tlb) = some evArgs := by
    refine mapM_of_forall fun ev own => setValue_isSome (known _ ?_)
    exact List.mem_cons_of_mem _ (List.mem_append_left _ (List.mem_map_of_mem own))
  obtain ⟨args, others⟩ : ∃ args, arguments.mapM (Arg.setValue tlb) = some args := by
    refine mapM_of_forall fun a own => setValue_isSome (known a ?_)
    exact List.mem_cons_of_mem _ (List.mem_append_right _ own)
  exact ⟨_, by simp [KernelArguments.setup, exit, tasks, others]; rfl⟩

theorem getArguments_succeeds (set : SetUp tlb kernel arguments ka) (arch : UnitType) :
    ∃ text, ka.getArguments none arch = some text := by
  have values : ∀ a ∈ ka.args, ∃ value, a.getValue = some value :=
    forall₂_right set.values fun a a' related => ⟨_, related.choose_spec.2⟩
  obtain ⟨ss, written⟩ : ∃ ss, ka.args.foldlM KernelArguments.writeArgument ⟨['x'], false⟩ = some ss := by
    refine foldlM_always (fun a member s => ?_) _
    obtain ⟨value, found⟩ := values a member
    cases a <;> exact ⟨_, by rw [KernelArguments.writeArgument, found]; rfl⟩
  exact ⟨ss.text, by simp [KernelArguments.getArguments, KernelArguments.beginning, Stream.write, written]⟩

variable {d : Deployment} {kid : Nat} {unit : HwUnit}

/-- On a unit that is not emulated, the device's `argv` has behind its first word the values of the
    kernel's events and of its arguments. -/
theorem started_values (stored : d.cxt.kernels[kid]? = some kernel) (on : kernel.unit = some unit)
    (peak : unit.arch = .PEAK)
    (known : ∀ a ∈ allArguments kernel (d.arguments kid), (a.valueIn (d.mm.tlb kernel)).isSome) :
    ∃ argv, d.started kid = some (unit, argv) ∧
      ∀ (i : Nat) a, (allArguments kernel (d.arguments kid))[i]? = some a → ∃ value,
        a.valueIn (d.mm.tlb kernel) = some value ∧ argument d.w argv (1 + i) = some (saturate d.w value) := by
  obtain ⟨ka, built⟩ := setup_succeeds known
  have set := setup_spec built
  obtain ⟨text, printed⟩ := getArguments_succeeds set unit.arch
  refine ⟨KernelArguments.argv text, ?_, fun i a found => ?_⟩
  · simp [Deployment.started, stored, on, built, printed]
  · have notGn : unit.arch ≠ .GN := by
      rw [peak]
      decide
    obtain ⟨a', value, token, mine⟩ := argv_at set printed (fun gn => absurd gn notGn)
      (fun _ gn => absurd gn notGn) found
    rw [peak] at token
    refine ⟨value, mine, ?_⟩
    change (KernelArguments.argv text)[1 + i]? = _ at token
    rw [argument, token, Option.map_some, strtol_token]

end Starting

section Decoding

variable {w : Nat} {argv : List (List Char)} {kargs : List ParamType} {kernel : Kernel}
  {arguments : List Arg}

theorem pointer_eq {type : ParamType} {j : Nat} {value : Int} (known : type ≠ .other)
    (declared : kargs[j]? = some type) (found : argument w argv (5 + j) = some value) :
    pointer w kargs argv type j = some (mangoMemoryMap value) := by
  have entry : (genKernelEntry .PEAK kargs)[j]? = some (some (type, 5 + j)) := by
    rw [genKernelEntry, declarations_get declared]
    cases type <;> first | rfl | exact absurd rfl known
  simp [pointer, entry, found]

theorem mangoPeakInit_eq {e₀ e₁ e₂ e₃ : Int} (exit : argument w argv 1 = some e₀)
    (first : argument w argv 2 = some e₁) (second : argument w argv 3 = some e₂)
    (third : argument w argv 4 = some e₃) : mangoPeakInit w argv = some ⟨e₀, e₁, e₂, e₃⟩ := by
  simp [mangoPeakInit, exit, first, second, third]

/-- The start-up code finds an event's address where the host has put it. -/
theorem eventPointer_eq {event : DeviceEvent} {value : Int}
    (own : ∀ i < 4, ∃ value, argument w argv (1 + i) = some value)
    (found : argument w argv (1 + event.index) = some value)
    (declared : ∀ j, event = .param j → kargs[j]? = some .mangoEvent) :
    eventPointer w kargs argv event = some (mangoMemoryMap value) := by
  obtain ⟨e₀, exit⟩ := own 0 (by decide)
  obtain ⟨e₁, first⟩ := own 1 (by decide)
  obtain ⟨e₂, second⟩ := own 2 (by decide)
  obtain ⟨e₃, third⟩ := own 3 (by decide)
  have init := mangoPeakInit_eq exit first second third
  cases event with
  | exit =>
    obtain rfl := Option.some.inj (exit.symm.trans found)
    simp [eventPointer, init]
  | a =>
    obtain rfl := Option.some.inj (first.symm.trans found)
    simp [eventPointer, init]
  | b =>
    obtain rfl := Option.some.inj (second.symm.trans found)
    simp [eventPointer, init]
  | r =>
    obtain rfl := Option.some.inj (third.symm.trans found)
    simp [eventPointer, init]
  | param j =>
    rw [DeviceEvent.index, ← Nat.add_assoc] at found
    exact pointer_eq (by decide) (declared j rfl) found

end Decoding

end MangoModel.System
