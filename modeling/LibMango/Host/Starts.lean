import LibMango.Host.Context
import LibMango.Host.Notifications
import LibMango.Host.Scalars

namespace MangoModel.Host

section Model

/-- What `hn_write_image_into_memory` and `hn_run_kernel` answer. -/
structure HnOutcome where
  imageWritten : Bool
  kernelRun : Bool
  deriving DecidableEq, Repr

/-- What ends the process: an exception of a lookup, an assertion, or a null pointer. -/
inductive LaunchFault where
  | lookup
  | args
  | unit
  | version
  | arguments
  | nullEvent
  deriving DecidableEq, Repr

variable (hn : HnOutcome) (gnemu : Option (List (List Nat)))

/-- `Context::start_kernel` once the image is in place; `none` is the null pointer. -/
def runKernel (k : Kernel) (unit : HwUnit) (ka : KernelArguments) (s : Tasks) :
    Except LaunchFault (Option Event) × Tasks :=
  match ka.getArguments gnemu unit.arch with
  | none | some [] => (.error .arguments, s)
  | some (_ :: _) =>
    let s := s.write k.id 0
    if hn.kernelRun then (.ok (some k.terminationEvent), s.hnRunKernel k.id) else (.ok none, s)

def contextStartKernel (k : Kernel) (ka : KernelArguments) (s : Tasks) :
    Except LaunchFault (Option Event) × Tasks :=
  match k.unit with
  | none => (.error .unit, s)
  | some unit =>
    if unit.arch = .DCT then runKernel hn gnemu k unit ka s
    else match k.kernel.version unit.arch with
      | none => (.error .version, s)
      | some _ => if hn.imageWritten then runKernel hn gnemu k unit ka s else (.ok none, s)

def bbqStartKernel (k : Kernel) (ka : KernelArguments) (s : Tasks) : Except LaunchFault Event × Tasks :=
  match contextStartKernel hn gnemu k ka (s.notify (.taskStart k.id)) with
  | (.error fault, s) => (.error fault, s)
  | (.ok none, s) => (.error .nullEvent, s)
  | (.ok (some e), s) => (.ok e, s.setCallback k.id)

def mangoStartKernel (cxt : Context) (kernel : Nat) (args : Option KernelArguments) (event : Nat)
    (s : Tasks) : Except LaunchFault Nat × Tasks :=
  match cxt.kernels[kernel]?, cxt.events[event]? with
  | some k, some _ =>
    match args with
    | none => (.error .args, s)
    | some ka =>
      let (e, s) := bbqStartKernel hn gnemu k ka s
      (e.map Event.id, s)
  | _, _ => (.error .lookup, s)

/-- The image is written where the unit takes one, and the kernel is run. -/
def Launches (k : Kernel) (ka : KernelArguments) : Prop :=
  ∃ unit, k.unit = some unit ∧ (ka.getArguments gnemu unit.arch).isSome ∧ hn.kernelRun = true ∧
    (unit.arch = .DCT ∨ (k.kernel.version unit.arch).isSome ∧ hn.imageWritten = true)

/-- No event is used that is not there, a launch that has failed leaves no start without its stop, and
    one that has not failed returns as it should. -/
def Handled {α : Type} (s : Tasks) (returns : α → Tasks → Prop) : Except LaunchFault α × Tasks → Prop
  | (.ok a, after) => returns a after
  | (.error fault, after) =>
    fault ≠ .nullEvent ∧ ∀ id, after.starts id + s.stops id = s.starts id + after.stops id

end Model

section Arguments

variable {gnemu : Option (List (List Nat))} {arch : UnitType} {ka : KernelArguments}

theorem writeArgument_ne_nil {ss ss' : Stream} {arg : Arg} (filled : ss.text ≠ [])
    (run : KernelArguments.writeArgument ss arg = some ss') : ss'.text ≠ [] := by
  obtain ⟨value, _, run⟩ := Option.bind_eq_some_iff.mp run
  cases arg <;> cases run <;> simp [Stream.write, Stream.setHex, Stream.number, filled]

theorem getArguments_ne_nil {text : List Char} (run : ka.getArguments gnemu arch = some text) : text ≠ [] := by
  obtain ⟨first, begun, run⟩ := Option.bind_eq_some_iff.mp run
  obtain ⟨last, written, run⟩ := Option.bind_eq_some_iff.mp run
  cases run
  have start : first.text ≠ [] := by
    unfold KernelArguments.beginning at begun
    split at begun
    · split at begun
      · obtain ⟨version, _, begun⟩ := Option.bind_eq_some_iff.mp begun
        cases begun
        simp [Stream.write, Stream.setHex, Stream.number]
      · cases begun
        simp [Stream.write]
    · cases begun
      simp [Stream.write]
  exact Fallible.foldlM_invariant (motive := fun _ ss => ss.text ≠ [])
    (fun _ _ _ _ _ filled one => writeArgument_ne_nil filled one) start written

end Arguments

section Failures

variable {hn : HnOutcome} {gnemu : Option (List (List Nat))} {k : Kernel} {ka : KernelArguments} {s : Tasks}

/-- To write zero is not to write READ. -/
theorem write_zero_notified (kernel : Nat) : (s.write kernel 0).notified = s.notified := by
  rw [Tasks.write, if_neg (by decide)]
  rfl

theorem contextStartKernel_launches (launches : Launches hn gnemu k ka) :
    contextStartKernel hn gnemu k ka s =
      (.ok (some k.terminationEvent), (s.write k.id 0).hnRunKernel k.id) := by
  obtain ⟨unit, assigned, written, run, image⟩ := launches
  obtain ⟨text, written⟩ := Option.isSome_iff_exists.mp written
  have running : runKernel hn gnemu k unit ka s =
      (.ok (some k.terminationEvent), (s.write k.id 0).hnRunKernel k.id) := by
    cases text with
    | nil => exact absurd rfl (getArguments_ne_nil written)
    | cons first rest => simp only [runKernel, written, run, ↓reduceIte]
  rw [contextStartKernel, assigned]
  dsimp only
  rcases image with dct | ⟨loaded, image⟩
  · rw [if_pos dct, running]
  · obtain ⟨version, loaded⟩ := Option.isSome_iff_exists.mp loaded
    rw [loaded, image, running]
    exact ite_self _

/-- Where a launch fails, it does so by a fault or with the null pointer, and it notifies nothing. -/
theorem contextStartKernel_fails (fails : ¬ Launches hn gnemu k ka) : ∃ result after,
    contextStartKernel hn gnemu k ka s = (result, after) ∧ (∀ e, result ≠ .ok (some e)) ∧
      after.notified = s.notified := by
  have running : ∀ unit, k.unit = some unit →
      (unit.arch = .DCT ∨ (k.kernel.version unit.arch).isSome ∧ hn.imageWritten = true) →
      ∃ result after, runKernel hn gnemu k unit ka s = (result, after) ∧ (∀ e, result ≠ .ok (some e)) ∧
        after.notified = s.notified := by
    intro unit assigned image
    unfold runKernel
    split
    · exact ⟨_, _, rfl, fun e => nofun, rfl⟩
    · exact ⟨_, _, rfl, fun e => nofun, rfl⟩
    · next first rest written =>
      have unrun : ¬ hn.kernelRun = true := fun run =>
        fails ⟨unit, assigned, by rw [written]; rfl, run, image⟩
      rw [if_neg unrun]
      exact ⟨_, _, rfl, fun e => nofun, write_zero_notified k.id⟩
  unfold contextStartKernel
  split
  · exact ⟨_, _, rfl, fun e => nofun, rfl⟩
  · next unit assigned =>
    split
    · next dct => exact running unit assigned (.inl dct)
    · split
      · exact ⟨_, _, rfl, fun e => nofun, rfl⟩
      · next version loaded =>
        split
        · next image => exact running unit assigned (.inr ⟨by rw [loaded]; rfl, image⟩)
        · exact ⟨_, _, rfl, fun e => nofun, rfl⟩

/-- A launch that succeeds is the one that the notifications of a run are counted by. -/
theorem bbqStartKernel_launches (launches : Launches hn gnemu k ka) :
    bbqStartKernel hn gnemu k ka s = (.ok k.terminationEvent, s.startKernel k.id) := by
  rw [bbqStartKernel, contextStartKernel_launches launches]
  rfl

theorem bbqStartKernel_fails (fails : ¬ Launches hn gnemu k ka) : ∃ fault after,
    bbqStartKernel hn gnemu k ka s = (.error fault, after) ∧
      (fault ≠ .nullEvent → after.notified = .taskStart k.id :: s.notified) := by
  obtain ⟨result, after, ended, eventless, quiet⟩ :=
    contextStartKernel_fails (s := s.notify (.taskStart k.id)) fails
  rw [bbqStartKernel, ended]
  match result with
  | .error fault => exact ⟨fault, after, rfl, fun _ => quiet⟩
  | .ok none => exact ⟨_, _, rfl, fun other => absurd rfl other⟩
  | .ok (some e) => exact absurd rfl (eventless e)

theorem startKernel_callback (kernel : Nat) : (s.startKernel kernel).callback kernel = true :=
  Function.update_self _ _ _

theorem unanswered_start {after : Tasks} (kernel : Nat)
    (notified : after.notified = .taskStart kernel :: s.notified) :
    after.starts kernel + s.stops kernel ≠ s.starts kernel + after.stops kernel := by
  have starts : after.starts kernel = s.starts kernel + 1 := by
    rw [Tasks.starts, notified, List.count_cons_self]
    rfl
  have stops : after.stops kernel = s.stops kernel := by
    have other : Notification.taskStart kernel ≠ .taskStop kernel := by simp
    rw [Tasks.stops, notified, List.count_cons_of_ne other]
    rfl
  omega

theorem bbqStartKernel_handled_iff {α : Type} {returns : α → Tasks → Prop} (result : Event → α)
    (good : Launches hn gnemu k ka → returns (result k.terminationEvent) (s.startKernel k.id)) :
    Handled s returns ((bbqStartKernel hn gnemu k ka s).1.map result, (bbqStartKernel hn gnemu k ka s).2) ↔
      Launches hn gnemu k ka := by
  constructor
  · intro handled
    by_contra fails
    obtain ⟨fault, after, ended, notified⟩ := bbqStartKernel_fails fails
    rw [ended] at handled
    exact unanswered_start k.id (notified handled.1) (handled.2 k.id)
  · intro launches
    rw [bbqStartKernel_launches launches]
    exact good launches

/-- A launch is handled exactly where it does not fail, or fails before anything is notified. -/
theorem launch_handled_iff (hn : HnOutcome) (gnemu : Option (List (List Nat))) :
    (∀ (k : Kernel) (ka : KernelArguments) (s : Tasks),
      Handled s (fun e after => e = k.terminationEvent ∧ after.callback k.id = true)
        (bbqStartKernel hn gnemu k ka s) ↔ Launches hn gnemu k ka) ∧
    ∀ (cxt : Context) (kernel : Nat) (args : Option KernelArguments) (event : Nat) (s : Tasks),
      Handled s (fun id after => ∃ k, cxt.kernels[kernel]? = some k ∧ id = k.terminationEvent.id ∧
          after.callback k.id = true) (mangoStartKernel hn gnemu cxt kernel args event s) ↔
        ∀ k ka, cxt.kernels[kernel]? = some k → cxt.events[event]?.isSome → args = some ka →
          Launches hn gnemu k ka := by
  constructor
  · intro k ka s
    have iff : Handled s (fun e after => e = k.terminationEvent ∧ after.callback k.id = true)
        ((bbqStartKernel hn gnemu k ka s).1.map id, (bbqStartKernel hn gnemu k ka s).2) ↔
        Launches hn gnemu k ka :=
      bbqStartKernel_handled_iff id fun _ => ⟨rfl, startKernel_callback k.id⟩
    rwa [Except.map_id] at iff
  · intro cxt kernel args event s
    unfold mangoStartKernel
    split
    · next k e known registered =>
      cases args with
      | none => exact iff_of_true ⟨nofun, fun _ => rfl⟩ (fun _ _ _ _ given => nomatch given)
      | some ka =>
        refine (bbqStartKernel_handled_iff Event.id fun _ => ?_).trans ?_
        · exact ⟨k, known, rfl, startKernel_callback k.id⟩
        · rw [registered, known]
          constructor
          · rintro launches _ _ ⟨⟩ _ ⟨⟩
            exact launches
          · intro every
            exact every k ka rfl rfl rfl
    · next unknown =>
      refine iff_of_true ⟨nofun, fun _ => rfl⟩ fun k ka known registered _ => ?_
      obtain ⟨e, registered⟩ := Option.isSome_iff_exists.mp registered
      exact absurd registered (unknown k e known)

/-- A kernel on a PEAK unit, with its image and its arguments. -/
def peakKernel : Kernel :=
  { plainKernel with
    kernel := (KernelFunction.load (fun _ => true) "kernel" .PEAK .BINARY .empty).2
    unit := some ⟨3, .PEAK⟩ }

def peakArguments : KernelArguments := ⟨[.event 0 (some 4096)], peakKernel⟩

/-- Whichever of the two calls fails, the start has been notified, and the null pointer is used. -/
theorem failed_launch_uses_null :
    (∃ after, bbqStartKernel ⟨false, true⟩ none peakKernel peakArguments (.start fun _ => 0) =
      (.error .nullEvent, after) ∧ after.notified = [.taskStart peakKernel.id]) ∧
    ∃ after, bbqStartKernel ⟨true, false⟩ none peakKernel peakArguments (.start fun _ => 0) =
      (.error .nullEvent, after) ∧ after.notified = [.taskStart peakKernel.id] :=
  ⟨⟨_, rfl, rfl⟩, ⟨_, rfl, rfl⟩⟩

end Failures

end MangoModel.Host
