import LibMango.Fallible.Loops
import LibMango.Host.Event
import Mathlib.Data.List.Perm.Basic

namespace MangoModel.Host

open Interleave Device

section Model

/-- `NotifyTaskStart` and `NotifyTaskStop`. -/
inductive Notification where
  | taskStart (kernel : Nat)
  | taskStop (kernel : Nat)
  deriving DecidableEq, Repr

/-- A thread in `mango_wait` or `mango_wait_state`, of which the first notifies when it has found
    its value. -/
structure Wait where
  kernel : Nat
  state : Nat
  notifies : Bool
  point : Option WaitPoint
  deriving DecidableEq, Repr

/-- For each kernel the register of its termination event, whether the event has its callback, and
    how many launches the device has not completed. -/
structure Tasks where
  regs : Nat → Nat
  callback : Nat → Bool
  running : Nat → Nat
  waits : List Wait
  notified : List Notification

inductive Move where
  | startKernel (kernel : Nat)
  | writeSynchronization (kernel value : Nat)
  | complete (kernel : Nat)
  | wait (kernel : Nat)
  | waitState (kernel state : Nat)
  | advance (thread : Nat)

/-- A read of the register empties it. -/
def termExec : Op Nat → (Nat → Nat) → Nat × (Nat → Nat)
  | .readSynchronization k, regs => (uint32 (regs k), Function.update regs k 0)
  | .writeSynchronization k value, regs => (0, Function.update regs k (uint32 value))
  | _, regs => (0, regs)

namespace Tasks

variable (s : Tasks)

def start (values : Nat → Nat) : Tasks := ⟨values, fun _ => false, fun _ => 0, [], []⟩

def starts (kernel : Nat) : Nat := s.notified.count (.taskStart kernel)

def stops (kernel : Nat) : Nat := s.notified.count (.taskStop kernel)

def notify (n : Notification) : Tasks := { s with notified := n :: s.notified }

/-- The callback of a kernel's event is `on_kernel_termination`. -/
def call (kernel : Nat) : Tasks := if s.callback kernel then s.notify (.taskStop kernel) else s

def eventWrite (kernel value : Nat) : Tasks :=
  { s with regs := (termExec (.writeSynchronization kernel value) s.regs).2 }

/-- `KernelCompletionEvent::write`. -/
def write (kernel value : Nat) : Tasks :=
  if uint32 value = MangoEventStatus.READ.value then (s.eventWrite kernel value).call kernel
  else s.eventWrite kernel value

def hnRunKernel (kernel : Nat) : Tasks :=
  { s with running := Function.update s.running kernel (s.running kernel + 1) }

def setCallback (kernel : Nat) : Tasks :=
  { s with callback := Function.update s.callback kernel true }

/-- `BBQContext::start_kernel`, when it succeeds. -/
def startKernel (kernel : Nat) : Tasks :=
  (((s.notify (.taskStart kernel)).write kernel 0).hnRunKernel kernel).setCallback kernel

/-- The kernel closes, and writes 1 to its event. -/
def complete (kernel : Nat) : Option Tasks :=
  if s.running kernel = 0 then none
  else some { s with
    regs := (termExec (.writeSynchronization kernel 1) s.regs).2
    running := Function.update s.running kernel (s.running kernel - 1) }

def poll (others : List Wait) (w : Wait) (p : WaitPoint) : Tasks :=
  let (value, regs) := termExec (p.op w.kernel) s.regs
  { s with regs := regs, waits := { w with point := p.next w.state value } :: others }

def leave (others : List Wait) (w : Wait) : Tasks :=
  let s := { s with waits := others }
  if w.notifies then s.call w.kernel else s

/-- The next operation of a thread in a wait. -/
def advance (thread : Nat) : Option Tasks := do
  let w ← s.waits[thread]?
  let others := s.waits.eraseIdx thread
  match w.point with
  | some p => return s.poll others w p
  | none => return s.leave others w

def step : Move → Option Tasks
  | .startKernel kernel => some (s.startKernel kernel)
  | .writeSynchronization kernel value => some (s.write kernel value)
  | .complete kernel => s.complete kernel
  | .wait kernel => some { s with waits := ⟨kernel, 1, true, some .poll⟩ :: s.waits }
  | .waitState kernel state => some { s with waits := ⟨kernel, state, false, some .poll⟩ :: s.waits }
  | .advance thread => s.advance thread

def Balanced : Prop := ∀ kernel, s.stops kernel ≤ s.starts kernel

end Tasks

/-- Completions, and what waits do. -/
def Move.quiet : Move → Bool
  | .startKernel _ | .writeSynchronization _ _ => false
  | _ => true

/-- In each state of a run, and in each that completions and waits make of it, no task has been
    stopped more often than it has been started. -/
def StaysBalanced (moves : List Move) (s : Tasks) : Prop :=
  ∀ done rest quiet s', moves = done ++ rest → (∀ m ∈ quiet, m.quiet = true) →
    (done ++ quiet).foldlM Tasks.step s = some s' → s'.Balanced

/-- A thread that has taken a 1 out of the register, which it either puts back or notifies. -/
def Wait.holds (w : Wait) (kernel : Nat) : Bool :=
  w.kernel == kernel && match w.point with
    | some (.back value) => uint32 value == 1
    | some .poll => false
    | none => w.notifies

namespace Tasks

variable (s : Tasks)

def holding (kernel : Nat) : Nat := s.waits.countP (·.holds kernel)

/-- No write of READ to the event of a kernel that has been started, unless two more of its starts
    than that have not been answered; and the first start while no wait has taken a 1. -/
def Admits : Move → Prop
  | .startKernel kernel => s.callback kernel = false → s.holding kernel = 0
  | .writeSynchronization kernel value =>
    uint32 value = MangoEventStatus.READ.value → s.callback kernel = true →
      s.stops kernel + s.running kernel + s.holding kernel + 2 ≤ s.starts kernel
  | _ => True

def Admitted : List Move → Tasks → Prop
  | [], _ => True
  | m :: rest, s => s.Admits m ∧ ∀ s', s.step m = some s' → Admitted rest s'

end Tasks

end Model

section Due

variable {s s' : Tasks} {m : Move} {w : Wait} {kernel other thread value : Nat}

/-- The register of an event has a 1. -/
def posted (value : Nat) : Nat := if uint32 value = 1 then 1 else 0

namespace Tasks

/-- How many notifications of its end a kernel has had, or will have if it is waited for. -/
def due (s : Tasks) (kernel : Nat) : Nat :=
  s.stops kernel + s.running kernel + s.holding kernel + posted (s.regs kernel)

@[simp] theorem starts_call : (s.call kernel).starts other = s.starts other := by
  unfold call
  split <;> simp [notify, starts]

@[simp] theorem regs_call : (s.call kernel).regs = s.regs := by
  unfold call
  split <;> rfl

@[simp] theorem running_call : (s.call kernel).running = s.running := by
  unfold call
  split <;> rfl

@[simp] theorem callback_call : (s.call kernel).callback = s.callback := by
  unfold call
  split <;> rfl

@[simp] theorem waits_call : (s.call kernel).waits = s.waits := by
  unfold call
  split <;> rfl

theorem stops_call : (s.call kernel).stops other =
    s.stops other + if kernel = other ∧ s.callback kernel = true then 1 else 0 := by
  unfold call
  by_cases set : s.callback kernel = true
  · simp [set, notify, stops, List.count_cons]
  · simp [set]

theorem holding_cons {waits : List Wait} (mine : w :: waits = s.waits) :
    s.holding kernel = waits.countP (·.holds kernel) + (w.holds kernel).toNat := by
  rw [holding, ← mine, List.countP_cons]
  cases w.holds kernel <;> rfl

theorem holding_take (found : s.waits[thread]? = some w) :
    s.holding kernel = (s.waits.eraseIdx thread).countP (·.holds kernel) + (w.holds kernel).toNat := by
  obtain ⟨below, rfl⟩ := List.getElem?_eq_some_iff.mp found
  rw [holding, ← (List.getElem_cons_eraseIdx_perm below).countP_eq, List.countP_cons]
  cases s.waits[thread].holds kernel <;> rfl

end Tasks

/-- Who notifies waits for a 1, and so it does not put one back. -/
def Wait.Sound (w : Wait) : Prop := w.notifies = true → w.state = 1 ∧ w.point ≠ some (.back 1)

def Wait.move (w : Wait) (p : WaitPoint) (value : Nat) : Wait := { w with point := p.next w.state value }

theorem Wait.holds_other (apart : w.kernel ≠ kernel) : w.holds kernel = false := by
  simp [Wait.holds, apart]

theorem uint32_twice (n : Nat) : uint32 (uint32 n) = uint32 n := Nat.mod_mod n _

/-- What a thread finds in the register, it has only if it was there. -/
theorem Wait.poll_holds (sound : w.Sound) (holds : (w.move .poll (uint32 value)).holds w.kernel = true) :
    uint32 value = 1 := by
  simp only [Wait.holds, Wait.move, WaitPoint.next, await, beq_self_eq_true, Bool.true_and] at holds
  by_cases empty : uint32 value = 0
  · rw [if_pos empty] at holds
    cases holds
  · rw [if_neg empty] at holds
    by_cases found : uint32 value = w.state
    · rw [if_pos found] at holds
      rw [found]
      exact (sound holds).1
    · rw [if_neg found] at holds
      simpa [uint32_twice] using holds

theorem Wait.put_holds (sound : w.Sound) (place : w.point = some (.back value)) :
    (w.move (.back value) 0).holds kernel = false := by
  simp only [Wait.holds, Wait.move, WaitPoint.next]
  by_cases found : value = w.state
  · rw [if_pos found]
    by_cases notifies : w.notifies = true
    · obtain ⟨one, apart⟩ := sound notifies
      rw [place, found, one] at apart
      exact absurd rfl apart
    · simp [notifies]
  · rw [if_neg found]
    simp

/-- A 1 is in the register, or with one thread that has taken it. -/
theorem Wait.move_due (regs : Nat → Nat) {p : WaitPoint} (sound : w.Sound) (place : w.point = some p) :
    posted ((termExec (p.op w.kernel) regs).2 w.kernel) +
        ((w.move p (termExec (p.op w.kernel) regs).1).holds w.kernel).toNat ≤
      posted (regs w.kernel) + (w.holds w.kernel).toNat := by
  cases p with
  | poll =>
    change posted (Function.update regs w.kernel 0 w.kernel) +
      ((w.move .poll (uint32 (regs w.kernel))).holds w.kernel).toNat ≤ _
    rw [Function.update_self, show posted 0 = 0 from rfl]
    rcases holds : (w.move .poll (uint32 (regs w.kernel))).holds w.kernel with _ | _
    · exact Nat.zero_le _
    · rw [posted, if_pos (poll_holds sound holds), Bool.toNat_true]
      omega
  | back value =>
    change posted (Function.update regs w.kernel (uint32 value) w.kernel) +
      ((w.move (.back value) 0).holds w.kernel).toNat ≤ _
    rw [Function.update_self, put_holds sound place, posted, uint32_twice]
    have taken : w.holds w.kernel = (uint32 value == 1) := by simp [Wait.holds, place]
    rw [taken]
    by_cases one : uint32 value = 1 <;> simp [one]

theorem termExec_other {regs : Nat → Nat} {p : WaitPoint} (apart : kernel ≠ other) :
    (termExec (p.op kernel) regs).2 other = regs other := by
  cases p <;> exact Function.update_of_ne apart.symm _ _

theorem Wait.move_sound {p : WaitPoint} (sound : w.Sound) : (w.move p value).Sound := by
  intro notifies
  obtain ⟨one, _⟩ := sound notifies
  refine ⟨one, ?_⟩
  cases p with
  | poll =>
    simp only [Wait.move, WaitPoint.next, await]
    split
    · simp
    · split
      · simp
      · next other =>
        intro same
        cases same
        exact other one.symm
  | back old =>
    simp only [Wait.move, WaitPoint.next]
    split <;> simp

namespace Tasks

/-- What completions and waits leave as it is, and that they add nothing to what is due. -/
structure Quieter (s s' : Tasks) : Prop where
  callback : s'.callback = s.callback
  starts : ∀ kernel, s'.starts kernel = s.starts kernel
  due : ∀ kernel, s'.due kernel ≤ s.due kernel
  idle : ∀ kernel, s.callback kernel = false →
    s'.running kernel ≤ s.running kernel ∧ s'.stops kernel = s.stops kernel
  waits : (∀ w ∈ s.waits, w.Sound) → ∀ w ∈ s'.waits, w.Sound

theorem complete_quieter (run : s.complete kernel = some s') : Quieter s s' := by
  rw [complete] at run
  split at run
  · cases run
  · next launched =>
    cases run
    constructor
    · rfl
    · exact fun other => rfl
    · intro other
      have one : posted 1 = 1 := by decide
      simp only [due, stops, holding, termExec]
      by_cases same : other = kernel
      · subst same
        simp only [Function.update_self]
        rw [show uint32 1 = 1 from rfl, one]
        omega
      · rw [Function.update_of_ne same, Function.update_of_ne same]
    · intro other _
      refine ⟨?_, rfl⟩
      simp only
      by_cases same : other = kernel
      · subst same
        rw [Function.update_self]
        omega
      · rw [Function.update_of_ne same]
    · exact fun sound => sound

theorem wait_quieter (w : Wait) (sound : w.Sound) (free : ∀ kernel, w.holds kernel = false) :
    Quieter s { s with waits := w :: s.waits } where
  callback := rfl
  starts _ := rfl
  due kernel := by
    rw [due, holding_cons rfl, free]
    exact Nat.le_refl _
  idle _ _ := ⟨Nat.le_refl _, rfl⟩
  waits others := List.forall_mem_cons.mpr ⟨sound, others⟩

theorem mem_of_eraseIdx (sound : ∀ w ∈ s.waits, w.Sound) : ∀ w ∈ s.waits.eraseIdx thread, w.Sound :=
  fun w member => sound w (List.mem_of_mem_eraseIdx member)

theorem due_poll {others : List Wait} {p : WaitPoint} (sound : w.Sound) (place : w.point = some p)
    (taken : s.holding kernel = others.countP (·.holds kernel) + (w.holds kernel).toNat) :
    (s.poll others w p).due kernel ≤ s.due kernel := by
  have now : (s.poll others w p).holding kernel = others.countP (·.holds kernel) +
      ((w.move p (termExec (p.op w.kernel) s.regs).1).holds kernel).toNat := holding_cons rfl
  rw [due, due, now, taken]
  change s.stops kernel + s.running kernel + _ + posted ((termExec (p.op w.kernel) s.regs).2 kernel) ≤ _
  by_cases same : w.kernel = kernel
  · subst same
    have moved := Wait.move_due s.regs sound place
    omega
  · have apart : (w.move p (termExec (p.op w.kernel) s.regs).1).holds kernel = false := Wait.holds_other same
    rw [termExec_other same, Wait.holds_other same, apart]

theorem stops_leave {others : List Wait} (place : w.point = none) :
    (s.leave others w).stops kernel =
      s.stops kernel + if s.callback kernel = true then (w.holds kernel).toNat else 0 := by
  have holds : w.holds kernel = (w.kernel == kernel && w.notifies) := by simp [Wait.holds, place]
  rw [leave, holds]
  by_cases notifies : w.notifies = true
  · simp only [notifies, ↓reduceIte, stops_call, Bool.and_true]
    by_cases same : w.kernel = kernel
    · subst same
      by_cases set : s.callback w.kernel = true <;> simp [set, stops]
    · simp [same, stops]
  · simp [notifies, stops]

theorem leave_rest (s : Tasks) (w : Wait) (others : List Wait) (kernel : Nat) :
    (s.leave others w).callback = s.callback ∧ (s.leave others w).running = s.running ∧
      (s.leave others w).regs = s.regs ∧ (s.leave others w).waits = others ∧
        (s.leave others w).starts kernel = s.starts kernel := by
  rw [leave]
  by_cases notifies : w.notifies = true
  · rw [if_pos notifies]
    exact ⟨callback_call, running_call, regs_call, waits_call, starts_call⟩
  · rw [if_neg notifies]
    exact ⟨rfl, rfl, rfl, rfl, rfl⟩

/-- A notification that was due is not due again. -/
theorem due_leave {others : List Wait} (place : w.point = none)
    (taken : s.holding kernel = others.countP (·.holds kernel) + (w.holds kernel).toNat) :
    (s.leave others w).due kernel ≤ s.due kernel ∧
      (s.callback kernel = true → (s.leave others w).due kernel = s.due kernel) := by
  obtain ⟨_, running, regs, waits, _⟩ := leave_rest s w others kernel
  rw [due, due, stops_leave place, running, regs, holding, waits, taken]
  constructor
  · split <;> omega
  · intro set
    rw [if_pos set]
    omega

theorem advance_cases (run : s.advance thread = some s') :
    ∃ w, s.waits[thread]? = some w ∧
      ((∃ p, w.point = some p ∧ s' = s.poll (s.waits.eraseIdx thread) w p) ∨
        w.point = none ∧ s' = s.leave (s.waits.eraseIdx thread) w) := by
  obtain ⟨w, found, run⟩ := Option.bind_eq_some_iff.mp run
  refine ⟨w, found, ?_⟩
  split at run
  · next p place =>
    cases run
    exact .inl ⟨p, place, rfl⟩
  · next place =>
    cases run
    exact .inr ⟨place, rfl⟩

theorem advance_quieter (sound : ∀ w ∈ s.waits, w.Sound) (run : s.advance thread = some s') :
    Quieter s s' := by
  obtain ⟨w, found, ⟨p, place, rfl⟩ | ⟨place, rfl⟩⟩ := advance_cases run
  · have mine := sound w (List.mem_of_getElem? found)
    constructor
    · rfl
    · exact fun _ => rfl
    · exact fun kernel => due_poll mine place (holding_take found)
    · exact fun _ _ => ⟨Nat.le_refl _, rfl⟩
    · intro _
      exact List.forall_mem_cons.mpr ⟨Wait.move_sound mine, mem_of_eraseIdx sound⟩
  · constructor
    · exact (leave_rest s w _ 0).1
    · exact fun kernel => (leave_rest s w _ kernel).2.2.2.2
    · exact fun kernel => (due_leave place (holding_take found)).1
    · intro kernel unset
      rw [(leave_rest s w _ kernel).2.1, stops_leave place, unset]
      exact ⟨Nat.le_refl _, rfl⟩
    · intro _
      rw [(leave_rest s w _ 0).2.2.2.1]
      exact mem_of_eraseIdx sound

theorem step_quieter (sound : ∀ w ∈ s.waits, w.Sound) (quiet : m.quiet = true) (run : s.step m = some s') :
    Quieter s s' := by
  cases m with
  | startKernel kernel => cases quiet
  | writeSynchronization kernel value => cases quiet
  | complete kernel => exact complete_quieter run
  | wait kernel =>
    cases run
    apply wait_quieter
    · exact fun _ => ⟨rfl, by simp⟩
    · intro other
      simp [Wait.holds]
  | waitState kernel state =>
    cases run
    apply wait_quieter
    · exact fun notifies => nomatch notifies
    · intro other
      simp [Wait.holds]
  | advance thread => exact advance_quieter sound run

end Tasks

end Due

section Balance

namespace Tasks

variable {s s' : Tasks} {m : Move} {moves quiet : List Move} {kernel other value : Nat}

/-- What is due for a kernel that has been started has been started; a kernel that has not been is
    not running. -/
structure Sound (s : Tasks) : Prop where
  waits : ∀ w ∈ s.waits, w.Sound
  due : ∀ kernel, s.callback kernel = true → s.due kernel ≤ s.starts kernel
  idle : ∀ kernel, s.callback kernel = false →
    s.running kernel = 0 ∧ s.stops kernel = 0 ∧ s.starts kernel = 0

theorem start_sound (values : Nat → Nat) : (start values).Sound where
  waits w member := by cases member
  due kernel set := by cases set
  idle kernel _ := ⟨rfl, rfl, rfl⟩

theorem Sound.balanced (sound : s.Sound) : s.Balanced := by
  intro kernel
  rcases set : s.callback kernel with _ | _
  · rw [(sound.idle kernel set).2.1]
    exact Nat.zero_le _
  · have due := sound.due kernel set
    rw [Tasks.due] at due
    omega

theorem Sound.quieter (sound : s.Sound) (quieter : Quieter s s') : s'.Sound where
  waits := quieter.waits sound.waits
  due kernel set := by
    rw [quieter.starts]
    rw [quieter.callback] at set
    exact Nat.le_trans (quieter.due kernel) (sound.due kernel set)
  idle kernel unset := by
    rw [quieter.callback] at unset
    obtain ⟨running, stops, starts⟩ := sound.idle kernel unset
    obtain ⟨running', stops'⟩ := quieter.idle kernel unset
    rw [quieter.starts]
    omega

theorem write_rest (s : Tasks) (kernel value other : Nat) : (s.write kernel value).callback = s.callback ∧
    (s.write kernel value).running = s.running ∧
    (s.write kernel value).regs = Function.update s.regs kernel (uint32 value) ∧
    (s.write kernel value).waits = s.waits ∧ (s.write kernel value).starts other = s.starts other := by
  rw [write]
  by_cases read : uint32 value = MangoEventStatus.READ.value
  · rw [if_pos read]
    exact ⟨callback_call, running_call, regs_call, waits_call, starts_call⟩
  · rw [if_neg read]
    exact ⟨rfl, rfl, rfl, rfl, rfl⟩

theorem stops_write : (s.write kernel value).stops other = s.stops other +
    if uint32 value = MangoEventStatus.READ.value ∧ kernel = other ∧ s.callback kernel = true then 1 else 0 := by
  rw [write]
  by_cases read : uint32 value = MangoEventStatus.READ.value
  · rw [if_pos read, stops_call]
    simp only [read, true_and]
    rfl
  · simp [read, stops, eventWrite]

theorem due_write_other (apart : kernel ≠ other) : (s.write kernel value).due other = s.due other := by
  obtain ⟨_, running, regs, waits, _⟩ := write_rest s kernel value other
  rw [due, due, stops_write, running, regs, holding, waits, Function.update_of_ne apart.symm, holding]
  simp [apart]

theorem due_write_self : (s.write kernel value).due kernel =
    s.stops kernel + s.running kernel + s.holding kernel +
      if uint32 value = 1 then (if s.callback kernel = true then 2 else 1) else 0 := by
  obtain ⟨_, running, regs, waits, _⟩ := write_rest s kernel value kernel
  rw [due, stops_write, running, regs, holding, waits, Function.update_self, posted, uint32_twice, holding]
  simp only [MangoEventStatus.value, true_and]
  by_cases one : uint32 value = 1
  · by_cases set : s.callback kernel = true
    · simp only [one, set, and_self, ↓reduceIte]
      omega
    · simp [one, set]
  · simp [one]

/-- Only a 1 can be more than what was due, and then there are two more. -/
theorem Sound.write (sound : s.Sound) (admits : s.Admits (.writeSynchronization kernel value)) :
    (s.write kernel value).Sound := by
  obtain ⟨callback, running, _, waits, _⟩ := write_rest s kernel value 0
  constructor
  · rw [waits]
    exact sound.waits
  · intro other set
    rw [callback] at set
    rw [(write_rest s kernel value other).2.2.2.2]
    have before := sound.due other set
    by_cases same : kernel = other
    · subst same
      rw [due_write_self, if_pos set]
      rw [Tasks.due] at before
      by_cases one : uint32 value = 1
      · rw [if_pos one]
        exact admits one set
      · rw [if_neg one]
        omega
    · rwa [due_write_other same]
  · intro other unset
    rw [callback] at unset
    obtain ⟨idle, silent, unstarted⟩ := sound.idle other unset
    have mine : ¬ (uint32 value = MangoEventStatus.READ.value ∧ kernel = other ∧ s.callback kernel = true) := by
      rintro ⟨_, rfl, set⟩
      rw [unset] at set
      cases set
    rw [running, stops_write, silent, if_neg mine, (write_rest s kernel value other).2.2.2.2]
    exact ⟨idle, rfl, unstarted⟩

theorem start_rest (s : Tasks) (kernel other : Nat) :
    (s.startKernel kernel).callback = Function.update s.callback kernel true ∧
    (s.startKernel kernel).running = Function.update s.running kernel (s.running kernel + 1) ∧
    (s.startKernel kernel).regs = Function.update s.regs kernel 0 ∧
    (s.startKernel kernel).waits = s.waits ∧ (s.startKernel kernel).stops other = s.stops other ∧
    (s.startKernel kernel).starts other = s.starts other + if kernel = other then 1 else 0 := by
  have silent : (s.notify (.taskStart kernel)).write kernel 0 =
      (s.notify (.taskStart kernel)).eventWrite kernel 0 := if_neg (by decide)
  rw [startKernel, silent]
  refine ⟨rfl, rfl, rfl, rfl, ?_, ?_⟩
  · simp [setCallback, hnRunKernel, eventWrite, notify, stops]
  · simp [setCallback, hnRunKernel, eventWrite, notify, starts, List.count_cons]

theorem due_start_self : (s.startKernel kernel).due kernel =
    s.stops kernel + (s.running kernel + 1) + s.holding kernel := by
  obtain ⟨_, running, regs, waits, stops, _⟩ := start_rest s kernel kernel
  rw [due, stops, running, regs, holding, waits, Function.update_self, Function.update_self, holding]
  rfl

theorem due_start_other (apart : kernel ≠ other) : (s.startKernel kernel).due other = s.due other := by
  obtain ⟨_, running, regs, waits, stops, _⟩ := start_rest s kernel other
  rw [due, stops, running, regs, holding, waits, Function.update_of_ne apart.symm,
    Function.update_of_ne apart.symm, due, holding]

theorem Sound.startKernel (sound : s.Sound) (admits : s.Admits (.startKernel kernel)) :
    (s.startKernel kernel).Sound := by
  obtain ⟨callback, running, _, waits, _, _⟩ := start_rest s kernel 0
  constructor
  · rw [waits]
    exact sound.waits
  · intro other set
    rw [(start_rest s kernel other).2.2.2.2.2]
    by_cases same : kernel = other
    · subst same
      rw [due_start_self, if_pos rfl]
      rcases before : s.callback kernel with _ | _
      · obtain ⟨idle, silent, _⟩ := sound.idle kernel before
        have free : s.holding kernel = 0 := admits before
        omega
      · have due := sound.due kernel before
        rw [Tasks.due] at due
        omega
    · rw [callback, Function.update_of_ne (Ne.symm same)] at set
      rw [due_start_other same, if_neg same]
      exact sound.due other set
  · intro other unset
    have apart : other ≠ kernel := by
      rintro rfl
      rw [callback, Function.update_self] at unset
      cases unset
    rw [callback, Function.update_of_ne apart] at unset
    obtain ⟨_, _, _, _, stops, starts⟩ := start_rest s kernel other
    rw [running, Function.update_of_ne apart, stops, starts, if_neg apart.symm]
    exact sound.idle other unset

theorem Sound.step (sound : s.Sound) (admits : s.Admits m) (run : s.step m = some s') : s'.Sound := by
  by_cases quiet : m.quiet = true
  · exact sound.quieter (step_quieter sound.waits quiet run)
  · cases m with
    | startKernel kernel =>
      cases run
      exact sound.startKernel admits
    | writeSynchronization kernel value =>
      cases run
      exact sound.write admits
    | complete kernel => exact absurd rfl quiet
    | wait kernel => exact absurd rfl quiet
    | waitState kernel state => exact absurd rfl quiet
    | advance thread => exact absurd rfl quiet

/-- A step that is not admitted leaves more due than has been started. -/
theorem overdue_of_refused (sound : s.Sound) (refused : ¬ s.Admits m) (run : s.step m = some s') :
    (∀ w ∈ s'.waits, w.Sound) ∧ ∃ kernel, s'.callback kernel = true ∧ s'.starts kernel < s'.due kernel := by
  cases m with
  | startKernel kernel =>
    cases run
    obtain ⟨callback, _, _, waits, _, starts⟩ := start_rest s kernel kernel
    simp only [Admits, Classical.not_imp] at refused
    obtain ⟨unset, taken⟩ := refused
    obtain ⟨_, _, unstarted⟩ := sound.idle kernel unset
    rw [waits]
    refine ⟨sound.waits, kernel, ?_⟩
    rw [callback, Function.update_self, starts, if_pos rfl, due_start_self]
    exact ⟨rfl, by omega⟩
  | writeSynchronization kernel value =>
    cases run
    obtain ⟨callback, _, _, waits, starts⟩ := write_rest s kernel value kernel
    simp only [Admits, Classical.not_imp, not_le] at refused
    obtain ⟨one, set, few⟩ := refused
    rw [waits]
    refine ⟨sound.waits, kernel, ?_⟩
    rw [callback, starts, due_write_self, if_pos (show uint32 value = 1 from one), if_pos set]
    exact ⟨set, few⟩
  | complete kernel => exact absurd trivial refused
  | wait kernel => exact absurd trivial refused
  | waitState kernel state => exact absurd trivial refused
  | advance thread => exact absurd trivial refused

/-- What completions and waits can make of a state. -/
structure Reaches (s s' : Tasks) (kernel : Nat) : Prop where
  quiet : ∃ quiet : List Move, (∀ m ∈ quiet, m.quiet = true) ∧ quiet.foldlM Tasks.step s = some s'
  callback : s'.callback = s.callback
  starts : s'.starts kernel = s.starts kernel
  due : s'.due kernel = s.due kernel

theorem Reaches.trans {t : Tasks} (first : Reaches s t kernel) (rest : Reaches t s' kernel) :
    Reaches s s' kernel where
  quiet := by
    obtain ⟨quiet, each, run⟩ := first.quiet
    obtain ⟨quiet', each', run'⟩ := rest.quiet
    refine ⟨quiet ++ quiet', ?_, ?_⟩
    · intro m member
      exact (List.mem_append.mp member).elim (each m) (each' m)
    · rw [List.foldlM_append, run]
      exact run'
  callback := rest.callback.trans first.callback
  starts := rest.starts.trans first.starts
  due := rest.due.trans first.due

/-- A wait that finds a 1 notifies. -/
theorem reaches_fired (set : s.callback kernel = true) (one : uint32 (s.regs kernel) = 1) :
    ∃ s', Reaches s s' kernel ∧ s'.stops kernel = s.stops kernel + 1 := by
  let s' : Tasks := { s with regs := Function.update s.regs kernel 0 }
  have run : [Move.wait kernel, .advance 0, .advance 0].foldlM Tasks.step s = some (s'.call kernel) := by
    have found : WaitPoint.poll.next 1 (uint32 (s.regs kernel)) = none := by
      rw [one]
      rfl
    simp only [List.foldlM_cons, List.foldlM_nil, step, Option.bind_eq_bind, Option.bind_some, advance,
      List.getElem?_cons_zero, List.eraseIdx_zero, List.tail_cons, poll, termExec, WaitPoint.op, found, leave]
    rfl
  have stops : (s'.call kernel).stops kernel = s.stops kernel + 1 := by
    rw [stops_call, if_pos ⟨rfl, set⟩]
    rfl
  refine ⟨s'.call kernel, ⟨⟨_, by simp [Move.quiet], run⟩, callback_call, starts_call, ?_⟩, stops⟩
  have emptied : posted (s'.regs kernel) = 0 := by
    rw [show s'.regs kernel = 0 from Function.update_self ..]
    rfl
  rw [due, stops, running_call, regs_call, emptied, holding, waits_call, due, posted, if_pos one]
  change s.stops kernel + 1 + s.running kernel + s.holding kernel + 0 = _
  omega

theorem reaches_one {m : Move} (quiet : m.quiet = true) (run : s.step m = some s')
    (callback : s'.callback = s.callback) (starts : s'.starts kernel = s.starts kernel)
    (due : s'.due kernel = s.due kernel) : Reaches s s' kernel := by
  refine ⟨⟨[m], by simpa using quiet, ?_⟩, callback, starts, due⟩
  rw [List.foldlM_cons, run]
  rfl

/-- The device completes a launch. -/
theorem reaches_completed (void : uint32 (s.regs kernel) ≠ 1) (launched : s.running kernel ≠ 0) :
    ∃ s', Reaches s s' kernel ∧ s'.stops kernel = s.stops kernel ∧ uint32 (s'.regs kernel) = 1 := by
  let s' : Tasks := { s with
    regs := Function.update s.regs kernel 1
    running := Function.update s.running kernel (s.running kernel - 1) }
  have run : s.step (.complete kernel) = some s' := if_neg launched
  have one : s'.regs kernel = 1 := Function.update_self ..
  refine ⟨s', reaches_one rfl run rfl rfl ?_, rfl, by rw [one]; rfl⟩
  have fewer : s'.running kernel = s.running kernel - 1 := Function.update_self ..
  rw [due, due, one, fewer, show posted 1 = 1 from rfl, posted, if_neg void]
  change s.stops kernel + (s.running kernel - 1) + s.holding kernel + 1 = _
  omega

/-- A thread that has taken a 1 puts it back. -/
theorem reaches_put {w : Wait} {thread : Nat} (void : uint32 (s.regs kernel) ≠ 1)
    (found : s.waits[thread]? = some w) (mine : w.kernel = kernel) (sound : w.Sound)
    (place : w.point = some (.back value)) (one : uint32 value = 1) :
    ∃ s', Reaches s s' kernel ∧ s'.stops kernel = s.stops kernel ∧ uint32 (s'.regs kernel) = 1 := by
  let s' := s.poll (s.waits.eraseIdx thread) w (.back value)
  have run : s.step (.advance thread) = some s' := by
    simp only [step, advance, found, Option.bind_eq_bind, Option.bind_some, place]
    rfl
  have now : s'.regs kernel = 1 := by
    rw [← one, ← mine]
    exact Function.update_self ..
  have taken : s.holding kernel = (s.waits.eraseIdx thread).countP (·.holds kernel) + 1 := by
    rw [holding_take found]
    simp [Wait.holds, mine, place, one]
  have put : s'.holding kernel = (s.waits.eraseIdx thread).countP (·.holds kernel) := by
    have moved : (w.move (.back value) 0).holds kernel = false := Wait.put_holds sound place
    have all : s'.holding kernel = _ := holding_cons (w := w.move (.back value) 0) rfl
    rw [all, moved]
    rfl
  refine ⟨s', reaches_one rfl run rfl rfl ?_, rfl, by rw [now]; rfl⟩
  rw [due, due, now, put, taken, show posted 1 = 1 from rfl, posted, if_neg void]
  change s.stops kernel + s.running kernel + _ + 1 = _
  omega

/-- A thread that has taken a 1 notifies. -/
theorem reaches_notified {w : Wait} {thread : Nat} (set : s.callback kernel = true)
    (found : s.waits[thread]? = some w) (holds : w.holds kernel = true) (place : w.point = none) :
    ∃ s', Reaches s s' kernel ∧ s'.stops kernel = s.stops kernel + 1 := by
  have run : s.step (.advance thread) = some (s.leave (s.waits.eraseIdx thread) w) := by
    simp only [step, advance, found, Option.bind_eq_bind, Option.bind_some, place]
    rfl
  obtain ⟨callback, _, _, _, starts⟩ := leave_rest s w (s.waits.eraseIdx thread) kernel
  have due := (due_leave place (holding_take found)).2 set
  refine ⟨_, reaches_one rfl run callback starts due, ?_⟩
  rw [stops_leave place, if_pos set, holds]
  rfl

/-- One more notification than before, as long as there are some due. -/
theorem reaches_next (sound : ∀ w ∈ s.waits, w.Sound) (set : s.callback kernel = true)
    (more : s.stops kernel < s.due kernel) :
    ∃ s', Reaches s s' kernel ∧ s'.stops kernel = s.stops kernel + 1 := by
  have posted_next : ∀ t, Reaches s t kernel ∧ t.stops kernel = s.stops kernel ∧ uint32 (t.regs kernel) = 1 →
      ∃ s', Reaches s s' kernel ∧ s'.stops kernel = s.stops kernel + 1 := by
    rintro t ⟨first, same, one⟩
    obtain ⟨s', rest, next⟩ := reaches_fired (first.callback ▸ set) one
    exact ⟨s', first.trans rest, by rw [next, same]⟩
  by_cases one : uint32 (s.regs kernel) = 1
  · exact reaches_fired set one
  by_cases taken : s.holding kernel = 0
  · have launched : s.running kernel ≠ 0 := by
      rw [due, taken, posted, if_neg one] at more
      omega
    obtain ⟨t, completed⟩ := reaches_completed one launched
    exact posted_next t completed
  · obtain ⟨w, member, holds⟩ := List.countP_pos_iff.mp (Nat.pos_of_ne_zero taken)
    obtain ⟨thread, found⟩ := List.mem_iff_getElem?.mp member
    have mine : w.kernel = kernel := by
      by_contra apart
      rw [Wait.holds_other apart] at holds
      cases holds
    rcases place : w.point with _ | p
    · exact reaches_notified set found holds place
    · cases p with
      | poll => simp [Wait.holds, place] at holds
      | back value =>
        have held : uint32 value = 1 := by simpa [Wait.holds, place, mine] using holds
        obtain ⟨t, put⟩ := reaches_put one found mine (sound w member) place held
        exact posted_next t put

theorem quiet_waits (each : ∀ m ∈ quiet, m.quiet = true) (sound : ∀ w ∈ s.waits, w.Sound)
    (run : quiet.foldlM Tasks.step s = some s') : ∀ w ∈ s'.waits, w.Sound :=
  Fallible.foldlM_invariant (motive := fun _ t => ∀ w ∈ t.waits, w.Sound)
    (fun _ m _ _ within sound one => (step_quieter sound (each m (within.subset (by simp))) one).waits sound)
    sound run

theorem Sound.quiet_run (sound : s.Sound) (each : ∀ m ∈ quiet, m.quiet = true)
    (run : quiet.foldlM Tasks.step s = some s') : s'.Sound :=
  Fallible.foldlM_invariant (motive := fun _ t => t.Sound)
    (fun _ m _ _ within sound one =>
      sound.quieter (step_quieter sound.waits (each m (within.subset (by simp))) one))
    sound run

theorem reaches_due (sound : ∀ w ∈ s.waits, w.Sound) (set : s.callback kernel = true) :
    ∃ s', Reaches s s' kernel ∧ s'.stops kernel = s.due kernel := by
  induction left : s.due kernel - s.stops kernel generalizing s with
  | zero =>
    have all : s.stops kernel = s.due kernel := by
      rw [due] at left ⊢
      omega
    exact ⟨s, ⟨⟨[], by simp, rfl⟩, rfl, rfl, rfl⟩, all⟩
  | succ n ih =>
    obtain ⟨t, first, next⟩ := reaches_next sound set (by omega)
    obtain ⟨quiet, each, run⟩ := first.quiet
    have fewer : t.due kernel - t.stops kernel = n := by
      rw [first.due, next]
      omega
    obtain ⟨s', rest, all⟩ := ih (quiet_waits each sound run) (first.callback ▸ set) fewer
    exact ⟨s', first.trans rest, by rw [all, first.due]⟩

theorem step_of_refused (refused : ¬ s.Admits m) : ∃ s', s.step m = some s' := by
  cases m with
  | startKernel kernel => exact ⟨_, rfl⟩
  | writeSynchronization kernel value => exact ⟨_, rfl⟩
  | complete kernel => exact absurd trivial refused
  | wait kernel => exact ⟨_, rfl⟩
  | waitState kernel state => exact ⟨_, rfl⟩
  | advance thread => exact absurd trivial refused

theorem admits_of_stays {rest : List Move} (sound : s.Sound) (stays : StaysBalanced (m :: rest) s) :
    s.Admits m := by
  by_contra refused
  obtain ⟨s', run⟩ := step_of_refused refused
  obtain ⟨waits, kernel, set, reached⟩ := overdue_of_refused sound refused run
  obtain ⟨last, reaches, all⟩ := reaches_due waits set
  obtain ⟨quiet, each, more⟩ := reaches.quiet
  have whole : ([m] ++ quiet).foldlM Tasks.step s = some last := by
    rw [List.foldlM_append, List.foldlM_cons, run]
    exact more
  have balanced := stays [m] rest quiet last rfl each whole kernel
  rw [all, reaches.starts] at balanced
  omega

theorem stays_balanced_iff (sound : s.Sound) : StaysBalanced moves s ↔ Admitted moves s := by
  induction moves generalizing s with
  | nil =>
    refine iff_of_true ?_ trivial
    intro done rest quiet s' none_done each run
    obtain ⟨rfl, rfl⟩ := List.append_eq_nil_iff.mp none_done.symm
    exact (sound.quiet_run each run).balanced
  | cons m rest ih =>
    constructor
    · intro stays
      have admits := admits_of_stays sound stays
      refine ⟨admits, ?_⟩
      intro s' one
      apply (ih (sound.step admits one)).mp
      intro done later quiet last split each run
      apply stays (m :: done) later quiet last (by rw [split]; rfl) each
      rw [List.cons_append, List.foldlM_cons, one]
      exact run
    · rintro ⟨admits, later⟩ done others quiet last split each run
      rcases done with _ | ⟨first, done⟩
      · exact (sound.quiet_run each run).balanced
      · obtain ⟨same, tail⟩ := List.cons.inj split
        subst same
        obtain ⟨s', one, run⟩ := Option.bind_eq_some_iff.mp run
        exact (ih (sound.step admits one)).mpr (later s' one) done others quiet last tail each run

end Tasks

/-- The notifications of a run, and of all that completions and waits make of its states, are balanced
    if and only if the host does not write READ to the event of a kernel that it has started, unless
    two more starts are not answered, nor starts a kernel first while a wait has taken a 1. -/
theorem notifications_balanced_iff (values : Nat → Nat) (moves : List Move) :
    StaysBalanced moves (.start values) ↔ Tasks.Admitted moves (.start values) :=
  Tasks.stays_balanced_iff (Tasks.start_sound values)

/-- The host writes READ to the event of a running kernel, and the kernel is waited for. -/
def earlySignal : List Move :=
  [.startKernel 1, .writeSynchronization 1 1, .complete 1, .wait 1, .advance 0, .advance 0]

theorem stopped_twice : ∃ s, earlySignal.foldlM Tasks.step (.start fun _ => 0) = some s ∧
    s.starts 1 = 1 ∧ s.stops 1 = 2 ∧ ¬ s.Balanced := by
  have counts : (earlySignal.foldlM Tasks.step (.start fun _ => 0)).map (fun s => (s.starts 1, s.stops 1)) =
    some (1, 2) := by decide
  obtain ⟨s, run, both⟩ := Option.map_eq_some_iff.mp counts
  rw [Prod.mk.injEq] at both
  obtain ⟨starts, stops⟩ := both
  refine ⟨s, run, starts, stops, ?_⟩
  intro balanced
  have one := balanced 1
  omega

end Balance

end MangoModel.Host
