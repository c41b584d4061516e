import LibMango.Host.Burst
import Mathlib.Data.List.Infix

namespace MangoModel.Host

open Interleave Device

/-- A thread of the host, with what it runs and whether it has been joined. -/
structure BurstThread (ρ : Type) where
  task : Text ρ Nat
  joined : Bool

/-- What ends the process: the destructor of a thread that is still joinable, or the error of a
    second join, which no caller catches. -/
inductive Termination where
  | destroyedUnjoined
  | joinedTwice
  deriving DecidableEq, Repr

inductive FifoCall where
  | write (data : Nat → Nat) (globalSize : Nat)
  | read (globalSize : Nat)
  | wait

namespace BurstThread

variable {ρ : Type}

def destroy (t : BurstThread ρ) : Except Termination Unit :=
  if t.joined then .ok () else .error .destroyedUnjoined

def join (t : BurstThread ρ) : Except Termination (BurstThread ρ) :=
  if t.joined then .error .joinedTwice else .ok { t with joined := true }

end BurstThread

section Slot

variable {ρ : Type}

/-- The assignment destroys the thread that the event has held. -/
def setFifoTask (fifoTask : Option (BurstThread ρ)) (task : Text ρ Nat) :
    Except Termination (Option (BurstThread ρ)) := do
  match fifoTask with
  | none => pure ()
  | some thread => thread.destroy
  return some ⟨task, false⟩

/-- `Event::wait` after its `wait_state` has seen the value. -/
def joinFifoTask : Option (BurstThread ρ) → Except Termination (Option (BurstThread ρ))
  | none => .ok none
  | some thread => do
    let thread ← thread.join
    return some thread

namespace FifoCall

def perform (b : FifoBuffer ρ) (fifoTask : Option (BurstThread ρ)) :
    FifoCall → Except Termination (Option (BurstThread ρ))
  | .write data globalSize => setFifoTask fifoTask (synchWrite b data globalSize)
  | .read globalSize => setFifoTask fifoTask (synchRead b globalSize)
  | .wait => joinFifoTask fifoTask

def run (b : FifoBuffer ρ) (calls : List FifoCall) : Except Termination (Option (BurstThread ρ)) :=
  calls.foldlM (perform b) none

/-- Whether the call starts a thread. -/
def starts : FifoCall → Bool
  | .write _ _ | .read _ => true
  | .wait => false

/-- Whether the last call has started a thread. -/
def pending (done : List FifoCall) : Bool := done.getLast?.any starts

/-- A call that starts a thread does not follow another directly; a wait follows one directly, or
    no thread has been started so far. -/
def InTurn (done : List FifoCall) (c : FifoCall) : Prop :=
  if c.starts then pending done = false else pending done ∨ done.any starts = false

end FifoCall

end Slot

section Run

variable {ρ : Type} (b : FifoBuffer ρ)

/-- The slot tells whether a thread has been started and whether the last call has done it. -/
structure SlotOf (done : List FifoCall) (fifoTask : Option (BurstThread ρ)) : Prop where
  used : fifoTask.isSome = done.any FifoCall.starts
  unjoined : ∀ thread ∈ fifoTask, thread.joined = !FifoCall.pending done

variable {b} {done : List FifoCall} {c : FifoCall} {fifoTask after : Option (BurstThread ρ)}

namespace FifoCall

theorem pending_append (done : List FifoCall) (c : FifoCall) : pending (done ++ [c]) = c.starts := by
  simp [pending]

theorem used_of_pending (waiting : pending done = true) : done.any starts = true := by
  rw [pending, Option.any_eq_true] at waiting
  obtain ⟨last, found, started⟩ := waiting
  exact List.any_eq_true.mpr ⟨last, List.mem_of_getLast? found, started⟩

theorem run_append (done : List FifoCall) (c : FifoCall) :
    run b (done ++ [c]) = run b done >>= fun fifoTask => perform b fifoTask c := by
  rw [run, run, List.foldlM_append]
  simp only [List.foldlM_cons, List.foldlM_nil, bind_pure]

end FifoCall

namespace SlotOf

theorem start : SlotOf [] (none : Option (BurstThread ρ)) where
  used := rfl
  unjoined _ held := by cases held

theorem set (slot : SlotOf done fifoTask) (task : Text ρ Nat) : setFifoTask fifoTask task =
    if FifoCall.pending done then .error .destroyedUnjoined else .ok (some ⟨task, false⟩) := by
  rcases fifoTask with _ | thread
  · have rested : FifoCall.pending done = false := by
      by_contra waiting
      have used := FifoCall.used_of_pending (Bool.eq_true_of_not_eq_false waiting)
      rw [← slot.used] at used
      cases used
    rw [rested]
    rfl
  · have joined := slot.unjoined thread rfl
    cases waiting : FifoCall.pending done <;>
      · rw [waiting] at joined
        simp only [setFifoTask, BurstThread.destroy, joined]
        rfl

theorem join (slot : SlotOf done fifoTask) : joinFifoTask fifoTask =
    if FifoCall.pending done = false ∧ done.any FifoCall.starts then .error .joinedTwice
    else .ok (fifoTask.map fun thread => { thread with joined := true }) := by
  rw [← slot.used]
  rcases fifoTask with _ | thread
  · simp [joinFifoTask]
  · have joined := slot.unjoined thread rfl
    cases waiting : FifoCall.pending done <;>
      · rw [waiting] at joined
        simp only [joinFifoTask, BurstThread.join, joined]
        rfl

/-- A call in its turn succeeds, and the next one finds what it has left; any other call fails. -/
theorem perform (slot : SlotOf done fifoTask) (c : FifoCall) :
    (c.InTurn done ∧ ∃ after, c.perform b fifoTask = .ok after ∧ SlotOf (done ++ [c]) after) ∨
    (¬ c.InTurn done ∧ ∃ e, c.perform b fifoTask = .error e) := by
  have transfer : ∀ task, c.starts = true → c.perform b fifoTask = setFifoTask fifoTask task →
      (c.InTurn done ∧ ∃ after, c.perform b fifoTask = .ok after ∧ SlotOf (done ++ [c]) after) ∨
      (¬ c.InTurn done ∧ ∃ e, c.perform b fifoTask = .error e) := by
    intro task starts performed
    rw [performed, slot.set task, FifoCall.InTurn, if_pos starts]
    cases waiting : FifoCall.pending done with
    | true => exact .inr ⟨by simp, _, rfl⟩
    | false =>
      refine .inl ⟨rfl, _, rfl, ?_, ?_⟩
      · simp [starts]
      · rintro thread ⟨⟩
        rw [FifoCall.pending_append, starts]
        rfl
  cases c with
  | write data globalSize => exact transfer _ rfl rfl
  | read globalSize => exact transfer _ rfl rfl
  | wait =>
    rw [FifoCall.perform, slot.join, FifoCall.InTurn]
    by_cases again : FifoCall.pending done = false ∧ done.any FifoCall.starts
    · exact .inr ⟨by simp [FifoCall.starts, again], _, if_pos again⟩
    · refine .inl ⟨?_, _, if_neg again, ?_, ?_⟩
      · simpa [FifoCall.starts, or_iff_not_imp_left] using again
      · simp [slot.used, FifoCall.starts]
      · intro thread held
        obtain ⟨before, _, rfl⟩ := Option.map_eq_some_iff.mp held
        rw [FifoCall.pending_append]
        rfl

end SlotOf

namespace FifoCall

/-- Every call of a sequence comes in its turn. -/
def InTurns (calls : List FifoCall) : Prop := ∀ done c, done ++ [c] <+: calls → c.InTurn done

theorem inTurns_append : InTurns (done ++ [c]) ↔ InTurns done ∧ c.InTurn done := by
  constructor
  · intro turns
    constructor
    · intro early c' within
      exact turns early c' (within.trans (List.prefix_append _ _))
    · exact turns done c (List.prefix_refl _)
  · rintro ⟨turns, last⟩ early c' within
    rcases List.prefix_concat_iff.mp within with whole | within
    · obtain ⟨rfl, single⟩ := List.append_inj' whole rfl
      obtain rfl := List.singleton_inj.mp single
      exact last
    · exact turns early c' within

/-- A sequence of calls runs to its end, and leaves the slot it should, or it is out of turn and fails. -/
theorem run_cases (b : FifoBuffer ρ) (calls : List FifoCall) :
    (InTurns calls ∧ ∃ fifoTask, run b calls = .ok fifoTask ∧ SlotOf calls fifoTask) ∨
    (¬ InTurns calls ∧ ∃ e, run b calls = .error e) := by
  induction calls using List.reverseRecOn with
  | nil =>
    left
    constructor
    · intro done c within
      simp at within
    · exact ⟨none, rfl, SlotOf.start⟩
  | append_singleton done c ih =>
    rw [inTurns_append, run_append]
    rcases ih with ⟨turns, fifoTask, ran, slot⟩ | ⟨late, e, failed⟩
    · rw [ran]
      rcases slot.perform c with ⟨turn, after, performed, slot⟩ | ⟨late, e, failed⟩
      · exact .inl ⟨⟨turns, turn⟩, after, performed, slot⟩
      · exact .inr ⟨fun both => late both.2, e, failed⟩
    · rw [failed]
      exact .inr ⟨fun both => late both.1, e, rfl⟩

end FifoCall

/-- No call on a FIFO buffer ends the process exactly when each call comes in its turn. -/
theorem fifo_calls_survive_iff (b : FifoBuffer ρ) (calls : List FifoCall) :
    (∃ fifoTask, FifoCall.run b calls = .ok fifoTask) ↔ FifoCall.InTurns calls := by
  rcases FifoCall.run_cases b calls with ⟨turns, fifoTask, ran, _⟩ | ⟨late, e, failed⟩
  · exact ⟨fun _ => turns, fun _ => ⟨fifoTask, ran⟩⟩
  · simp [failed, late]

/-- A second write destroys the thread of the first, and a second wait joins a thread again. -/
theorem fifo_call_out_of_turn_terminates :
    FifoCall.run (⟨(), 0, 64⟩ : FifoBuffer Unit) [.write id 64, .write id 64] = .error .destroyedUnjoined ∧
    FifoCall.run (⟨(), 0, 64⟩ : FifoBuffer Unit) [.read 64, .wait, .wait] = .error .joinedTwice :=
  ⟨rfl, rfl⟩

end Run

end MangoModel.Host
