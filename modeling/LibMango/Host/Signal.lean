import LibMango.Host.Event

namespace MangoModel.Host

open Interleave Device

/-- A host thread in `wait_state` and the peer that signals it. -/
inductive Side where
  | waiter
  | peer
  deriving DecidableEq, Repr

/-- Who writes the signal: kernel code, or the host through `Event::write`. -/
inductive Peer where
  | kernel
  | host
  deriving DecidableEq, Repr

def Peer.write : Peer → Nat → Text Unit Unit
  | .kernel, value => mangoWriteSynchronization () value
  | .host, value => eventWrite () value

def signalStart (peer : Peer) (held state : Nat) : Threads Side (Op Unit) Nat (Shared Side Unit) where
  proc
    | .waiter => .start [(eventWaitState () state).call]
    | .peer => .start [(peer.write state).call]
  shared := .start (fun _ => held) (fun _ => 0) (fun _ => 0)

/-- The peer has written the signal, the waiter has not taken it, and it is gone. -/
def SignalLost (state : Nat) (c : Threads Side (Op Unit) Nat (Shared Side Unit)) : Prop :=
  (c.proc .peer).finished = true ∧ (c.proc .waiter).finished = false ∧ c.shared.regs.value () ≠ state

def NoLostSignal (peer : Peer) (held state : Nat) : Prop :=
  ∀ c, World.Reachable (threadAct (exec overwrite)) (signalStart peer held state) c →
    ¬ SignalLost state c

section Places

abbrev SidePoint : Side → Type
  | .waiter => WaitPoint
  | .peer => Unit

abbrev SideCall (_ : Side) : Type := Unit

def sideChart (state : Nat) : ∀ i, Chart (Op Unit) Nat (SidePoint i) (SideCall i)
  | .waiter => waitChart () state
  | .peer => postChart () state

def signalPlaces (held : Nat) : Places SidePoint SideCall (Shared Side Unit) where
  proc
    | .waiter => ⟨none, [()]⟩
    | .peer => ⟨none, [()]⟩
  shared := .start (fun _ => held) (fun _ => 0) (fun _ => 0)

theorem signalStart_eq (peer : Peer) (held state : Nat) :
    signalStart peer held state = (signalPlaces held).threads (sideChart state) := by
  simp only [signalStart, signalPlaces, World.map, World.mk.injEq, and_true]
  funext i
  cases i with
  | waiter => rfl
  | peer => cases peer <;> rfl

abbrev sideAct (state : Nat) := placeAct (sideChart state) (exec (ρ := Unit) overwrite)

/-- The waiter never holds a value, and until it is done the register holds the signal or,
    before the signal is sent, the value it held at the start. -/
structure SignalKept (held state : Nat) (w : Places SidePoint SideCall (Shared Side Unit)) : Prop where
  waiter : w.proc .waiter = ⟨none, [()]⟩ ∨ w.proc .waiter = ⟨some .poll, []⟩ ∨ w.proc .waiter = ⟨none, []⟩
  peer : w.proc .peer = ⟨none, [()]⟩ ∨ w.proc .peer = ⟨some (), []⟩ ∨ w.proc .peer = ⟨none, []⟩
  present : w.proc .waiter ≠ ⟨none, []⟩ →
    w.shared.regs.value () = if w.proc .peer = ⟨none, []⟩ then state else held

theorem SignalKept.start (held state : Nat) : SignalKept held state (signalPlaces held) :=
  ⟨.inl rfl, .inl rfl, fun _ => rfl⟩

theorem SignalKept.step_waiter {held state : Nat} (quiet : held = 0 ∨ held = state)
    {w : Places SidePoint SideCall (Shared Side Unit)} (kept : SignalKept held state w) :
    SignalKept held state (w.step (sideAct state) .waiter) := by
  obtain ⟨waiter, peer, present⟩ := kept
  rcases waiter with here | here | here
  · rw [Places.step_enter here]
    exact ⟨by simp [sideChart, waitChart], by simpa using peer,
      fun _ => by simpa using present (by simp [here])⟩
  · rw [Places.step_op here]
    have found := present (by simp [here])
    have polled : w.shared.regs.value () = 0 ∨ w.shared.regs.value () = state := by
      rw [found]
      split
      · exact .inr rfl
      · exact quiet
    -- a read of 0 changes nothing, and the only other value to find is the signal
    by_cases empty : w.shared.regs.value () = 0
    · refine ⟨.inr (.inl ?_), by simpa using peer, fun _ => ?_⟩
      · simp [sideChart, waitChart, WaitPoint.next, WaitPoint.op, Device.await, Op.answer, empty]
      · simpa [sideChart, waitChart, WaitPoint.op, Op.access, Custody.apply, empty] using found
    · have signal := polled.resolve_left empty
      refine ⟨.inr (.inr ?_), by simpa using peer, fun unfinished => absurd ?_ unfinished⟩ <;>
        simp [sideChart, waitChart, WaitPoint.next, WaitPoint.op, Device.await, Op.answer, signal]
      all_goals omega
  · rw [Places.step_finished here]
    exact ⟨.inr (.inr here), peer, present⟩

theorem SignalKept.step_peer {held state : Nat} (fits : state < 2^32)
    {w : Places SidePoint SideCall (Shared Side Unit)} (kept : SignalKept held state w) :
    SignalKept held state (w.step (sideAct state) .peer) := by
  obtain ⟨waiter, peer, present⟩ := kept
  rcases peer with here | here | here
  · rw [Places.step_enter here]
    exact ⟨by simpa using waiter, by simp [sideChart, postChart],
      fun unfinished => by simpa [here, sideChart, postChart] using present (by simpa using unfinished)⟩
  · rw [Places.step_op here]
    refine ⟨by simpa using waiter, by simp [sideChart, postChart], fun _ => ?_⟩
    simp [sideChart, postChart, Op.access, Custody.apply, overwrite, uint32_of_lt fits]
  · rw [Places.step_finished here]
    exact ⟨waiter, .inr (.inr here), present⟩

theorem signalKept_reachable {held state : Nat} (quiet : held = 0 ∨ held = state)
    (fits : state < 2^32) {w : Places SidePoint SideCall (Shared Side Unit)}
    (reach : World.Reachable (sideAct state) (signalPlaces held) w) : SignalKept held state w := by
  refine reach.invariant (fun w i _ kept => ?_) (SignalKept.start held state)
  cases i with
  | waiter => exact kept.step_waiter quiet
  | peer => exact kept.step_peer fits

/-- The waiter takes the old value, the peer's write fills the empty register, and the
    waiter's write back replaces the signal. -/
theorem signal_overwritten {held state : Nat} (filled : held ≠ 0) (other : held ≠ state)
    (fits : held < 2^32) :
    let w := (signalPlaces held).run (sideAct state) [.waiter, .waiter, .peer, .peer, .waiter]
    w.proc .waiter = ⟨some .poll, []⟩ ∧ w.proc .peer = ⟨none, []⟩ ∧
      w.shared.regs.value () = held := by
  simp [signalPlaces, World.run, World.step, sideChart, Chart.step, Function.update, waitChart,
    postChart, WaitPoint.next, WaitPoint.op, Device.await, filled, other, Op.answer, Shared.start,
    Op.access, Custody.apply, Custody.take, Custody.put, overwrite, uint32_of_lt fits]

end Places

theorem signal_lost {peer : Peer} {held state : Nat} (filled : held ≠ 0) (other : held ≠ state)
    (fits : held < 2^32) : ¬ NoLostSignal peer held state := by
  intro kept
  obtain ⟨waiter, done, value⟩ := signal_overwritten filled other fits
  have reach : World.Reachable (threadAct (exec overwrite))
      ((signalPlaces held).threads (sideChart state)) _ :=
    reachable_threads ⟨[.waiter, .waiter, .peer, .peer, .waiter], rfl⟩
  rw [← signalStart_eq peer] at reach
  refine kept _ reach ⟨?_, ?_, ?_⟩
  · exact ((sideChart state .peer).thread_finished _).mpr done
  · apply Bool.eq_false_iff.mpr
    intro finished
    have ended := ((sideChart state .waiter).thread_finished _).mp finished
    rw [waiter] at ended
    cases ended
  · exact value.trans_ne other

/-- A signal that one write puts into the register survives every interleaving exactly when
    the polling thread has no other value to write back. -/
theorem no_lost_signal_iff (peer : Peer) (held state : Nat) (fits : held < 2^32)
    (fits' : state < 2^32) :
    NoLostSignal peer held state ↔ held = 0 ∨ held = state := by
  constructor
  · intro kept
    by_contra quiet
    simp only [not_or] at quiet
    exact signal_lost quiet.1 quiet.2 fits kept
  · intro quiet c reach lost
    rw [signalStart_eq] at reach
    obtain ⟨w, run, rfl⟩ := reachable_places reach
    have kept := signalKept_reachable quiet fits' run
    obtain ⟨done, waiting, gone⟩ := lost
    have sent := ((sideChart state .peer).thread_finished _).mp done
    have unfinished : w.proc .waiter ≠ ⟨none, []⟩ := fun ended =>
      Bool.eq_false_iff.mp waiting (((sideChart state .waiter).thread_finished _).mpr ended)
    exact gone (by simpa [sent] using kept.present unfinished)

theorem read_signal_lost : ¬ NoLostSignal .kernel MangoEventStatus.WRITE.value
    MangoEventStatus.READ.value :=
  signal_lost (by decide) (by decide) (by decide)

theorem no_lost_signal_read_on_empty :
    NoLostSignal .kernel MangoEventStatus.LOCK.value MangoEventStatus.READ.value :=
  (no_lost_signal_iff .kernel _ _ (by decide) (by decide)).mpr (.inl rfl)

end MangoModel.Host
