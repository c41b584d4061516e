import LibMango.Group.Kernel
import LibMango.Interleave.Monitor

namespace MangoModel

open Interleave Device

section Model

/-- How a party gets hold of the value of an event: kernel code through `mango_lock` or `mango_wait`, a host
    thread through `Event::wait_state`. -/
inductive Entry where
  | lock
  | wait (state : Nat)
  | waitState (state : Nat)
  deriving DecidableEq, Repr

namespace Entry

variable {ρ : Type} (e : ρ)

def admits : Entry → Nat → Bool
  | .lock, _ => true
  | .wait state, value | .waitState state, value => value == state

/-- A lock waits for no state. -/
def awaited : Entry → Nat
  | .lock => 0
  | .wait state | .waitState state => state

def enter : Entry → Text ρ Nat
  | .lock => mangoLock e
  | .wait state => do
    mangoWait e state
    return state
  | .waitState state => do
    Host.eventWaitState e state
    return state

/-- Kernel code writes an event with `mango_write_synchronization`, the host with `Event::write`. -/
def leave : Entry → Nat → Text ρ Unit
  | .lock, value | .wait _, value => mangoWriteSynchronization e value
  | .waitState _, value => Host.eventWrite e value

end Entry

/-- What the register of an event that nobody has can hold. -/
def Filled (value : Nat) : Prop := 0 < value ∧ value < 2^32

instance : DecidablePred Filled := fun _ => inferInstanceAs (Decidable (_ ∧ _))

/-- Work on the memory between the entry and the write that gives the event back. -/
structure Section where
  entry : Entry
  work : Nat → Prog MemoryOp Nat
  formed : ∀ value, (work value).Formed Filled

def MemoryOp.op {ρ : Type} : MemoryOp → Op ρ
  | .loadByte addr => .loadByte addr
  | .storeByte addr byte => .storeByte addr byte

namespace Section

def text (t : Section) : Text Unit Unit := do
  let value ← t.entry.enter ()
  let value ← Code.run ((t.work value).mapOp MemoryOp.op)
  t.entry.leave () value

def region (t : Section) : Region MemoryOp Nat := ⟨t.entry.admits, t.work⟩

end Section

variable {ι : Type}

/-- Host threads and tasks that share an event, and memory that they only work on between taking the event's
    value and giving one back. -/
structure Sharing (ι : Type) where
  value : Nat
  filled : Filled value
  memory : Nat → Nat
  calls : ι → List Section

abbrev SharingThreads (ι : Type) : Type := Threads ι (Op Unit) Nat (Shared ι Unit)

namespace Sharing

variable (s : Sharing ι)

def start : SharingThreads ι where
  proc i := .start ((s.calls i).map fun t => t.text.call)
  shared := .start (fun _ => s.value) s.memory (fun _ => 0)

def monitor : Monitor ι MemoryOp Nat (Nat → Nat) where
  value := s.value
  cells := s.memory
  left i := (s.calls i).map Section.region

variable [DecidableEq ι]

abbrev Reachable (c : SharingThreads ι) : Prop := World.Reachable (threadAct (exec overwrite)) s.start c

end Sharing

/-- The party's next step is one for which it has to have the event's value. -/
def Holds (t : Thread (Op Unit) Nat) : Prop :=
  ∃ a, t.running.nextOp = some a ∧ a ≠ .readSynchronization ()

/-- Nobody has the event's value, and the register and the memory are as in the monitor. -/
structure AtRest (m : Monitor ι MemoryOp Nat (Nat → Nat)) (c : SharingThreads ι) : Prop where
  free : ∀ i, ¬ Holds (c.proc i)
  value : c.shared.regs.value () = m.value
  memory : c.shared.memory = m.cells

end Model

section Texts

variable {σ : Type} (t : Section) (value : Nat)

/-- What is left of a section once it has begun. -/
def Section.rest (p : Prog MemoryOp Nat) : Prog (Op Unit) Nat :=
  (p.mapOp MemoryOp.op).bind fun value => .op (.writeSynchronization () value) fun _ => .ret 0

theorem Section.text_eq : t.text.call = t.entry.enter () fun value => Section.rest (t.work value) := by
  obtain ⟨entry, work, formed⟩ := t
  cases entry <;> rfl

/-- What a party has to write back that has found another value than the one it waits for. -/
def Section.back : Prog (Op Unit) Nat :=
  waitBack () t.entry.awaited value fun _ => Section.rest (t.work t.entry.awaited)

theorem Section.text_step (exec : Op Unit → σ → Nat × σ) (shared : σ) :
    t.text.call.step exec shared =
      (if (exec (.readSynchronization ()) shared).1 = 0 then t.text.call
        else if t.entry.admits (exec (.readSynchronization ()) shared).1 then
          Section.rest (t.work (exec (.readSynchronization ()) shared).1)
        else t.back (exec (.readSynchronization ()) shared).1,
        (exec (.readSynchronization ()) shared).2) := by
  rw [Section.text_eq]
  obtain ⟨entry, work, formed⟩ := t
  -- the two waits have the same text
  have waits : ∀ state, (mangoWait () state fun _ => Section.rest (work state)).step exec shared =
      (if (exec (.readSynchronization ()) shared).1 = 0 then mangoWait () state fun _ => Section.rest (work state)
        else if (exec (.readSynchronization ()) shared).1 = state then
          Section.rest (work (exec (.readSynchronization ()) shared).1)
        else waitBack () state (exec (.readSynchronization ()) shared).1 fun _ => Section.rest (work state),
        (exec (.readSynchronization ()) shared).2) := fun state => by
    refine (mangoWait_step () state exec shared fun _ => Section.rest (work state)).trans (Prod.ext ?_ rfl)
    dsimp only
    split
    · rfl
    · split
      · next found => rw [found]
      · rfl
  cases entry with
  | lock =>
    simp only [Entry.enter, Entry.admits, ↓reduceIte]
    exact mangoLock_step () exec shared _
  | wait state =>
    simp only [Entry.enter, Entry.admits, beq_iff_eq]
    exact waits state
  | waitState state =>
    simp only [Entry.enter, Entry.admits, beq_iff_eq]
    exact waits state

variable {t value} in
theorem Section.back_step (refused : t.entry.admits value = false) (exec : Op Unit → σ → Nat × σ) (shared : σ) :
    (t.back value).step exec shared = (t.text.call, (exec (.writeSynchronization () value) shared).2) := by
  rw [Section.back, waitBack_step, Section.text_eq]
  obtain ⟨entry, work, formed⟩ := t
  cases entry with
  | lock => cases refused
  | wait state =>
    exact Prod.ext (if_neg (show value ≠ state by simpa [Entry.admits] using refused)) rfl
  | waitState state =>
    exact Prod.ext (if_neg (show value ≠ state by simpa [Entry.admits] using refused)) rfl

/-- The work of a section is done on the memory alone. -/
theorem Section.rest_step {ι : Type} (i : ι) {p : Prog MemoryOp Nat} (busy : p.nextOp ≠ none)
    (shared : Shared ι Unit) :
    ∃ trace, (Section.rest p).step (exec overwrite i) shared =
      (Section.rest (p.step memoryExec shared.memory).1,
        { shared with memory := (p.step memoryExec shared.memory).2, trace := trace }) := by
  obtain ⟨a, inside⟩ := Option.ne_none_iff_exists'.mp busy
  have embedded : (p.mapOp (MemoryOp.op (ρ := Unit))).nextOp ≠ none := by
    simp [Prog.mapOp_nextOp, inside]
  rw [Section.rest, Prog.bind_step embedded, Prog.mapOp_step, Prog.step_resumed inside, Prog.step_resumed inside]
  refine ⟨(i, a.op) :: shared.trace, ?_⟩
  cases a <;> rfl

theorem Section.text_nextOp : t.text.call.nextOp = some (.readSynchronization ()) := by
  obtain ⟨entry, work, formed⟩ := t
  cases entry <;> rfl

theorem Section.back_nextOp : (t.back value).nextOp = some (.writeSynchronization () value) := rfl

theorem Section.rest_nextOp {p : Prog MemoryOp Nat} (formed : p.Formed Filled) :
    ∃ a, (Section.rest p).nextOp = some a ∧ a ≠ .readSynchronization () := by
  rcases inside : p.nextOp with _ | a
  · obtain ⟨value, rfl, _⟩ := formed.ended inside
    exact ⟨_, rfl, nofun⟩
  · have embedded : (p.mapOp (MemoryOp.op (ρ := Unit))).nextOp = some a.op := by
      rw [Prog.mapOp_nextOp, inside, Option.map_some]
    refine ⟨a.op, ?_, by cases a <;> exact nofun⟩
    rw [Section.rest, Prog.bind_nextOp (by simp [embedded]), embedded]

end Texts

end MangoModel
