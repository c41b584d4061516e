import LibMango.Interleave.Alike
import LibMango.System.Transparency

namespace MangoModel.System

open Host Device OpenCL Interleave Layout

section Model

/-- What a step of a party does to the registers and the bytes that parties share. -/
inductive Touch (ρ : Type) where
  | take (e : ρ)
  | put (e : ρ) (value : Nat)
  | load (addr : Nat)
  | store (addr byte : Nat)
  | nothing
  deriving DecidableEq, Repr

structure Common (ρ : Type) where
  values : ρ → Nat
  cells : Nat → Nat

variable {ρ : Type}

def Touch.exec [DecidableEq ρ] : Touch ρ → Common ρ → Nat × Common ρ
  | .take e, c => (c.values e, { c with values := Function.update c.values e 0 })
  | .put e value, c => (0, { c with values := Function.update c.values e (uint32 value) })
  | .load addr, c => (c.cells addr, c)
  | .store addr byte, c => (0, { c with cells := Function.update c.cells addr byte })
  | .nothing, c => (0, c)

/-- Which events the registers are, and at which offset of which buffer a byte is. -/
structure Naming (ρ : Type) where
  event : ρ → Nat
  place : Nat → Option (Nat × Nat)

/-- How a party gets there: a host thread by the ids, a kernel by its own events and its parameters. -/
inductive Way (ρ : Type) where
  | host
  | kernel (kid : Nat) (event : ρ → DeviceEvent) (param : Nat → Nat)

def Way.command (names : Naming ρ) : Way ρ → Touch ρ → Option Command
  | .host, .take e => some (.hostReadSynchronization (names.event e))
  | .host, .put e value => some (.hostWriteSynchronization (names.event e) value)
  | .host, .load addr => (names.place addr).map fun l => .hostLoad l.1 l.2
  | .host, .store addr byte => (names.place addr).map fun l => .hostStore l.1 l.2 byte
  | .kernel kid event _, .take e => some (.deviceReadSynchronization kid (event e))
  | .kernel kid event _, .put e value => some (.deviceWriteSynchronization kid (event e) value)
  | .kernel kid _ param, .load addr => (names.place addr).map fun l => .load kid (param l.1) l.2
  | .kernel kid _ param, .store addr byte => (names.place addr).map fun l => .store kid (param l.1) l.2 byte
  | _, .nothing => none

/-- A step of a party on the platform. -/
def Platform.touch (f : Platform) (names : Naming ρ) (way : Way ρ) (a : Touch ρ) (h : Hardware) :
    Nat × Hardware :=
  match (way.command names a).bind (f.step h) with
  | some (answers, h') => (answers.headD 0, h')
  | none => (0, h)

/-- The names are of events of the application, and of places in its buffers, and of each only one. -/
structure Naming.Sound (names : Naming ρ) (p : Application) : Prop where
  events : ∀ e, ∃ f, p.event (names.event e) = some f
  distinct : Function.Injective names.event
  inside : ∀ addr l, names.place addr = some l → ∃ b, p.buffer l.1 = some b ∧ l.2 < b.size
  apart : ∀ addr addr' l, names.place addr = some l → names.place addr' = some l → addr = addr'

/-- The party's events are those of the names. -/
def Way.Leads (p : Application) (names : Naming ρ) : Way ρ → Prop
  | .host => True
  | .kernel kid event _ => ∀ e, ∃ f, p.deviceEvent kid (event e) = some f ∧ f.id = names.event e

/-- The party has a parameter for the buffer. -/
def Way.Finds (p : Application) : Way ρ → Nat → Prop
  | .host, _ => True
  | .kernel kid _ param, id => ∃ b, p.parameter kid (param id) = some b ∧ b.id = id

/-- The party has a parameter for each byte that it touches. -/
def Way.Gets (p : Application) (names : Naming ρ) (way : Way ρ) : Touch ρ → Prop
  | .load addr | .store addr _ => ∃ l, names.place addr = some l ∧ way.Finds p l.1
  | _ => True

/-- The events and bytes that have names are as the parties know them, and all others as before. -/
structure Naming.Holds (names : Naming ρ) (base s : Contents) (c : Common ρ) : Prop where
  values : ∀ e, s.values (names.event e) = c.values e
  cells : ∀ addr l, names.place addr = some l → s.arrays l.1 l.2 = c.cells addr
  otherValues : ∀ id, (∀ e, names.event e ≠ id) → s.values id = base.values id
  otherCells : ∀ l, (∀ addr, names.place addr ≠ some l) → s.arrays l.1 l.2 = base.arrays l.1 l.2

end Model

section Steps

variable {ρ : Type} {p : Application} {names : Naming ρ} {way : Way ρ} {base s : Contents} {c : Common ρ}

theorem Naming.Holds.put [DecidableEq ρ] (holds : names.Holds base s c) (sound : names.Sound p) (e : ρ)
    (value : Nat) :
    names.Holds base { s with values := Function.update s.values (names.event e) value }
      { c with values := Function.update c.values e value } where
  values e' := by
    dsimp only
    by_cases same : e' = e
    · subst same
      rw [Function.update_self, Function.update_self]
    · rw [Function.update_of_ne same, Function.update_of_ne fun ids => same (sound.distinct ids)]
      exact holds.values e'
  cells := holds.cells
  otherValues id other := by
    dsimp only
    rw [Function.update_of_ne (other e).symm]
    exact holds.otherValues id other
  otherCells := holds.otherCells

theorem put_get {arrays : Nat → Nat → Nat} {id j byte : Nat} (l : Nat × Nat) :
    Windows.put arrays id j byte l.1 l.2 = if l = (id, j) then byte else arrays l.1 l.2 := by
  obtain ⟨id', j'⟩ := l
  by_cases same : id' = id
  · subst same
    by_cases here : j' = j <;> simp [Windows.put, here]
  · simp [Windows.put, same]

theorem Naming.Holds.store (holds : names.Holds base s c) (sound : names.Sound p) {addr : Nat} {l : Nat × Nat}
    (place : names.place addr = some l) (byte : Nat) :
    names.Holds base { s with arrays := Windows.put s.arrays l.1 l.2 byte }
      { c with cells := Function.update c.cells addr byte } where
  values := holds.values
  cells addr' l' place' := by
    dsimp only
    by_cases same : addr' = addr
    · subst same
      obtain rfl := Option.some.inj (place.symm.trans place')
      rw [put_get, if_pos rfl, Function.update_self]
    · have other : l' ≠ l := by
        rintro rfl
        exact same (sound.apart addr' addr l' place' place)
      rw [put_get, if_neg other, Function.update_of_ne same]
      exact holds.cells addr' l' place'
  otherValues := holds.otherValues
  otherCells l' other := by
    have apart : l' ≠ l := by
      rintro rfl
      exact other addr place
    dsimp only
    rw [put_get, if_neg apart]
    exact holds.otherCells l' other

theorem passed_of_finds {kid j id : Nat} {b : Buffer} (found : p.buffer id = some b)
    (finds : ∃ b', p.parameter kid j = some b' ∧ b'.id = id) : p.parameter kid j = some b := by
  obtain ⟨b', passed, same⟩ := finds
  have known := Application.parameter_self passed
  rw [same, found] at known
  rw [passed, known]

section Commands

variable (sound : names.Sound p) (leads : way.Leads p names) (s : Contents)

include sound leads

theorem Way.take (e : ρ) : ∃ command, way.command names (.take e) = some command ∧
    p.step s command = some ([s.values (names.event e)],
      { s with values := Function.update s.values (names.event e) 0 }) := by
  cases way with
  | host =>
    obtain ⟨f, found⟩ := sound.events e
    exact ⟨_, rfl, by simp [Application.step, found, Application.event_id found]⟩
  | kernel kid event param =>
    obtain ⟨f, found, ids⟩ := leads e
    exact ⟨_, rfl, by simp [Application.step, found, ids]⟩

theorem Way.put (e : ρ) (value : Nat) : ∃ command, way.command names (.put e value) = some command ∧
    p.step s command = some ([], { s with values := Function.update s.values (names.event e) (uint32 value) }) := by
  cases way with
  | host =>
    obtain ⟨f, found⟩ := sound.events e
    exact ⟨_, rfl, by simp [Application.step, found, Application.event_id found]⟩
  | kernel kid event param =>
    obtain ⟨f, found, ids⟩ := leads e
    exact ⟨_, rfl, by simp [Application.step, found, ids]⟩

omit leads

variable {addr : Nat} {l : Nat × Nat} (place : names.place addr = some l) (finds : way.Finds p l.1)

include place finds

theorem Way.load : ∃ command, way.command names (.load addr) = some command ∧
    p.step s command = some ([s.arrays l.1 l.2], s) := by
  obtain ⟨b, found, inside⟩ := sound.inside addr l place
  have ids := Application.buffer_id found
  cases way with
  | host => exact ⟨.hostLoad l.1 l.2, by simp [Way.command, place], by simp [Application.step, found, ids, inside]⟩
  | kernel kid event param =>
    have passed := passed_of_finds found finds
    exact ⟨.load kid (param l.1) l.2, by simp [Way.command, place],
      by simp [Application.step, passed, ids, inside]⟩

theorem Way.store (byte : Nat) : ∃ command, way.command names (.store addr byte) = some command ∧
    p.step s command = some ([], { s with arrays := Windows.put s.arrays l.1 l.2 byte }) := by
  obtain ⟨b, found, inside⟩ := sound.inside addr l place
  have ids := Application.buffer_id found
  cases way with
  | host =>
    exact ⟨.hostStore l.1 l.2 byte, by simp [Way.command, place],
      by simp [Application.step, found, ids, inside]⟩
  | kernel kid event param =>
    have passed := passed_of_finds found finds
    exact ⟨.store kid (param l.1) l.2 byte, by simp [Way.command, place],
      by simp [Application.step, passed, ids, inside]⟩

end Commands

/-- What a party does on a platform that has a place for everything is what it does to registers and bytes. -/
theorem Placed.touch [DecidableEq ρ] {f : Platform} (placed : Placed p f) (sound : names.Sound p)
    (leads : way.Leads p names)
    (base : Contents) : Alike (way.Gets p names)
      (fun c h => ∃ s, Shows p f.cxt s h ∧ names.Holds base s c) Touch.exec (f.touch names way) := by
  rintro a c h gets ⟨s, shown, holds⟩
  have step : ∀ {command : Command} {answers : List Nat} {s' : Contents}, way.command names a = some command →
      p.step s command = some (answers, s') →
        ∃ h', f.touch names way a h = (answers.headD 0, h') ∧ Shows p f.cxt s' h' := by
    intro command answers s' asked ran
    obtain ⟨h', ran', shown'⟩ := placed.simulated s h command answers s' shown ran
    exact ⟨h', by simp [Platform.touch, asked, ran'], shown'⟩
  cases a with
  | take e =>
    obtain ⟨command, asked, ran⟩ := way.take sound leads s e
    obtain ⟨h', done, shown'⟩ := step asked ran
    rw [done]
    exact ⟨holds.values e, _, shown', holds.put sound e 0⟩
  | put e value =>
    obtain ⟨command, asked, ran⟩ := way.put sound leads s e value
    obtain ⟨h', done, shown'⟩ := step asked ran
    rw [done]
    exact ⟨rfl, _, shown', holds.put sound e (uint32 value)⟩
  | load addr =>
    obtain ⟨l, place, finds⟩ := gets
    obtain ⟨command, asked, ran⟩ := way.load sound s place finds
    obtain ⟨h', done, shown'⟩ := step asked ran
    rw [done]
    exact ⟨holds.cells addr l place, _, shown', holds⟩
  | store addr byte =>
    obtain ⟨l, place, finds⟩ := gets
    obtain ⟨command, asked, ran⟩ := way.store sound s place finds byte
    obtain ⟨h', done, shown'⟩ := step asked ran
    rw [done]
    exact ⟨rfl, _, shown', holds.store sound place byte⟩
  | nothing =>
    have still : f.touch names way .nothing h = (0, h) := by
      cases way <;> rfl
    rw [still]
    exact ⟨rfl, s, shown, holds⟩

end Steps

end MangoModel.System
