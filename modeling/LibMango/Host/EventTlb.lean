import LibMango.Host.KernelOrder
import LibMango.Host.Import

namespace MangoModel.Host

open Fallible

section Addresses

variable {tg : TaskGraph} {manager : Manager} {outcome : Nat → Bool} {s s' : Mm} {k : Kernel} {e : Event}
  {kId id : Nat}

def TaskGraph.Knows (tg : TaskGraph) (e : Event) : Prop :=
  e ∈ tg.events ∨ ∃ k ∈ tg.kernels, e ∈ k.taskEvents

/-- The TLB has for the kernel and the event the address that the manager gives the one on the unit of
    the other. -/
def EventAt (tg : TaskGraph) (manager : Manager) (s : Mm) (kId id : Nat) : Prop :=
  ∃ k ∈ tg.kernels, ∃ unit e, k.id = kId ∧ k.unit = some unit ∧ tg.Knows e ∧ e.id = id ∧
    s.tlbEvents kId id = some (eventAddress manager unit e)

theorem EventAt.update (member : k ∈ tg.kernels) {unit : HwUnit} (placed : k.unit = some unit)
    (known : tg.Knows e) (before : EventAt tg manager s kId id ∨ kId = k.id ∧ id = e.id) :
    EventAt tg manager (s.setVirtAddrEvent k.id e.id (eventAddress manager unit e)) kId id := by
  by_cases here : kId = k.id ∧ id = e.id
  · obtain ⟨rfl, rfl⟩ := here
    exact ⟨k, member, unit, e, rfl, placed, known, rfl, by simp [Mm.setVirtAddrEvent]⟩
  · obtain ⟨k', member', unit', e', same, placed', known', ids, found⟩ := before.resolve_right here
    refine ⟨k', member', unit', e', same, placed', known', ids, ?_⟩
    rw [← found]
    rw [not_and_or] at here
    by_cases kernel : kId = k.id
    · subst kernel
      simp [Mm.setVirtAddrEvent, here.resolve_left (not_not_intro rfl)]
    · simp [Mm.setVirtAddrEvent, kernel]

variable (placed : ∀ k ∈ tg.kernels, ∃ unit, k.unit = some unit)

include placed

theorem setEventTlb_gives (member : k ∈ tg.kernels) (known : tg.Knows e)
    (run : s.setEventTlb manager k e = some s')
    (before : EventAt tg manager s kId id ∨ kId = k.id ∧ id = e.id) : EventAt tg manager s' kId id := by
  obtain ⟨unit, on⟩ := placed k member
  rw [setEventTlb_eq on] at run
  cases run
  exact EventAt.update member on known before

theorem mapEvent_gives {item : Nat} (known : tg.Knows e) (run : s.mapEvent manager tg e item = some s')
    (before : EventAt tg manager s kId id ∨ kId ≠ 0 ∧ kId = item ∧ id = e.id) :
    EventAt tg manager s' kId id := by
  rw [Mm.mapEvent] at run
  split at run
  · next host =>
    cases run
    refine before.resolve_right ?_
    rintro ⟨guest, rfl, _⟩
    exact guest host
  · obtain ⟨k, found, one⟩ := Option.bind_eq_some_iff.mp run
    obtain ⟨member, same⟩ := TaskGraph.getKernelById_some found
    refine setEventTlb_gives placed member known one (before.imp_right ?_)
    rintro ⟨_, rfl, ids⟩
    exact ⟨same.symm, ids⟩

theorem eventLists_give (known : tg.Knows e) (run : (do
      let s ← e.kernelsIn.foldlM (Mm.mapEvent manager tg e) s
      e.kernelsOut.foldlM (Mm.mapEvent manager tg e) s) = some s')
    (before : EventAt tg manager s kId id ∨ kId ≠ 0 ∧ kId ∈ e.names ∧ id = e.id) :
    EventAt tg manager s' kId id := by
  rw [← List.foldlM_append] at run
  refine foldlM_gives (motive := fun s => EventAt tg manager s kId id)
    (fun item => kId ≠ 0 ∧ kId = item ∧ id = e.id)
    (fun item _ s s' one before => mapEvent_gives placed known one before) run (before.imp_right ?_)
  rintro ⟨guest, listed, ids⟩
  exact ⟨kId, listed, guest, rfl, ids⟩

theorem mapEvents_gives (member : k ∈ tg.kernels) (run : s.mapEvents outcome manager k = some s')
    (before : EventAt tg manager s kId id ∨ kId = k.id ∧ ∃ e ∈ k.taskEvents, id = e.id) :
    EventAt tg manager s' kId id := by
  obtain ⟨unit, on⟩ := placed k member
  rw [Mm.mapEvents, on] at run
  refine foldlM_gives (motive := fun s => EventAt tg manager s kId id) (fun e => kId = k.id ∧ id = e.id)
    (fun e own s s' one before => setEventTlb_gives placed member (.inr ⟨k, member, own⟩) one before) run ?_
  rcases before with before | ⟨here, e, own, ids⟩
  · left
    obtain ⟨k', member', unit', e', same, on', known, ids, found⟩ := before
    refine ⟨k', member', unit', e', same, on', known, ids, ?_⟩
    rw [← found]
    cases Mm.eventTlb k unit <;> rfl
  · exact .inr ⟨e, own, here, ids⟩

/-- After the third pass each kernel that an event names, and each one that an event is a task event of,
    has the event's address. -/
theorem setVaddr_eventAt (run : s.setVaddr outcome manager tg = some s')
    (named : (∃ e ∈ tg.events, kId ≠ 0 ∧ kId ∈ e.names ∧ id = e.id) ∨
      ∃ k ∈ tg.kernels, kId = k.id ∧ ∃ e ∈ k.taskEvents, id = e.id) : EventAt tg manager s' kId id := by
  obtain ⟨_, _, run⟩ := Option.bind_eq_some_iff.mp run
  obtain ⟨_, _, run⟩ := Option.bind_eq_some_iff.mp run
  obtain ⟨t, waits, tasks⟩ := Option.bind_eq_some_iff.mp run
  refine foldlM_gives (motive := fun s => EventAt tg manager s kId id)
    (fun k => kId = k.id ∧ ∃ e ∈ k.taskEvents, id = e.id)
    (fun k member s s' one before => mapEvents_gives placed member one before) tasks
    (named.imp_left fun lists => ?_)
  exact foldlM_gives (motive := fun s => EventAt tg manager s kId id)
    (fun e => kId ≠ 0 ∧ kId ∈ e.names ∧ id = e.id)
    (fun e member s s' one before => eventLists_give placed (.inl member) one before) waits (.inr lists)

end Addresses

end MangoModel.Host
