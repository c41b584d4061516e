import LibMango.Host.Addresses
import LibMango.Host.Construction

namespace MangoModel.Host

open Fallible

variable {tg : TaskGraph} {manager : Manager} {outcome : Nat → Bool} {s s' : Mm} {k : Kernel} {b : Buffer}
  {e : Event} {kId id : Nat}

section Frame

theorem setEventTlb_buffers (run : s.setEventTlb manager k e = some s') : s'.tlbBuffers = s.tlbBuffers := by
  cases manager with
  | MM =>
    obtain ⟨unit, _, run⟩ := Option.bind_eq_some_iff.mp run
    cases run
    rfl
  | MM_GN =>
    cases run
    rfl

theorem mapEvent_buffers (run : s.mapEvent manager tg e kId = some s') : s'.tlbBuffers = s.tlbBuffers := by
  rw [Mm.mapEvent] at run
  split at run
  · cases run
    rfl
  · obtain ⟨k, _, one⟩ := Option.bind_eq_some_iff.mp run
    exact setEventTlb_buffers one

theorem foldlM_buffers {α : Type} {f : Mm → α → Option Mm} {items : List α}
    (each : ∀ s item s', f s item = some s' → s'.tlbBuffers = s.tlbBuffers) (run : items.foldlM f s = some s') :
    s'.tlbBuffers = s.tlbBuffers :=
  foldlM_invariant (motive := fun _ t => t.tlbBuffers = s.tlbBuffers)
    (fun _ item t t' _ before one => (each t item t' one).trans before) rfl run

theorem setVaddrEvents_buffers (run : s.setVaddrEvents outcome manager tg = some s') :
    s'.tlbBuffers = s.tlbBuffers := by
  obtain ⟨t, waits, tasks⟩ := Option.bind_eq_some_iff.mp run
  refine (foldlM_buffers (fun s k s' one => ?_) tasks).trans (foldlM_buffers (fun s e s' one => ?_) waits)
  · obtain ⟨unit, _, one⟩ := Option.bind_eq_some_iff.mp one
    refine (foldlM_buffers (fun s e s' set => setEventTlb_buffers set) one).trans ?_
    cases Mm.eventTlb k unit <;> rfl
  · rw [← List.foldlM_append] at one
    exact foldlM_buffers (fun s kId s' set => mapEvent_buffers set) one

end Frame

section Addresses

/-- The TLB has for the kernel and the buffer the buffer's physical address. -/
def BufferAt (tg : TaskGraph) (s : Mm) (kId id : Nat) : Prop :=
  ∃ b ∈ tg.buffers, b.id = id ∧ s.tlbBuffers kId id = some b.phyAddr

theorem BufferAt.update (member : b ∈ tg.buffers) (before : BufferAt tg s kId id ∨ kId = k.id ∧ id = b.id) :
    BufferAt tg (s.setVirtAddrBuffer k.id b.id b.phyAddr) kId id := by
  by_cases here : kId = k.id ∧ id = b.id
  · obtain ⟨rfl, rfl⟩ := here
    exact ⟨b, member, rfl, by simp [Mm.setVirtAddrBuffer]⟩
  · obtain ⟨b', member', same, found⟩ := before.resolve_right here
    refine ⟨b', member', same, ?_⟩
    rw [← found]
    rw [not_and_or] at here
    by_cases kernel : kId = k.id
    · subst kernel
      simp [Mm.setVirtAddrBuffer, here.resolve_left (not_not_intro rfl)]
    · simp [Mm.setVirtAddrBuffer, kernel]

theorem mapBuffer_gives {item : Nat} (member : b ∈ tg.buffers)
    (run : s.mapBuffer outcome .MM_GN tg b item = some s')
    (before : BufferAt tg s kId id ∨ kId ≠ 0 ∧ kId = item ∧ id = b.id) : BufferAt tg s' kId id := by
  rw [Mm.mapBuffer] at run
  split at run
  · next host =>
    cases run
    refine before.resolve_right ?_
    rintro ⟨guest, rfl, _⟩
    exact guest host
  · obtain ⟨k, found, one⟩ := Option.bind_eq_some_iff.mp run
    obtain ⟨_, same⟩ := TaskGraph.getKernelById_some found
    cases one
    refine BufferAt.update member (before.imp_right ?_)
    rintro ⟨_, rfl, ids⟩
    exact ⟨same.symm, ids⟩

theorem bufferLists_give (member : b ∈ tg.buffers) (run : (do
      let s ← b.kernelsIn.foldlM (Mm.mapBuffer outcome .MM_GN tg b) s
      b.kernelsOut.foldlM (Mm.mapBuffer outcome .MM_GN tg b) s) = some s')
    (before : BufferAt tg s kId id ∨ kId ≠ 0 ∧ kId ∈ b.names ∧ id = b.id) : BufferAt tg s' kId id := by
  rw [← List.foldlM_append] at run
  refine foldlM_gives (motive := fun s => BufferAt tg s kId id) (fun item => kId ≠ 0 ∧ kId = item ∧ id = b.id)
    (fun item _ s s' one before => mapBuffer_gives member one before) run (before.imp_right ?_)
  rintro ⟨guest, listed, ids⟩
  exact ⟨kId, listed, guest, rfl, ids⟩

/-- In simulated mode a kernel gets the physical address of each buffer that names it. -/
theorem setVaddr_bufferAt (run : s.setVaddr outcome .MM_GN tg = some s') (member : b ∈ tg.buffers)
    (guest : kId ≠ 0) (names : kId ∈ b.names) : BufferAt tg s' kId b.id := by
  obtain ⟨_, _, run⟩ := Option.bind_eq_some_iff.mp run
  obtain ⟨t, addressed, events⟩ := Option.bind_eq_some_iff.mp run
  obtain ⟨b', member', same, found⟩ := foldlM_gives (motive := fun s => BufferAt tg s kId b.id)
    (fun b' => kId ≠ 0 ∧ kId ∈ b'.names ∧ b.id = b'.id)
    (fun b' member s s' one before => bufferLists_give member one before) addressed
    (.inr ⟨b, member, guest, names, rfl⟩)
  exact ⟨b', member', same, by rw [setVaddrEvents_buffers events, found]⟩

end Addresses

end MangoModel.Host
