import LibMango.OpenCL.Process

namespace MangoModel.OpenCL

open Host

section Registrations

variable {s t : Registry} {answer : Answer} {kid bid : Nat}

/-- As long as the ids of events have not come round, those of a context's buffers are their own, and
    none is the first id. -/
structure Apart (s : Registry) : Prop where
  kernels : ∀ kid k, s.getKernel kid = some k → k.terminationEvent.id < s.created
  buffers : ∀ bid b, s.getBuffer bid = some b → 0 < b.event.id ∧ b.event.id < s.created
  own : ∀ bid b bid' b', s.getBuffer bid = some b → s.getBuffer bid' = some b' →
    b.event.id = b'.event.id → bid = bid'
  other : ∀ bid b kid k, s.getBuffer bid = some b → s.getKernel kid = some k →
    b.event.id ≠ k.terminationEvent.id

/-- The events that calls on kernels and buffers return are in the context, and so is the first event
    of all, which is that of a kernel. -/
structure Upright (s : Registry) : Prop where
  zero : s.created ≠ 0 → (s.getEvent 0).isSome
  begun : ∀ kid k, s.getKernel kid = some k → s.created ≠ 0
  kernels : ∀ kid k, s.getKernel kid = some k → (s.getEvent k.terminationEvent.id).isSome
  buffers : ∀ bid b, s.getBuffer bid = some b → (s.getEvent b.event.id).isSome
  apart : s.created ≤ 2^32 → Apart s

theorem upright_empty : Upright (.empty 0) where
  zero begun := absurd rfl begun
  begun _ _ found := by simp [Registry.empty, Registry.getKernel] at found
  kernels _ _ found := by simp [Registry.empty, Registry.getKernel] at found
  buffers _ _ found := by simp [Registry.empty, Registry.getBuffer] at found
  apart _ := by
    constructor
    · intro _ _ found
      simp [Registry.empty, Registry.getKernel] at found
    · intro _ _ found
      simp [Registry.empty, Registry.getBuffer] at found
    · intro _ _ _ _ found
      simp [Registry.empty, Registry.getBuffer] at found
    · intro _ _ _ _ found
      simp [Registry.empty, Registry.getBuffer] at found

/-- What a registration adds is one kernel or one buffer, whose event has the next id. -/
structure Extends (s t : Registry) : Prop where
  more : s.created < t.created
  kept : ∀ id, (s.getEvent id).isSome → (t.getEvent id).isSome
  event : (t.getEvent (uint32 s.created)).isSome
  kernels : ∀ kid k, t.getKernel kid = some k →
    s.getKernel kid = some k ∨ k.terminationEvent.id = uint32 s.created
  buffers : ∀ bid b, t.getBuffer bid = some b →
    s.getBuffer bid = some b ∨ b.event.id = uint32 s.created

theorem extends_of_addition {t' : Registry} {e : Event} {events : List Event}
    (addition : Addition s answer t' e events) : Extends s (t'.addEvents (e :: events)) where
  more := by
    rw [Registry.created_addEvents]
    exact addition.made
  kept id present := by
    obtain ⟨old, found⟩ := Option.isSome_iff_exists.mp present
    rw [addition.keptEvent found]
    rfl
  event := by
    rw [← addition.first, Registry.getEvent_isSome]
    exact (Registry.mem_addEvents _).mpr (.inr List.mem_cons_self)
  kernels kid k found := by
    rw [Registry.getKernel_addEvents] at found
    rcases addition.kernels kid k found with before | ⟨new, _⟩
    · exact .inl before
    · rw [new]
      exact .inr addition.first
  buffers bid b found := by
    rw [Registry.getBuffer_addEvents] at found
    rcases addition.bufferEvent bid b found with before | new
    · exact .inl before
    · rw [new]
      exact .inr addition.first

/-- `single` says that only one object is new. -/
theorem Apart.extend (apart : Apart s) (larger : Extends s t) (few : s.created < 2^32)
    (single : (∀ bid, t.getBuffer bid = s.getBuffer bid) ∨
      s.created ≠ 0 ∧ (∀ kid, t.getKernel kid = s.getKernel kid) ∧
        ∃ new, ∀ bid, bid ≠ new → t.getBuffer bid = s.getBuffer bid) : Apart t := by
  have more := larger.more
  have next : uint32 s.created = s.created := uint32_of_lt few
  have kernels : ∀ kid k, t.getKernel kid = some k →
      s.getKernel kid = some k ∨ k.terminationEvent.id = s.created := by
    intro kid k found
    rw [← next]
    exact larger.kernels kid k found
  have buffers : ∀ bid b, t.getBuffer bid = some b → s.getBuffer bid = some b ∨ b.event.id = s.created := by
    intro bid b found
    rw [← next]
    exact larger.buffers bid b found
  constructor
  · intro kid k found
    rcases kernels kid k found with before | new
    · have below := apart.kernels kid k before
      omega
    · omega
  · intro bid b found
    rcases buffers bid b found with before | new
    · have within := apart.buffers bid b before
      omega
    · rcases single with same | ⟨begun, _⟩
      · rw [same] at found
        have within := apart.buffers bid b found
        omega
      · omega
  · intro bid b bid' b' found found' same_event
    rcases single with same | ⟨_, _, new, same⟩
    · rw [same] at found found'
      exact apart.own bid b bid' b' found found' same_event
    · by_cases first : bid = new
      · by_cases second : bid' = new
        · rw [first, second]
        · rw [same bid' second] at found'
          have within := apart.buffers bid' b' found'
          rcases buffers bid b found with before | next
          · exact apart.own bid b bid' b' before found' same_event
          · omega
      · rw [same bid first] at found
        have within := apart.buffers bid b found
        rcases buffers bid' b' found' with before | next
        · exact apart.own bid b bid' b' found before same_event
        · omega
  · intro bid b kid k found kernel
    rcases single with same | ⟨_, same, _⟩
    · rw [same] at found
      have within := apart.buffers bid b found
      rcases kernels kid k kernel with before | next
      · exact apart.other bid b kid k found before
      · omega
    · rw [same] at kernel
      have below := apart.kernels kid k kernel
      rcases buffers bid b found with before | next
      · exact apart.other bid b kid k before kernel
      · omega

theorem Upright.extend (upright : Upright s) (larger : Extends s t)
    (single : (∀ bid, t.getBuffer bid = s.getBuffer bid) ∨
      s.created ≠ 0 ∧ (∀ kid, t.getKernel kid = s.getKernel kid) ∧
        ∃ new, ∀ bid, bid ≠ new → t.getBuffer bid = s.getBuffer bid) : Upright t where
  zero _ := by
    by_cases begun : s.created = 0
    · have event := larger.event
      rwa [begun] at event
    · exact larger.kept 0 (upright.zero begun)
  begun _ _ _ := by
    have more := larger.more
    omega
  kernels kid k found := by
    rcases larger.kernels kid k found with before | new
    · exact larger.kept _ (upright.kernels kid k before)
    · rw [new]
      exact larger.event
  buffers bid b found := by
    rcases larger.buffers bid b found with before | new
    · exact larger.kept _ (upright.buffers bid b before)
    · rw [new]
      exact larger.event
  apart few := by
    have more := larger.more
    exact (upright.apart (by omega)).extend larger (by omega) single

/-- The lookups of one context are found in another. -/
structure Includes (s t : Registry) : Prop where
  kernels : ∀ kid, (s.getKernel kid).isSome → (t.getKernel kid).isSome
  buffers : ∀ bid, (s.getBuffer bid).isSome → (t.getBuffer bid).isSome
  events : ∀ id, (s.getEvent id).isSome → (t.getEvent id).isSome

theorem register_includes {r : Registration} (run : s.register r = some (answer, t)) : Includes s t := by
  obtain ⟨kernels, buffers, events⟩ := Registry.register_kept run
  constructor
  · intro kid present
    obtain ⟨k, found⟩ := Option.isSome_iff_exists.mp present
    exact Option.isSome_iff_exists.mpr ⟨k, kernels kid k found⟩
  · intro bid present
    obtain ⟨b, found⟩ := Option.isSome_iff_exists.mp present
    exact Option.isSome_iff_exists.mpr ⟨b, buffers bid b found⟩
  · intro id present
    obtain ⟨e, found⟩ := Option.isSome_iff_exists.mp present
    exact Option.isSome_iff_exists.mpr ⟨e, events id e found⟩

theorem Upright.registerKernel {f : KernelFunction} {inBuffers outBuffers : List Nat}
    (upright : Upright s) (run : s.register (.kernel kid f inBuffers outBuffers) = some (answer, t)) :
    Upright t := by
  obtain ⟨⟨made, after⟩, called, same⟩ := Option.map_eq_some_iff.mp run
  cases same
  rw [Registry.mangoRegisterKernel] at called
  split at called
  · cases called
  · obtain ⟨length, _, called⟩ := Option.bind_eq_some_iff.mp called
    split at called
    · cases called
      exact upright
    · cases called
      apply upright.extend (extends_of_addition (newKernel_addition s kid f inBuffers outBuffers))
      exact .inl fun bid => Registry.getBuffer_addEvents _

theorem Upright.registerMemory {size : Nat} {mode : BufferType} {kernelsIn kernelsOut : List Nat}
    (upright : Upright s) (begun : s.created ≠ 0)
    (run : s.register (.memory bid size mode kernelsIn kernelsOut) = some (answer, t)) :
    Upright t ∧ (t.getBuffer bid).isSome := by
  obtain ⟨⟨made, after⟩, called, same⟩ := Option.map_eq_some_iff.mp run
  cases same
  rw [Registry.mangoRegisterMemory] at called
  split at called
  · cases called
  · cases called
    constructor
    · apply upright.extend (extends_of_addition (newBuffer_addition s bid (uint32 size) kernelsIn kernelsOut mode))
      refine .inr ⟨begun, fun kid => Registry.getKernel_addEvents _, bid, ?_⟩
      intro other apart
      exact (Registry.getBuffer_addEvents _).trans (IdMap.emplace_other apart)
    · exact Registry.getBuffer_addBuffer_isSome bid _ [_]

/-- A buffer and its event are taken out, and nothing else. -/
theorem Upright.deregister (upright : Upright s) (few : s.created ≤ 2^32)
    (run : s.deregisterBuffer bid = some t) : Upright t := by
  obtain ⟨b, found, rfl⟩ := Registry.deregisterBuffer_some run
  have apart := upright.apart few
  have others : ∀ id, id ≠ b.event.id → (s.getEvent id).isSome →
      (((s.removeEvent b.event.id).removeBuffer bid).getEvent id).isSome := by
    intro id other present
    change ((s.removeEvent b.event.id).getEvent id).isSome
    rwa [Registry.getEvent_removeEvent_other other]
  have buffers : ∀ bid' b', ((s.removeEvent b.event.id).removeBuffer bid).getBuffer bid' = some b' →
      bid' ≠ bid ∧ s.getBuffer bid' = some b' := fun bid' b' => Registry.getBuffer_removeBuffer.mp
  constructor
  · intro begun
    have positive := apart.buffers bid b found
    exact others 0 (by omega) (upright.zero begun)
  · exact upright.begun
  · intro kid k kernel
    exact others _ (apart.other bid b kid k found kernel).symm (upright.kernels kid k kernel)
  · intro bid' b' kept
    obtain ⟨other, kept⟩ := buffers bid' b' kept
    apply others _ _ (upright.buffers bid' b' kept)
    intro same
    exact other (apart.own bid' b' bid b kept found same)
  · intro _
    constructor
    · exact apart.kernels
    · intro bid' b' kept
      exact apart.buffers bid' b' (buffers bid' b' kept).2
    · intro bid' b' bid'' b'' kept kept'
      exact apart.own bid' b' bid'' b'' (buffers bid' b' kept).2 (buffers bid'' b'' kept').2
    · intro bid' b' kid k kept
      exact apart.other bid' b' kid k (buffers bid' b' kept).2

end Registrations

end MangoModel.OpenCL
