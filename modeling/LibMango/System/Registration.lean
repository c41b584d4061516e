import LibMango.System.Allocation

namespace MangoModel.System

open Host Fallible

section Kernels

variable {s t : Registry} {e : Event} {events : List Event} {h : History}

theorem getEvent_addEvents_new (free : ∀ e ∈ events, s.getEvent e.id = none)
    (distinct : (events.map Event.id).Nodup) (member : e ∈ events) :
    (s.addEvents events).getEvent e.id = some e := by
  induction events generalizing s with
  | nil => cases member
  | cons first rest ih =>
    rw [List.map_cons, List.nodup_cons] at distinct
    rcases List.mem_cons.mp member with rfl | later
    · exact Registry.getEvent_addEvents_first (free e List.mem_cons_self)
    · refine ih (s := s.addEvent first) (fun e' listed => ?_) distinct.2 later
      have other : e'.id ≠ first.id := by
        intro same
        exact distinct.1 (same ▸ List.mem_map_of_mem listed)
      exact (IdMap.emplace_other other).trans (free e' (List.mem_cons_of_mem _ listed))

/-- Each kernel is under its id, and its events are under theirs. -/
def OwnEvents (s : Registry) : Prop :=
  ∀ kid k, s.getKernel kid = some k → k.id = kid ∧ ∀ e ∈ k.events, s.getEvent e.id = some e ∧ k.id ∈ e.names

theorem OwnEvents.kept (own : OwnEvents s) (kernels : ∀ kid k, t.getKernel kid = some k → s.getKernel kid = some k)
    (events : ∀ id e, s.getEvent id = some e → t.getEvent id = some e) : OwnEvents t := by
  intro kid k found
  obtain ⟨ids, named⟩ := own kid k (kernels kid k found)
  exact ⟨ids, fun e member => ⟨events _ _ (named e member).1, (named e member).2⟩⟩

theorem newKernel_own (s : Registry) (fresh : ∀ id e, s.getEvent id = some e → id < s.created)
    (few : s.created + 4 ≤ 2^32) (own : OwnEvents s) (kid : Nat) (f : KernelFunction)
    (inBuffers outBuffers : List Nat) :
    let (k, t) := s.newKernel kid f inBuffers outBuffers
    OwnEvents ((t.addKernel kid k).addEvents k.events) := by
  have ids : ∀ i < 4, uint32 (s.created + i) = s.created + i := fun i small => uint32_of_lt (by omega)
  have zero := ids 0 (by decide)
  have one := ids 1 (by decide)
  have two := ids 2 (by decide)
  have three := ids 3 (by decide)
  have free : ∀ i, s.getEvent (s.created + i) = none := by
    intro i
    rcases found : s.getEvent (s.created + i) with _ | e
    · rfl
    · have below := fresh _ e found
      omega
  intro id k found
  rw [Registry.getKernel_addEvents] at found
  rcases IdMap.emplace_some found with before | ⟨rfl, rfl⟩
  · obtain ⟨same, named⟩ := own id k before
    refine ⟨same, fun e member => ⟨?_, (named e member).2⟩⟩
    exact Registry.getEvent_addEvents_old (named e member).1
  · refine ⟨rfl, fun e member => ⟨getEvent_addEvents_new ?_ ?_ member, ?_⟩⟩
    · intro e' listed
      simp only [Kernel.events, List.mem_cons, List.not_mem_nil, or_false] at listed
      rcases listed with rfl | rfl | rfl | rfl
      · exact (congrArg s.getEvent zero).trans (free 0)
      · exact (congrArg s.getEvent one).trans (free 1)
      · exact (congrArg s.getEvent two).trans (free 2)
      · exact (congrArg s.getEvent three).trans (free 3)
    · change [uint32 (s.created + 0), uint32 (s.created + 1), uint32 (s.created + 2),
        uint32 (s.created + 3)].Nodup
      rw [zero, one, two, three]
      simp
    · simp only [Kernel.events, List.mem_cons, List.not_mem_nil, or_false] at member
      rcases member with rfl | rfl | rfl | rfl <;> exact List.mem_cons_self

theorem register_own {r : Registration} {answer : Answer} {answers : List Answer}
    (recorded : History.Recorded (answers, s)) (few : t.created ≤ 2^32) (own : OwnEvents s)
    (run : s.register r = some (answer, t)) : OwnEvents t := by
  obtain ⟨_, _, events⟩ := Registry.register_kept run
  cases r with
  | kernel kernelId f inBuffers outBuffers =>
    obtain ⟨⟨made, after⟩, called, same⟩ := Option.map_eq_some_iff.mp run
    cases same
    rw [Registry.mangoRegisterKernel] at called
    split at called
    · cases called
    · obtain ⟨length, _, called⟩ := Option.bind_eq_some_iff.mp called
      split at called
      · cases called
        exact own
      · cases called
        have more : s.created + 4 ≤ 2^32 := by
          have same : (s.newKernel kernelId f inBuffers outBuffers).2.created = s.created + 4 := rfl
          rw [← same]
          exact few
        have before : s.created ≤ 2^32 := Nat.le_trans (Nat.le_add_right _ 4) more
        exact newKernel_own s (recorded.fresh before) more own kernelId f inBuffers outBuffers
  | memory bufferId size mode kernelsIn kernelsOut =>
    refine own.kept (fun kid k found => ?_) events
    obtain ⟨⟨made, after⟩, called, same⟩ := Option.map_eq_some_iff.mp run
    cases same
    rw [Registry.mangoRegisterMemory] at called
    split at called
    · cases called
    · cases called
      exact found
  | event kernelsIn kernelsOut =>
    refine own.kept (fun kid k found => ?_) events
    obtain ⟨⟨made, after⟩, called, same⟩ := Option.map_eq_some_iff.mp run
    cases same
    rw [Registry.mangoRegisterEvent] at called
    split at called
    · cases called
    · change (if uint32 s.created = 0 then none else some (s.registerNewEvent kernelsIn kernelsOut)) =
        some _ at called
      split at called
      · cases called
      · cases called
        exact found

theorem register_created {r : Registration} {answer : Answer} (run : s.register r = some (answer, t)) :
    s.created ≤ t.created := by
  rcases register_cases run with ⟨_, rfl⟩ | ⟨t', e, events, addition, rfl⟩
  · exact Nat.le_refl _
  · rw [Registry.created_addEvents]
    exact addition.made.le

theorem registerAll_own {created : Nat} {registrations : List Registration}
    (run : History.registerAll created registrations = some h) (few : h.2.created ≤ 2^32) :
    OwnEvents h.2 := by
  have kept : h.Recorded ∧ (h.2.created ≤ 2^32 → OwnEvents h.2) := by
    refine foldlM_invariant (motive := fun _ h => h.Recorded ∧ (h.2.created ≤ 2^32 → OwnEvents h.2))
      (fun _ r h h' _ kept one => ?_) ⟨History.recorded_empty created, fun _ kid k found => ?_⟩ run
    · refine ⟨kept.1.register one, fun few => ?_⟩
      obtain ⟨⟨answer, s'⟩, called, same⟩ := Option.bind_eq_some_iff.mp one
      cases same
      exact register_own kept.1 few (kept.2 (Nat.le_trans (register_created called) few)) called
    · simp [Registry.empty, Registry.getKernel] at found
  exact kept.2 few

end Kernels

section Graphs

variable {s : Registry} {answers : List Answer} {tg : TaskGraph} {kernels buffers events : List Nat}

theorem map_of_lookup {α : Type} {m : IdMap α} (key : α → Nat)
    (keys : ∀ id item, m[id]? = some item → key item = id) {ids : List Nat} {items : List α}
    (looked : ids.mapM (m[·]?) = some items) : items.map key = ids := by
  have related := mapM_forall₂ looked
  clear looked
  induction related with
  | nil => rfl
  | cons found _ ih => rw [List.map_cons, keys _ _ found, ih]

/-- What the application registers and the graph that it makes of it have the form that an allocation
    relies on. -/
theorem constructed_formed {created : Nat} {registrations : List Registration}
    (registered : History.registerAll created registrations = some (answers, s)) (few : s.created ≤ 2^32)
    (made : mangoTaskGraphCreate s.cxt kernels buffers events = some tg) (kernelIds : kernels.Nodup)
    (bufferIds : buffers.Nodup) : Formed tg ∧ Registered s.cxt tg := by
  have recorded : History.Recorded (answers, s) := History.registerAll_recorded registered
  have own := registerAll_own registered few
  have built := mangoTaskGraphCreate_built made
  have wired := built.wired recorded few
  rw [mangoTaskGraphCreate] at made
  split at made
  · cases made
  obtain ⟨ks, given, made⟩ := Option.bind_eq_some_iff.mp made
  obtain ⟨bs, chosen, made⟩ := Option.bind_eq_some_iff.mp made
  obtain ⟨es, others, made⟩ := Option.bind_eq_some_iff.mp made
  cases made
  refine ⟨⟨?_, ?_, fun k member e mine => ?_, wired.buffers, wired.same⟩, ⟨?_, ?_, ?_⟩⟩
  · have ids := map_of_lookup Kernel.id (fun kid k found => (own kid k found).1) given
    rw [ids]
    exact kernelIds
  · have ids := map_of_lookup Buffer.id recorded.ids chosen
    rw [ids]
    exact bufferIds
  · obtain ⟨kid, found⟩ := built.kernels k member
    obtain ⟨known, names⟩ := (own kid k found).2 e mine
    exact ⟨(built.events e).mpr ⟨e.id, known⟩, names⟩
  · intro k member
    obtain ⟨kid, found⟩ := built.kernels k member
    rw [(own kid k found).1]
    exact found
  · intro b member
    obtain ⟨bid, found⟩ := built.buffers b member
    rw [recorded.ids bid b found]
    exact found
  · intro e member
    obtain ⟨id, found⟩ := (built.events e).mp member
    rw [recorded.eventIds id e found]
    exact found

end Graphs

end MangoModel.System
