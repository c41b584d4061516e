import LibMango.OpenCL.Clients

namespace MangoModel.OpenCL

open Host

section Mirrors

variable {number number' : Nat → Nat} {s s₀ t t₀ : Registry} {k : Kernel} {b : Buffer} {e : Event}

theorem renumberEvent_congr (same : number e.id = number' e.id) :
    renumberEvent number e = renumberEvent number' e := by
  rw [renumberEvent, renumberEvent, same]

theorem renumberKernel_congr (same : ∀ e ∈ k.events, number e.id = number' e.id) :
    renumberKernel number k = renumberKernel number' k := by
  obtain ⟨termination, tasks⟩ := List.forall_mem_cons.mp same
  have events : k.taskEvents.map (renumberEvent number) = k.taskEvents.map (renumberEvent number') :=
    List.map_congr_left fun e member => renumberEvent_congr (tasks e member)
  simp only [renumberKernel, Kernel.mapEvents, renumberEvent_congr termination, events]

theorem renumberBuffer_congr (same : number b.event.id = number' b.event.id) :
    renumberBuffer number b = renumberBuffer number' b := by
  rw [renumberBuffer, renumberBuffer, renumberEvent_congr same]

/-- `s₀` has the objects of A alone, and `s` has them with other numbers, besides those of B. -/
structure Mirrors (number : Nat → Nat) (s s₀ : Registry) : Prop where
  below : ∀ i < s₀.created, number i < s.created
  apart : ∀ i < s₀.created, ∀ j < s₀.created, number i = number j → i = j
  first : s₀.created ≠ 0 → number 0 = 0
  start : s₀.created = 0 → s.created = 0
  fewer : s₀.created ≤ s.created
  kernels : ∀ kid k, s₀.getKernel kid = some k →
    s.getKernel kid = some (renumberKernel number k) ∧ ∀ e ∈ k.events, e.id < s₀.created
  buffers : ∀ bid b, s₀.getBuffer bid = some b →
    s.getBuffer bid = some (renumberBuffer number b) ∧ b.event.id < s₀.created
  events : ∀ i < s₀.created, s.getEvent (number i) = (s₀.getEvent i).map (renumberEvent number)
  fresh : ∀ id e, s.getEvent id = some e → id < s.created
  own : ∀ id e, s₀.getEvent id = some e → id < s₀.created ∧ e.id = id
  others : ∀ bid b, s.getBuffer bid = some b → s₀.getBuffer bid = none →
    b.event.id < s.created ∧ ∀ i < s₀.created, b.event.id ≠ number i

/-- The next events of A have the next ids in both. -/
def extend (number : Nat → Nat) (s s₀ : Registry) (i : Nat) : Nat :=
  if i < s₀.created then number i else s.created + (i - s₀.created)

theorem extend_old {i : Nat} (old : i < s₀.created) : extend number s s₀ i = number i := if_pos old

theorem extend_new (j : Nat) : extend number s s₀ (s₀.created + j) = s.created + j := by
  rw [extend, if_neg (by omega)]
  omega

theorem Mirrors.extend_below (mirrors : Mirrors number s s₀) {i n : Nat} (inside : i < s₀.created + n) :
    extend number s s₀ i < s.created + n := by
  rw [extend]
  split
  · next old =>
    have mine := mirrors.below i old
    omega
  · omega

theorem Mirrors.extend_apart (mirrors : Mirrors number s s₀) {i j : Nat}
    (same : extend number s s₀ i = extend number s s₀ j) : i = j := by
  rw [extend, extend] at same
  split at same
  · next old =>
    have mine := mirrors.below i old
    split at same
    · next old' => exact mirrors.apart i old j old' same
    · omega
  · next late =>
    split at same
    · next old' =>
      have mine := mirrors.below j old'
      omega
    · omega

theorem getEvent_addEvents_other {events : List Event} {id : Nat} (other : id ∉ events.map Event.id) :
    (t.addEvents events).getEvent id = t.getEvent id := by
  induction events generalizing t with
  | nil => rfl
  | cons e events ih =>
    rw [List.map_cons, List.mem_cons, not_or] at other
    exact (ih other.2).trans (IdMap.emplace_other other.1)

theorem getEvent_addEvents_new {events : List Event} (free : ∀ e ∈ events, t.getEvent e.id = none)
    (nodup : (events.map Event.id).Nodup) : ∀ e ∈ events, (t.addEvents events).getEvent e.id = some e := by
  induction events generalizing t with
  | nil => simp
  | cons first events ih =>
    rw [List.map_cons, List.nodup_cons] at nodup
    obtain ⟨alone, nodup⟩ := nodup
    obtain ⟨here, later⟩ := List.forall_mem_cons.mp free
    intro e member
    rcases List.mem_cons.mp member with rfl | member
    · exact Registry.getEvent_addEvents_first here
    · apply ih _ nodup e member
      intro e member
      have other : e.id ≠ first.id := fun same => alone (same ▸ List.mem_map_of_mem member)
      exact (IdMap.emplace_other other).trans (later e member)

/-- Events that a registration makes have the next ids. -/
theorem ids_next {events : List Event} {created : Nat}
    (ids : events.map Event.id = (List.range events.length).map (created + ·)) :
    ∀ e ∈ events, created ≤ e.id ∧ e.id < created + events.length := by
  intro e member
  have id := List.mem_map_of_mem (f := Event.id) member
  rw [ids] at id
  obtain ⟨j, below, same⟩ := List.mem_map.mp id
  rw [List.mem_range] at below
  omega

theorem old_not_next {events : List Event} {created id : Nat}
    (ids : events.map Event.id = (List.range events.length).map (created + ·)) (old : id < created) :
    id ∉ events.map Event.id := by
  intro member
  obtain ⟨e, inside, same⟩ := List.mem_map.mp member
  have late := (ids_next ids e inside).1
  omega

theorem nodup_next {events : List Event} {created : Nat}
    (ids : events.map Event.id = (List.range events.length).map (created + ·)) :
    (events.map Event.id).Nodup := by
  rw [ids]
  exact List.nodup_range.map fun i j same => Nat.add_left_cancel same

theorem Mirrors.none_next (mirrors : Mirrors number s s₀) {id : Nat} (next : s.created ≤ id) :
    s.getEvent id = none := by
  rcases found : s.getEvent id with _ | e
  · rfl
  · exact absurd (mirrors.fresh id e found) (by omega)

theorem Mirrors.none_next_own (mirrors : Mirrors number s s₀) {id : Nat} (next : s₀.created ≤ id) :
    s₀.getEvent id = none := by
  rcases found : s₀.getEvent id with _ | e
  · rfl
  · exact absurd (mirrors.own id e found).1 (by omega)

/-- What A's own registration does to the events of both. -/
theorem Mirrors.events_add {events : List Event} (mirrors : Mirrors number s s₀)
    (kept : t.cxt.events = s.cxt.events) (kept₀ : t₀.cxt.events = s₀.cxt.events)
    (ids : events.map Event.id = (List.range events.length).map (s₀.created + ·)) :
    ∀ i < s₀.created + events.length,
      (t.addEvents (events.map (renumberEvent (extend number s s₀)))).getEvent (extend number s s₀ i) =
        ((t₀.addEvents events).getEvent i).map (renumberEvent (extend number s s₀)) := by
  have next : ∀ e ∈ events, s₀.created ≤ e.id ∧ e.id < s₀.created + events.length := ids_next ids
  have renumbered : (events.map (renumberEvent (extend number s s₀))).map Event.id =
      (List.range events.length).map (s.created + ·) := by
    rw [List.map_map]
    change events.map (extend number s s₀ ∘ Event.id) = _
    rw [← List.map_map, ids, List.map_map]
    apply List.map_congr_left
    intro j _
    exact extend_new j
  have next' : ∀ e ∈ events.map (renumberEvent (extend number s s₀)),
      s.created ≤ e.id ∧ e.id < s.created + _ := ids_next (by rw [renumbered, List.length_map])
  intro i below
  by_cases old : i < s₀.created
  · have mine := mirrors.below i old
    have other : extend number s s₀ i ∉ (events.map (renumberEvent (extend number s s₀))).map Event.id := by
      rw [extend_old old]
      exact old_not_next (by rw [renumbered, List.length_map]) mine
    have other₀ : i ∉ events.map Event.id := old_not_next ids old
    rw [getEvent_addEvents_other other, getEvent_addEvents_other other₀, extend_old old, Registry.getEvent,
      Registry.getEvent, kept, kept₀]
    have before := mirrors.events i old
    rw [Registry.getEvent, Registry.getEvent] at before
    rw [before]
    rcases found : s₀.cxt.events[i]? with _ | e
    · rfl
    · rw [Option.map_some, Option.map_some]
      have place : e.id = i := (mirrors.own i e found).2
      have same : renumberEvent number e = renumberEvent (extend number s s₀) e :=
        renumberEvent_congr (by rw [place, extend_old old])
      rw [same]
  · have listed : i ∈ events.map Event.id := by
      rw [ids]
      exact List.mem_map.mpr ⟨i - s₀.created, by rw [List.mem_range]; omega, by omega⟩
    obtain ⟨e, inside, rfl⟩ := List.mem_map.mp listed
    have later : ∀ e ∈ events.map (renumberEvent (extend number s s₀)), t.getEvent e.id = none := by
      intro e member
      rw [Registry.getEvent, kept]
      exact mirrors.none_next (next' e member).1
    have later₀ : ∀ e ∈ events, t₀.getEvent e.id = none := by
      intro e member
      rw [Registry.getEvent, kept₀]
      exact mirrors.none_next_own (next e member).1
    have nodup' : ((events.map (renumberEvent (extend number s s₀))).map Event.id).Nodup :=
      nodup_next (by rw [renumbered, List.length_map])
    rw [getEvent_addEvents_new later₀ (nodup_next ids) e inside, Option.map_some]
    exact getEvent_addEvents_new later nodup' _ (List.mem_map_of_mem inside)

/-- A registers an object in both, with events that have the next ids. -/
theorem Mirrors.add (events : List Event) (mirrors : Mirrors number s s₀)
    (kept : t.cxt.events = s.cxt.events) (kept₀ : t₀.cxt.events = s₀.cxt.events)
    (made : t.created = s.created + events.length) (made₀ : t₀.created = s₀.created + events.length)
    (ids : events.map Event.id = (List.range events.length).map (s₀.created + ·))
    (kernels : ∀ kid k, t₀.getKernel kid = some k →
      t.getKernel kid = some (renumberKernel (extend number s s₀) k) ∧ ∀ e ∈ k.events, e.id < t₀.created)
    (buffers : ∀ bid b, t₀.getBuffer bid = some b →
      t.getBuffer bid = some (renumberBuffer (extend number s s₀) b) ∧ b.event.id < t₀.created)
    (others : ∀ bid b, t.getBuffer bid = some b → t₀.getBuffer bid = none →
      s.getBuffer bid = some b ∧ s₀.getBuffer bid = none) :
    Mirrors (extend number s s₀) (t.addEvents (events.map (renumberEvent (extend number s s₀))))
      (t₀.addEvents events) where
  below i below := by
    rw [Registry.created_addEvents, made₀] at below
    rw [Registry.created_addEvents, made]
    exact mirrors.extend_below below
  apart i _ j _ same := mirrors.extend_apart same
  first some_made := by
    rw [extend]
    split
    · next old => exact mirrors.first (by omega)
    · next late =>
      have := mirrors.start (by omega)
      omega
  start none_made := by
    rw [Registry.created_addEvents, made₀] at none_made
    have := mirrors.start (by omega)
    rw [Registry.created_addEvents, made]
    omega
  fewer := by
    have := mirrors.fewer
    rw [Registry.created_addEvents, Registry.created_addEvents, made, made₀]
    omega
  kernels kid k found := by
    rw [Registry.getKernel_addEvents, Registry.created_addEvents] at *
    exact kernels kid k found
  buffers bid b found := by
    rw [Registry.getBuffer_addEvents, Registry.created_addEvents] at *
    exact buffers bid b found
  events i below := by
    rw [Registry.created_addEvents, made₀] at below
    exact mirrors.events_add kept kept₀ ids i below
  fresh id e found := by
    rw [Registry.created_addEvents, made]
    rcases Registry.getEvent_addEvents _ found with before | ⟨new, rfl⟩
    · rw [Registry.getEvent, kept] at before
      have := mirrors.fresh id e before
      omega
    · obtain ⟨e₀, inside, rfl⟩ := List.mem_map.mp new
      obtain ⟨late, below⟩ := ids_next ids e₀ inside
      change extend number s s₀ e₀.id < _
      rw [extend, if_neg (by omega)]
      omega
  own id e found := by
    rw [Registry.created_addEvents, made₀]
    rcases Registry.getEvent_addEvents _ found with before | ⟨new, same⟩
    · rw [Registry.getEvent, kept₀] at before
      obtain ⟨below, same⟩ := mirrors.own id e before
      exact ⟨by omega, same⟩
    · exact ⟨same ▸ (ids_next ids e new).2, same⟩
  others bid b found none_own := by
    rw [Registry.getBuffer_addEvents] at found none_own
    obtain ⟨before, none_before⟩ := others bid b found none_own
    obtain ⟨low, apart⟩ := mirrors.others bid b before none_before
    rw [Registry.created_addEvents, Registry.created_addEvents, made]
    refine ⟨by omega, ?_⟩
    intro i _
    rw [extend]
    split
    · next old => exact apart i old
    · omega

/-- B registers an object, after A has registered one. -/
theorem Mirrors.other {r : Registration} {answer : Answer} (mirrors : Mirrors number s s₀)
    (begun : s₀.created ≠ 0) (few : s.created + makes r ≤ 2^32) (run : s.register r = some (answer, t)) :
    Mirrors number t s₀ := by
  have enlarged := register_enlarged run
  obtain ⟨kernels, buffers, events⟩ := Registry.register_kept run
  have ids : ∀ id ∈ (madeBy answer).map Event.id, s.created ≤ id ∧ id < t.created := by
    intro id member
    rw [enlarged.ids] at member
    obtain ⟨j, below, same⟩ := List.mem_map.mp member
    rw [List.mem_range] at below
    rw [uint32_of_lt (by omega)] at same
    rw [enlarged.created]
    omega
  have grown : s.created ≤ t.created := by
    rw [enlarged.created]
    omega
  constructor
  · intro i below
    exact Nat.lt_of_lt_of_le (mirrors.below i below) grown
  · exact mirrors.apart
  · exact mirrors.first
  · exact fun none_made => absurd none_made begun
  · exact Nat.le_trans mirrors.fewer grown
  · intro kid k found
    obtain ⟨present, own⟩ := mirrors.kernels kid k found
    exact ⟨kernels kid _ present, own⟩
  · intro bid b found
    obtain ⟨present, own⟩ := mirrors.buffers bid b found
    exact ⟨buffers bid _ present, own⟩
  · intro i below
    rw [← mirrors.events i below]
    rcases found : s.getEvent (number i) with _ | e
    · rw [← Option.not_isSome_iff_eq_none, Registry.getEvent_isSome, enlarged.events, not_or, ← Registry.getEvent_isSome, found]
      refine ⟨by simp, ?_⟩
      intro new
      have := (ids _ new).1
      have := mirrors.below i below
      omega
    · exact events _ e found
  · intro id e found
    rcases (enlarged.events id).mp (Registry.getEvent_isSome.mp (by rw [found]; rfl)) with before | new
    · obtain ⟨e', found'⟩ := Option.isSome_iff_exists.mp (Registry.getEvent_isSome.mpr before)
      exact Nat.lt_of_lt_of_le (mirrors.fresh id e' found') grown
    · exact (ids id new).2
  · exact mirrors.own
  · intro bid b found none_own
    rcases enlarged.buffers bid b found with before | new
    · obtain ⟨low, apart⟩ := mirrors.others bid b before none_own
      exact ⟨Nat.lt_of_lt_of_le low grown, apart⟩
    · obtain ⟨late, low⟩ := ids _ (List.mem_map_of_mem new)
      refine ⟨low, ?_⟩
      intro i below same
      have := mirrors.below i below
      omega

theorem Mirrors.congr (mirrors : Mirrors number s s₀) (same : ∀ i < s₀.created, number i = number' i) :
    Mirrors number' s s₀ where
  below i below := same i below ▸ mirrors.below i below
  apart i below j below' := by
    rw [← same i below, ← same j below']
    exact mirrors.apart i below j below'
  first made := same 0 (by omega) ▸ mirrors.first made
  start := mirrors.start
  fewer := mirrors.fewer
  kernels kid k found := by
    obtain ⟨present, own⟩ := mirrors.kernels kid k found
    exact ⟨renumberKernel_congr (fun e member => same e.id (own e member)) ▸ present, own⟩
  buffers bid b found := by
    obtain ⟨present, own⟩ := mirrors.buffers bid b found
    exact ⟨renumberBuffer_congr (same b.event.id own) ▸ present, own⟩
  events i below := by
    rw [← same i below, mirrors.events i below]
    rcases found : s₀.getEvent i with _ | e
    · rfl
    · rw [Option.map_some, Option.map_some]
      have place := (mirrors.own i e found).2
      have event : renumberEvent number e = renumberEvent number' e :=
        renumberEvent_congr (by rw [place, same i below])
      rw [event]
  fresh := mirrors.fresh
  own := mirrors.own
  others bid b found none_own := by
    obtain ⟨low, apart⟩ := mirrors.others bid b found none_own
    exact ⟨low, fun i below => same i below ▸ apart i below⟩

theorem newEvent_renumber {j : Nat} (few : s.created + j < 2^32) (fewer : s₀.created ≤ s.created)
    (kernelsIn kernelsOut : List Nat) :
    (⟨uint32 (s.created + j), 0, kernelsIn, kernelsOut, 0⟩ : Event) =
      renumberEvent (extend number s s₀) ⟨uint32 (s₀.created + j), 0, kernelsIn, kernelsOut, 0⟩ := by
  rw [renumberEvent, uint32_of_lt few, uint32_of_lt (by omega), extend_new]

theorem newKernel_renumber (number : Nat → Nat) (few : s.created + 4 ≤ 2^32) (fewer : s₀.created ≤ s.created) (kid : Nat)
    (f : KernelFunction) (inBuffers outBuffers : List Nat) :
    (s.newKernel kid f inBuffers outBuffers).1 =
      renumberKernel (extend number s s₀) (s₀.newKernel kid f inBuffers outBuffers).1 := by
  have event : ∀ j < 4, (⟨uint32 (s.created + j), 0, [kid], [kid], 0⟩ : Event) =
      renumberEvent (extend number s s₀) ⟨uint32 (s₀.created + j), 0, [kid], [kid], 0⟩ :=
    fun j below => newEvent_renumber (by omega) fewer _ _
  simp only [renumberKernel, Kernel.mapEvents, Registry.newKernel, Registry.newEvent, List.map_cons,
    List.map_nil, Kernel.mk.injEq, true_and, and_true]
  refine ⟨event 0 (by omega), ?_⟩
  rw [List.cons.injEq, List.cons.injEq, List.cons.injEq]
  exact ⟨event 1 (by omega), event 2 (by omega), event 3 (by omega), rfl⟩

/-- Some events more have been made. -/
def after (s : Registry) (n : Nat) : Registry := { s with created := s.created + n }

theorem Mirrors.kernel_old {kid : Nat} (mirrors : Mirrors number s s₀) (present : s₀.getKernel kid = some k) :
    s.getKernel kid = some (renumberKernel (extend number s s₀) k) ∧ ∀ e ∈ k.events, e.id < s₀.created := by
  obtain ⟨found, mine⟩ := mirrors.kernels kid k present
  rw [renumberKernel_congr fun e member => (extend_old (mine e member)).symm] at found
  exact ⟨found, mine⟩

theorem Mirrors.buffer_old {bid : Nat} (mirrors : Mirrors number s s₀) (present : s₀.getBuffer bid = some b) :
    s.getBuffer bid = some (renumberBuffer (extend number s s₀) b) ∧ b.event.id < s₀.created := by
  obtain ⟨found, mine⟩ := mirrors.buffers bid b present
  rw [renumberBuffer_congr (extend_old mine).symm] at found
  exact ⟨found, mine⟩

theorem Mirrors.addKernel {kid n : Nat} (mirrors : Mirrors number s s₀)
    (own : (s.getKernel kid).isSome → (s₀.getKernel kid).isSome) (length : k.events.length = n)
    (ids : k.events.map Event.id = (List.range k.events.length).map (s₀.created + ·)) :
    Mirrors (extend number s s₀)
      (((after s n).addKernel kid (renumberKernel (extend number s s₀) k)).addEvents
        (renumberKernel (extend number s s₀) k).events)
      (((after s₀ n).addKernel kid k).addEvents k.events) := by
  subst length
  apply mirrors.add k.events
  · rfl
  · rfl
  · rfl
  · rfl
  · exact ids
  · intro id found entry
    rcases present : s₀.getKernel id with _ | old
    · rcases IdMap.emplace_some entry with before | ⟨rfl, rfl⟩
      · cases present.symm.trans before
      · have absent : s.getKernel id = none := by
          rw [← Option.not_isSome_iff_eq_none]
          intro taken
          simpa [present] using own taken
        exact ⟨IdMap.emplace_new absent, fun e member => (ids_next ids e member).2⟩
    · have kept := IdMap.emplace_old (k := kid) (v := k) present
      obtain rfl := Option.some.inj (entry.symm.trans kept)
      obtain ⟨present', mine⟩ := mirrors.kernel_old present
      exact ⟨IdMap.emplace_old present', fun e member => Nat.lt_add_right _ (mine e member)⟩
  · intro bid found entry
    obtain ⟨present, mine⟩ := mirrors.buffer_old entry
    exact ⟨present, Nat.lt_add_right _ mine⟩
  · exact fun bid b found none_own => ⟨found, none_own⟩

theorem Mirrors.addBuffer {bid : Nat} (mirrors : Mirrors number s s₀)
    (own : (s.getBuffer bid).isSome → (s₀.getBuffer bid).isSome) (id : b.event.id = s₀.created) :
    Mirrors (extend number s s₀)
      (((after s 1).addBuffer bid (renumberBuffer (extend number s s₀) b)).addEvents
        [renumberEvent (extend number s s₀) b.event])
      (((after s₀ 1).addBuffer bid b).addEvents [b.event]) := by
  apply mirrors.add [b.event]
  · rfl
  · rfl
  · rfl
  · rfl
  · simp [id]
  · intro kid found entry
    obtain ⟨present, mine⟩ := mirrors.kernel_old entry
    exact ⟨present, fun e member => Nat.lt_add_right _ (mine e member)⟩
  · intro id' found entry
    rcases present : s₀.getBuffer id' with _ | old
    · rcases IdMap.emplace_some entry with before | ⟨rfl, rfl⟩
      · cases present.symm.trans before
      · have absent : s.getBuffer id' = none := by
          rw [← Option.not_isSome_iff_eq_none]
          intro taken
          simpa [present] using own taken
        refine ⟨IdMap.emplace_new absent, ?_⟩
        rw [id]
        exact Nat.lt_succ_self _
    · have kept := IdMap.emplace_old (k := bid) (v := b) present
      obtain rfl := Option.some.inj (entry.symm.trans kept)
      obtain ⟨present', mine⟩ := mirrors.buffer_old present
      exact ⟨IdMap.emplace_old present', Nat.lt_add_right _ mine⟩
  · intro id' found entry none_own
    have apart : id' ≠ bid := by
      rintro rfl
      rcases present : s₀.getBuffer id' with _ | old
      · cases none_own.symm.trans (IdMap.emplace_new present)
      · cases none_own.symm.trans (IdMap.emplace_old present)
    rw [show ((after s 1).addBuffer bid _).getBuffer id' = s.getBuffer id' from IdMap.emplace_other apart]
      at entry
    rw [show ((after s₀ 1).addBuffer bid b).getBuffer id' = s₀.getBuffer id' from IdMap.emplace_other apart]
      at none_own
    exact ⟨entry, none_own⟩

/-- A registers a kernel in both, or in neither. -/
theorem Mirrors.registerKernel {kid : Nat} (f : KernelFunction) (inBuffers outBuffers : List Nat)
    (mirrors : Mirrors number s s₀) (few : s.created + 4 ≤ 2^32)
    (own : (s.getKernel kid).isSome → (s₀.getKernel kid).isSome) :
    Option.Rel (fun p p₀ => Mirrors (extend number s s₀) p.2 p₀.2 ∧
        ((p.2.getKernel kid).isSome → (p₀.2.getKernel kid).isSome))
      (s.register (.kernel kid f inBuffers outBuffers)) (s₀.register (.kernel kid f inBuffers outBuffers)) := by
  have fewer := mirrors.fewer
  rw [Registry.register, Registry.register, Registry.mangoRegisterKernel, Registry.mangoRegisterKernel]
  by_cases refused : kid = 0 ∨ f.loaded = false
  · rw [if_pos refused, if_pos refused]
    exact .none
  · rw [if_neg refused, if_neg refused, Registry.registerKernel, Registry.registerKernel]
    rcases f.length with _ | length
    · exact .none
    · by_cases void : length = 0
      · simp only [Option.bind_eq_bind, Option.bind_some, if_pos void]
        exact .some ⟨mirrors.congr fun i below => (extend_old below).symm, own⟩
      · simp only [Option.bind_eq_bind, Option.bind_some, if_neg void]
        let k₀ := (s₀.newKernel kid f inBuffers outBuffers).1
        have there : ((((after s₀ 4).addKernel kid k₀).addEvents k₀.events).getKernel kid).isSome :=
          Registry.getKernel_addKernel_isSome kid k₀ k₀.events
        refine .some ⟨?_, fun _ => there⟩
        have made := newKernel_renumber number few fewer kid f inBuffers outBuffers
        change Mirrors _
          (((after s 4).addKernel kid (s.newKernel kid f inBuffers outBuffers).1).addEvents
            (s.newKernel kid f inBuffers outBuffers).1.events)
          (((after s₀ 4).addKernel kid k₀).addEvents k₀.events)
        rw [made]
        apply mirrors.addKernel own rfl
        change (List.range 4).map (fun j => uint32 (s₀.created + j)) = (List.range 4).map _
        apply List.map_congr_left
        intro j member
        rw [List.mem_range] at member
        exact uint32_of_lt (by omega)

theorem Mirrors.registerMemory {bid : Nat} (size : Nat) (mode : BufferType)
    (kernelsIn kernelsOut : List Nat) (mirrors : Mirrors number s s₀) (few : s.created + 1 ≤ 2^32)
    (own : (s.getBuffer bid).isSome → (s₀.getBuffer bid).isSome) :
    Option.Rel (fun p p₀ => Mirrors (extend number s s₀) p.2 p₀.2 ∧
        ((p.2.getBuffer bid).isSome → (p₀.2.getBuffer bid).isSome))
      (s.register (.memory bid size mode kernelsIn kernelsOut))
      (s₀.register (.memory bid size mode kernelsIn kernelsOut)) := by
  have fewer := mirrors.fewer
  rw [Registry.register, Registry.register, Registry.mangoRegisterMemory, Registry.mangoRegisterMemory]
  by_cases refused : bid = 0 ∨ size = 0
  · rw [if_pos refused, if_pos refused]
    exact .none
  · rw [if_neg refused, if_neg refused]
    refine .some ⟨?_, fun _ => Registry.getBuffer_addBuffer_isSome (s := after s₀ 1) bid _ [_]⟩
    let b₀ := (s₀.newBuffer bid (uint32 size) kernelsIn kernelsOut mode).1
    have made : (s.newBuffer bid (uint32 size) kernelsIn kernelsOut mode).1 =
        renumberBuffer (extend number s s₀) b₀ := by
      have event : (⟨uint32 (s.created + 0), 0, kernelsIn, kernelsOut, 0⟩ : Event) =
          renumberEvent (extend number s s₀) ⟨uint32 (s₀.created + 0), 0, kernelsIn, kernelsOut, 0⟩ :=
        newEvent_renumber (by omega) fewer _ _
      rw [renumberBuffer]
      exact congrArg (Buffer.mk bid (uint32 size) mode kernelsIn kernelsOut · 0 0 0) event
    change Mirrors _
      (((after s 1).addBuffer bid (s.newBuffer bid (uint32 size) kernelsIn kernelsOut mode).1).addEvents
        [(s.newBuffer bid (uint32 size) kernelsIn kernelsOut mode).1.event])
      (((after s₀ 1).addBuffer bid b₀).addEvents [b₀.event])
    rw [made]
    exact mirrors.addBuffer own (uint32_of_lt (by omega))

theorem vacant_empty (created : Nat) : Vacant (.empty created) := by
  simp [Vacant, Registry.empty, Registry.getKernel, Registry.getBuffer, Registry.getEvent]

/-- A new context, or none, when A has nothing. -/
theorem Mirrors.void (mirrors : Mirrors number s s₀) (same : t₀.created = s₀.created)
    (vacant : Vacant t₀) : Mirrors number (.empty s.created) t₀ := by
  obtain ⟨kernels, buffers, events⟩ := vacant
  obtain ⟨_, no_buffers, no_events⟩ := vacant_empty s.created
  constructor
  · rw [same]
    exact mirrors.below
  · rw [same]
    exact mirrors.apart
  · rw [same]
    exact mirrors.first
  · rw [same]
    exact mirrors.start
  · rw [same]
    exact mirrors.fewer
  · intro kid k found
    cases (kernels kid).symm.trans found
  · intro bid b found
    cases (buffers bid).symm.trans found
  · intro i _
    rw [no_events, events]
    rfl
  · intro id e found
    cases (no_events id).symm.trans found
  · intro id e found
    cases (events id).symm.trans found
  · intro bid b found
    cases (no_buffers bid).symm.trans found

/-- A releases a buffer in both. -/
theorem Mirrors.deregister {bid : Nat} (mirrors : Mirrors number s s₀)
    (run : s.deregisterBuffer bid = some t) (run₀ : s₀.deregisterBuffer bid = some t₀) :
    Mirrors number t t₀ := by
  obtain ⟨b₀, present₀, rfl⟩ := Registry.deregisterBuffer_some run₀
  obtain ⟨b, present, rfl⟩ := Registry.deregisterBuffer_some run
  obtain ⟨found, mine⟩ := mirrors.buffers bid b₀ present₀
  obtain rfl := Option.some.inj (present.symm.trans found)
  constructor
  · exact mirrors.below
  · exact mirrors.apart
  · exact mirrors.first
  · exact mirrors.start
  · exact mirrors.fewer
  · exact mirrors.kernels
  · intro bid' b' entry
    obtain ⟨other, before⟩ := Registry.getBuffer_removeBuffer.mp entry
    obtain ⟨old, own⟩ := mirrors.buffers bid' b' before
    exact ⟨Registry.getBuffer_removeBuffer.mpr ⟨other, old⟩, own⟩
  · intro i below
    change (s.removeEvent (number b₀.event.id)).getEvent (number i) =
      ((s₀.removeEvent b₀.event.id).getEvent i).map _
    by_cases same : i = b₀.event.id
    · subst same
      rw [Registry.getEvent_removeEvent_self, Registry.getEvent_removeEvent_self]
      rfl
    · have other : number i ≠ number b₀.event.id := fun equal => same (mirrors.apart i below _ mine equal)
      rw [Registry.getEvent_removeEvent_other same, Registry.getEvent_removeEvent_other other]
      exact mirrors.events i below
  · exact fun id e found => mirrors.fresh id e (IdMap.erase_some found).2
  · exact fun id e found => mirrors.own id e (IdMap.erase_some found).2
  · intro bid' b' entry none_own
    obtain ⟨other, before⟩ := Registry.getBuffer_removeBuffer.mp entry
    have none_before : s₀.getBuffer bid' = none := (IdMap.erase_other other).symm.trans none_own
    exact mirrors.others bid' b' before none_before

/-- B releases a buffer that is not A's. -/
theorem Mirrors.deregister_other {bid : Nat} (mirrors : Mirrors number s s₀)
    (run : s.deregisterBuffer bid = some t) (own : s₀.getBuffer bid = none) : Mirrors number t s₀ := by
  obtain ⟨b, present, rfl⟩ := Registry.deregisterBuffer_some run
  obtain ⟨_, apart⟩ := mirrors.others bid b present own
  constructor
  · exact mirrors.below
  · exact mirrors.apart
  · exact mirrors.first
  · exact mirrors.start
  · exact mirrors.fewer
  · exact mirrors.kernels
  · intro bid' b' found
    obtain ⟨old, mine⟩ := mirrors.buffers bid' b' found
    refine ⟨Registry.getBuffer_removeBuffer.mpr ⟨?_, old⟩, mine⟩
    rintro rfl
    cases own.symm.trans found
  · intro i below
    exact (Registry.getEvent_removeEvent_other (apart i below).symm).trans (mirrors.events i below)
  · exact fun id e found => mirrors.fresh id e (IdMap.erase_some found).2
  · exact mirrors.own
  · intro bid' b' entry none_own
    obtain ⟨_, before⟩ := Registry.getBuffer_removeBuffer.mp entry
    exact mirrors.others bid' b' before none_own

theorem Mirrors.getKernel {kid : Nat} (mirrors : Mirrors number s s₀)
    (own : (s.getKernel kid).isSome → (s₀.getKernel kid).isSome) :
    s.getKernel kid = (s₀.getKernel kid).map (renumberKernel number) := by
  rcases present : s₀.getKernel kid with _ | k
  · rw [present] at own
    rw [Option.map_none, ← Option.not_isSome_iff_eq_none]
    exact fun taken => absurd (own taken) (by simp)
  · exact (mirrors.kernels kid k present).1

theorem Mirrors.getBuffer {bid : Nat} (mirrors : Mirrors number s s₀)
    (own : (s.getBuffer bid).isSome → (s₀.getBuffer bid).isSome) :
    s.getBuffer bid = (s₀.getBuffer bid).map (renumberBuffer number) := by
  rcases present : s₀.getBuffer bid with _ | b
  · rw [present] at own
    rw [Option.map_none, ← Option.not_isSome_iff_eq_none]
    exact fun taken => absurd (own taken) (by simp)
  · exact (mirrors.buffers bid b present).1

/-- The first event of the process is A's. -/
theorem Mirrors.getEvent_zero (mirrors : Mirrors number s s₀) :
    s.getEvent 0 = (s₀.getEvent 0).map (renumberEvent number) := by
  by_cases made : s₀.created = 0
  · rw [mirrors.none_next (by rw [mirrors.start made]), mirrors.none_next_own (by rw [made])]
    rfl
  · have here := mirrors.events 0 (by omega)
    rwa [mirrors.first made] at here

theorem Mirrors.empty : Mirrors id (.empty 0) (.empty 0) where
  below i below := absurd below (Nat.not_lt_zero i)
  apart i below := absurd below (Nat.not_lt_zero i)
  first _ := rfl
  start _ := rfl
  fewer := Nat.le_refl _
  kernels kid k found := by simp [Registry.empty, Registry.getKernel] at found
  buffers bid b found := by simp [Registry.empty, Registry.getBuffer] at found
  events i below := absurd below (Nat.not_lt_zero i)
  fresh id e found := by simp [Registry.empty, Registry.getEvent] at found
  own id e found := by simp [Registry.empty, Registry.getEvent] at found
  others bid b found := by simp [Registry.empty, Registry.getBuffer] at found

/-- What a command finds that registers nothing. -/
theorem Mirrors.lookups {command : ClCommand} {events : List Nat} (mirrors : Mirrors number s s₀)
    (nothing : command.makes = 0) (given : ∀ ev ∈ events, ev < s₀.created)
    (kernels : ∀ id ∈ command.kernelIds, (s.getKernel id).isSome → (s₀.getKernel id).isSome)
    (buffers : ∀ id ∈ command.bufferIds, (s.getBuffer id).isSome → (s₀.getBuffer id).isSome) :
    lookups s (events.map number) command = (lookups s₀ events command).map (Found.renumber number) := by
  have kernel : ∀ id ∈ command.kernelIds, s.getKernel id = (s₀.getKernel id).map (renumberKernel number) :=
    fun id named => mirrors.getKernel (kernels id named)
  have buffer : ∀ id ∈ command.bufferIds, s.getBuffer id = (s₀.getBuffer id).map (renumberBuffer number) :=
    fun id named => mirrors.getBuffer (buffers id named)
  cases command with
  | createContext processName recipe => rfl
  | releaseContext => rfl
  | createKernel kernelId f buffersIn buffersOut => cases nothing
  | createBuffer flags size kernelsIn kernelsOut bufferId => cases nothing
  | releaseMemObject id =>
    have b := buffer id List.mem_cons_self
    simp only [OpenCL.lookups, b, List.map_cons, List.map_nil, Found.renumber]
  | setScalarArg id =>
    have k := kernel id List.mem_cons_self
    simp only [OpenCL.lookups, k, List.map_cons, List.map_nil, Found.renumber]
  | setBufferArg id id' =>
    have k := kernel id List.mem_cons_self
    have b := buffer id' List.mem_cons_self
    simp only [OpenCL.lookups, k, b, List.map_cons, List.map_nil, Found.renumber]
  | setEventArg id id' =>
    have k := kernel id List.mem_cons_self
    have b := buffer id' List.mem_cons_self
    have e : ((s₀.getBuffer id').map (renumberBuffer number)).bind (fun b => s.getEvent b.event.id) =
        ((s₀.getBuffer id').bind fun b => s₀.getEvent b.event.id).map (renumberEvent number) := by
      rcases present : s₀.getBuffer id' with _ | b₀
      · rfl
      · exact mirrors.events b₀.event.id (mirrors.buffers id' b₀ present).2
    simp only [OpenCL.lookups, k, b, e, List.map_cons, List.map_nil, Found.renumber]
  | enqueueTask id =>
    have k := kernel id List.mem_cons_self
    simp only [OpenCL.lookups, k, mirrors.getEvent_zero, List.map_cons, List.map_nil, Found.renumber]
  | enqueueWriteBuffer data id =>
    have b := buffer id List.mem_cons_self
    simp only [OpenCL.lookups, b, List.map_cons, List.map_nil, Found.renumber]
  | enqueueReadBuffer id =>
    have b := buffer id List.mem_cons_self
    simp only [OpenCL.lookups, b, List.map_cons, List.map_nil, Found.renumber]
  | waitForEvent place =>
    have e : (events.map number)[place]?.bind s.getEvent =
        (events[place]?.bind s₀.getEvent).map (renumberEvent number) := by
      rw [List.getElem?_map]
      rcases held : events[place]? with _ | ev
      · rfl
      · exact mirrors.events ev (given ev (List.mem_of_getElem? held))
    simp only [OpenCL.lookups, e, List.map_cons, List.map_nil, Found.renumber]

/-- What the lookup of a new object finds; any numbering will do that is right for the events there are
    afterwards. -/
theorem Mirrors.lookups_kernel {kid : Nat} {f : KernelFunction} {inBuffers outBuffers : List Nat}
    {events events₀ : List Nat} (mirrors : Mirrors number s s₀) (few : s.created + 4 ≤ 2^32)
    (own : (s.getKernel kid).isSome → (s₀.getKernel kid).isSome)
    (agree : ∀ answer after, s₀.register (.kernel kid f inBuffers outBuffers) = some (answer, after) →
      ∀ i < after.created, extend number s s₀ i = number' i) :
    OpenCL.lookups s events (.createKernel kid f inBuffers outBuffers) =
      (OpenCL.lookups s₀ events₀ (.createKernel kid f inBuffers outBuffers)).map
        (Found.renumber number') := by
  have both := mirrors.registerKernel f inBuffers outBuffers few own
  rw [OpenCL.lookups, OpenCL.lookups]
  generalize s.register (.kernel kid f inBuffers outBuffers) = made at both ⊢
  generalize s₀.register (.kernel kid f inBuffers outBuffers) = made₀ at both agree ⊢
  cases both with
  | none => rfl
  | some related =>
    have k := (related.1.congr (agree _ _ rfl)).getKernel related.2
    simp only [k, List.map_cons, List.map_nil, Found.renumber]

theorem bufferRegistration_memory {flags size bid : Nat} {kernelsIn kernelsOut : List Nat}
    {r : Registration} (given : bufferRegistration flags size kernelsIn kernelsOut bid = some r) :
    ∃ lists : List Nat × List Nat, r = .memory bid size .BUFFER lists.1 lists.2 := by
  rw [bufferRegistration] at given
  split at given
  · cases given
  · obtain ⟨lists, _, given⟩ := Option.bind_eq_some_iff.mp given
    cases given
    exact ⟨lists, rfl⟩

theorem Mirrors.lookups_buffer {flags size bid : Nat} {kernelsIn kernelsOut : List Nat}
    {events events₀ : List Nat} (mirrors : Mirrors number s s₀) (few : s.created + 1 ≤ 2^32)
    (own : (s.getBuffer bid).isSome → (s₀.getBuffer bid).isSome)
    (agree : ∀ r answer after, bufferRegistration flags size kernelsIn kernelsOut bid = some r →
      s₀.register r = some (answer, after) → ∀ i < after.created, extend number s s₀ i = number' i) :
    OpenCL.lookups s events (.createBuffer flags size kernelsIn kernelsOut bid) =
      (OpenCL.lookups s₀ events₀ (.createBuffer flags size kernelsIn kernelsOut bid)).map
        (Found.renumber number') := by
  rw [OpenCL.lookups, OpenCL.lookups]
  rcases given : bufferRegistration flags size kernelsIn kernelsOut bid with _ | r
  · rfl
  · obtain ⟨lists, rfl⟩ := bufferRegistration_memory given
    have both := mirrors.registerMemory size .BUFFER lists.1 lists.2 few own
    have agreed := fun answer after => agree _ answer after given
    rw [Option.bind_some, Option.bind_some]
    generalize s.register (.memory bid size .BUFFER lists.1 lists.2) = made at both ⊢
    generalize s₀.register (.memory bid size .BUFFER lists.1 lists.2) = made₀ at both agreed ⊢
    cases both with
    | none => rfl
    | some related =>
      have b := (related.1.congr (agreed _ _ rfl)).getBuffer related.2
      simp only [b, List.map_cons, List.map_nil, Found.renumber]

end Mirrors

end MangoModel.OpenCL
