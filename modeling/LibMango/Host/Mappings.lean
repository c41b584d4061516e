import LibMango.Host.Allocation
import LibMango.Host.Translation

namespace MangoModel.Host

open Layout Fallible

section Counts

/-- The buffer entries that have been programmed on a unit. -/
def bufferEntries (unit : HwUnit) (s : Mm) : Nat :=
  (onUnit unit.id s.calls).countP fun c => TLB_ENTRY_START ≤ c.entry

def Buffer.lists (b : Buffer) (kId : Nat) : Bool :=
  b.kernelsIn.contains kId || b.kernelsOut.contains kId

/-- How often the loops of `set_vaddr_buffers` come to a kernel that is not the host. -/
def Buffer.turns (b : Buffer) (kId : Nat) : Nat :=
  if kId = 0 then 0 else (b.kernelsIn ++ b.kernelsOut).count kId

variable {tg : TaskGraph} {kId : Nat} {b : Buffer}

theorem lists_iff : b.lists kId ↔ kId ∈ b.kernelsIn ++ b.kernelsOut := by
  simp [Buffer.lists]

theorem visits_length (tg : TaskGraph) (kId : Nat) :
    (visits tg.steps kId).length = (tg.buffers.map fun b => b.turns kId).sum := by
  unfold TaskGraph.steps
  induction tg.buffers with
  | nil => rfl
  | cons b rest ih =>
    have one : ∀ ids : List Nat, (visits (ids.map fun id => (id, b)) kId).length =
        if kId = 0 then 0 else ids.count kId := by
      intro ids
      induction ids with
      | nil => simp [visits]
      | cons id ids counted =>
        by_cases host : kId = 0
        · simp [visits, host]
        · by_cases same : id = kId <;> simp_all [visits]
    rw [List.flatMap_cons, visits, List.filterMap_append, List.length_append, ← visits, ← visits, ih,
      one, List.map_cons, List.sum_cons]
    rfl

theorem lists_le_turns (guest : kId ≠ 0) : (if b.lists kId then 1 else 0) ≤ b.turns kId := by
  split
  · next listed =>
    rw [Buffer.turns, if_neg guest]
    exact List.count_pos_iff.mpr (lists_iff.mp listed)
  · exact Nat.zero_le _

theorem filter_lists_length (b : Buffer) (rest : List Buffer) :
    ((b :: rest).filter fun b => b.lists kId).length =
      (if b.lists kId then 1 else 0) + (rest.filter fun b => b.lists kId).length := by
  rw [List.filter_cons]
  split
  · rw [List.length_cons, Nat.add_comm]
  · rw [Nat.zero_add]

/-- The numbers of visits and of buffers agree exactly where they agree for each buffer. -/
theorem turns_sum_iff (buffers : List Buffer) :
    (buffers.map fun b => b.turns kId).sum = (buffers.filter fun b => b.lists kId).length ↔
      ∀ b ∈ buffers, b.turns kId = if b.lists kId then 1 else 0 := by
  by_cases host : kId = 0
  · have none : (buffers.map fun b => b.turns kId).sum = 0 := by
      simp [Buffer.turns, host]
    rw [none, eq_comm, List.length_eq_zero_iff, List.filter_eq_nil_iff]
    simp [Buffer.turns, host]
  · suffices both : (buffers.filter fun b => b.lists kId).length ≤ (buffers.map fun b => b.turns kId).sum ∧
        ((buffers.map fun b => b.turns kId).sum = (buffers.filter fun b => b.lists kId).length ↔
          ∀ b ∈ buffers, b.turns kId = if b.lists kId then 1 else 0) from both.2
    induction buffers with
    | nil => simp
    | cons b rest ih =>
      have one := lists_le_turns (b := b) host
      rw [List.map_cons, List.sum_cons, filter_lists_length, List.forall_mem_cons, ← ih.2]
      omega

theorem turns_eq_iff : (b.turns kId = if b.lists kId then 1 else 0) ↔
    (b.lists kId → kId ≠ 0 ∧ (b.kernelsIn ++ b.kernelsOut).count kId = 1) := by
  by_cases host : kId = 0
  · simp [Buffer.turns, host]
  · rw [Buffer.turns, if_neg host]
    by_cases listed : b.lists kId
    · simp [listed, host]
    · have absent : kId ∉ b.kernelsIn ++ b.kernelsOut := fun member => listed (lists_iff.mpr member)
      simp [listed, List.count_eq_zero.mpr absent]

theorem mem_steps : (kId, b) ∈ tg.steps ↔ b ∈ tg.buffers ∧ b.lists kId := by
  rw [lists_iff, TaskGraph.steps, List.mem_flatMap]
  constructor
  · rintro ⟨b', member, pairs⟩
    obtain ⟨kId', listed, same⟩ := List.mem_map.mp pairs
    cases same
    exact ⟨member, listed⟩
  · rintro ⟨member, listed⟩
    exact ⟨b, member, List.mem_map_of_mem listed⟩

theorem steps_count (tg : TaskGraph) (kId : Nat) (b : Buffer) : tg.steps.count (kId, b) =
    tg.buffers.count b * (b.kernelsIn ++ b.kernelsOut).count kId := by
  unfold TaskGraph.steps
  induction tg.buffers with
  | nil => simp
  | cons b' rest ih =>
    have one : ∀ ids : List Nat, (ids.map fun id => (id, b')).count (kId, b) =
        if b' = b then ids.count kId else 0 := by
      intro ids
      induction ids with
      | nil => simp
      | cons id ids counted =>
        rw [List.map_cons, List.count_cons, counted]
        by_cases same : b' = b <;> simp [same, List.count_cons]
    rw [List.flatMap_cons, List.count_append, ih, one, List.count_cons]
    by_cases same : b' = b
    · subst same
      simp [Nat.add_mul, Nat.add_comm]
    · simp [same]

end Counts

section Entries

variable {tg : TaskGraph} {k : Kernel} {unit : HwUnit} {outcome : Nat → Bool} {s s₁ s' : Mm}

theorem KernelMap.bufferEntries {visited : List Buffer} (map : KernelMap k unit visited s) :
    bufferEntries unit s = visited.length := by
  have buffers : ∀ c ∈ bufferTlbs unit (place 64 Buffer.size (bufferBase unit.arch) visited),
      TLB_ENTRY_START ≤ c.entry := by
    intro c member
    obtain ⟨n, bound, rfl⟩ := List.mem_mapIdx.mp member
    exact Nat.le_add_right _ _
  rw [Host.bufferEntries, map.calls, List.countP_cons_of_neg (by simp [kernelTlb, TLB_ENTRY_KERNEL, TLB_ENTRY_START]),
    List.countP_eq_length.mpr (by simpa using buffers), bufferTlbs, List.length_mapIdx, place_length]

/-- What the memory manager has done after some visits of `set_vaddr_buffers`. -/
def Mm.visitAll (outcome : Nat → Bool) (tg : TaskGraph) (steps : List (Nat × Buffer)) (s : Mm) : Option Mm :=
  steps.foldlM (fun s step => s.mapBuffer outcome .MM tg step.2 step.1) s

/-- Each buffer that lists the kernel has one entry on its unit, and the address that is recorded
    for it stays to the end of the allocation. -/
structure MappedOnce (outcome : Nat → Bool) (tg : TaskGraph) (k : Kernel) (unit : HwUnit) (s s' : Mm) :
    Prop where
  entries : bufferEntries unit s' = (tg.buffers.filter fun b => b.lists k.id).length
  ranges : ∀ before b after, tg.buffers = before ++ b :: after → ∀ s₁ s₂,
    s.setVaddrBuffers outcome .MM { tg with buffers := before } = some s₁ →
    s.setVaddrBuffers outcome .MM { tg with buffers := before ++ [b] } = some s₂ →
    bufferEntries unit s₂ = bufferEntries unit s₁ + if b.lists k.id then 1 else 0
  kept : ∀ done b later, tg.steps = done ++ (k.id, b) :: later → ∀ s₁,
    s.visitAll outcome tg (done ++ [(k.id, b)]) = some s₁ → s'.tlbBuffers k.id b.id = s₁.tlbBuffers k.id b.id
  events : ∀ s₁, s'.setVaddrEvents outcome .MM tg = some s₁ → s₁.tlbBuffers = s'.tlbBuffers

theorem bufferEntries_eq (assigned : Assigned tg) (kernels : KernelsMapped tg.kernels s)
    (run : s.setVaddrBuffers outcome .MM tg = some s') (member : k ∈ tg.kernels) (placed : k.unit = some unit) :
    bufferEntries unit s' = (tg.buffers.map fun b => b.turns k.id).sum := by
  have map := setVaddrBuffers_mapped assigned kernels run k member unit placed
  rw [map.bufferEntries, visits_length]

theorem setVaddrEvents_tlb (assigned : Assigned tg) (run : s.setVaddrEvents outcome .MM tg = some s') :
    s'.tlbBuffers = s.tlbBuffers := by
  obtain ⟨s₁, waits, run⟩ := Option.bind_eq_some_iff.mp run
  rw [← (mapEventLists_same waits).2.2]
  refine foldlM_invariant (motive := fun _ t => t.tlbBuffers = s₁.tlbBuffers)
    (fun done k t t' within same one => ?_) rfl run
  obtain ⟨unit, placed, mapped⟩ := assigned.mapped k (within.subset (by simp))
  rw [← same]
  exact (mapEvents_mapped placed mapped one).2.2

/-- A visit records an address for its own kernel and buffer only. -/
theorem mapBuffer_tlb (assigned : Assigned tg) {kId kId' : Nat} {b : Buffer} {id : Nat}
    (run : s.mapBuffer outcome .MM tg b kId = some s') (apart : kId' = kId → id ≠ b.id) :
    s'.tlbBuffers kId' id = s.tlbBuffers kId' id := by
  unfold Mm.mapBuffer at run
  split at run
  · cases run
    rfl
  · obtain ⟨other, found, one⟩ := Option.bind_eq_some_iff.mp run
    obtain ⟨member, same⟩ := TaskGraph.getKernelById_some found
    obtain ⟨unit, placed, _⟩ := assigned.mapped other member
    obtain ⟨next, entry, _, _, rfl⟩ := setBuffTlb_mapped placed one
    change Function.update s.tlbBuffers other.id (Function.update (s.tlbBuffers other.id) b.id _) kId' id = _
    by_cases mine : kId' = kId
    · rw [mine, same, Function.update_self, Function.update_of_ne (apart mine)]
    · rw [Function.update_of_ne (by rwa [same])]

theorem visitAll_tlb (assigned : Assigned tg) {later : List (Nat × Buffer)} {kId id : Nat}
    (apart : ∀ step ∈ later, kId = step.1 → id ≠ step.2.id) (run : s.visitAll outcome tg later = some s') :
    s'.tlbBuffers kId id = s.tlbBuffers kId id := by
  refine foldlM_invariant (motive := fun _ t => t.tlbBuffers kId id = s.tlbBuffers kId id)
    (fun done step t t' within same one => ?_) rfl run
  rw [mapBuffer_tlb assigned one (apart step (within.subset (by simp)))]
  exact same

/-- A kernel that a buffer lists once is visited for it once. -/
theorem visited_once (distinct : (tg.buffers.map Buffer.id).Nodup) {kId : Nat} {b : Buffer}
    {done later : List (Nat × Buffer)} (split : tg.steps = done ++ (kId, b) :: later)
    (once : (b.kernelsIn ++ b.kernelsOut).count kId = 1) :
    ∀ step ∈ later, kId = step.1 → b.id ≠ step.2.id := by
  rintro ⟨kId', b'⟩ again rfl same
  have within : ∀ step ∈ (kId, b) :: later, step ∈ tg.steps := by
    intro step member
    rw [split]
    exact List.mem_append_right _ member
  have here : b ∈ tg.buffers := (mem_steps.mp (within _ List.mem_cons_self)).1
  have there : b' ∈ tg.buffers := (mem_steps.mp (within _ (List.mem_cons_of_mem _ again))).1
  obtain rfl : b = b' := List.inj_on_of_nodup_map distinct here there same
  have count := steps_count tg kId b
  have single : tg.buffers.count b ≤ 1 := List.nodup_iff_count_le_one.mp distinct.of_map b
  have twice : 0 < later.count (kId, b) := List.count_pos_iff.mpr again
  rw [split, List.count_append, List.count_cons_self, once] at count
  omega

theorem MappedOnce.of_count (assigned : Assigned tg) (distinct : (tg.buffers.map Buffer.id).Nodup)
    (kernels : KernelsMapped tg.kernels s) (run : s.setVaddrBuffers outcome .MM tg = some s')
    (member : k ∈ tg.kernels) (placed : k.unit = some unit)
    (once : ∀ b ∈ tg.buffers, b.lists k.id → k.id ≠ 0 ∧ (b.kernelsIn ++ b.kernelsOut).count k.id = 1) :
    MappedOnce outcome tg k unit s s' where
  entries := by
    rw [bufferEntries_eq assigned kernels run member placed, turns_sum_iff]
    exact fun b listed => turns_eq_iff.mpr (once b listed)
  ranges := by
    intro before b after split s₁ s₂ first second
    have here : b ∈ tg.buffers := by simp [split]
    have sum : ∀ part t, s.setVaddrBuffers outcome .MM { tg with buffers := part } = some t →
        bufferEntries unit t = (part.map fun b => b.turns k.id).sum := by
      intro part t run
      have assigned' : Assigned { tg with buffers := part } := ⟨assigned.ids, assigned.units, assigned.mapped⟩
      exact bufferEntries_eq assigned' kernels run member placed
    rw [sum _ _ first, sum _ _ second, List.map_append, List.sum_append, List.map_singleton,
      List.sum_singleton, turns_eq_iff.mpr (once b here)]
  kept := by
    intro done b later split s₁ visited
    have listed : b ∈ tg.buffers ∧ b.lists k.id := mem_steps.mp (split ▸ by simp)
    have rest : s₁.visitAll outcome tg later = some s' := by
      rw [setVaddrBuffers_eq, split, List.append_cons, List.foldlM_append] at run
      obtain ⟨s₂, visited', run⟩ := Option.bind_eq_some_iff.mp run
      cases visited.symm.trans visited'
      exact run
    exact visitAll_tlb assigned (visited_once distinct split (once b listed.1 listed.2).2) rest
  events _ run := setVaddrEvents_tlb assigned run

/-- The kernels' images are loaded for their units, and the buffers name kernels of the graph. -/
structure TaskGraph.Mappable (tg : TaskGraph) : Prop where
  loaded : ∀ k ∈ tg.kernels, ∀ unit, k.unit = some unit → ∃ n, k.kernel.size unit.arch = some n
  buffers : ∀ b ∈ tg.buffers, ∀ kId ∈ b.kernelsIn ++ b.kernelsOut, kId ≠ 0 →
    ∃ k, tg.getKernelById kId = some k

/-- A new memory manager maps the kernels and the buffers of exactly the graphs it finds complete, and
    it maps each buffer of each kernel once exactly when no buffer lists a kernel twice. -/
theorem mapped_once_iff (outcome : Nat → Bool) (s : Mm) (assigned : Assigned tg)
    (distinct : (tg.buffers.map Buffer.id).Nodup) :
    ((∃ s₁ s', s.renew.setVaddrKernels outcome tg = some s₁ ∧
      s₁.setVaddrBuffers outcome .MM tg = some s') ↔ tg.Mappable) ∧
    ∀ s₁ s', s.renew.setVaddrKernels outcome tg = some s₁ → s₁.setVaddrBuffers outcome .MM tg = some s' →
      ((∀ k ∈ tg.kernels, ∀ unit, k.unit = some unit → MappedOnce outcome tg k unit s₁ s') ↔
        ∀ k ∈ tg.kernels, ∀ b ∈ tg.buffers, b.lists k.id →
          k.id ≠ 0 ∧ (b.kernelsIn ++ b.kernelsOut).count k.id = 1) := by
  have renewed : s.renew.calls = [] := rfl
  constructor
  · constructor
    · rintro ⟨s₁, s', kernels, buffers⟩
      have mapped := setVaddrKernels_mapped assigned renewed kernels
      constructor
      · exact (setVaddrKernels_isSome_iff assigned).mp ⟨s₁, kernels⟩
      · exact (setVaddrBuffers_isSome_iff assigned mapped).mp ⟨s', buffers⟩
    · intro mappable
      obtain ⟨s₁, kernels⟩ := (setVaddrKernels_isSome_iff assigned).mpr mappable.loaded
      have mapped := setVaddrKernels_mapped assigned renewed kernels
      obtain ⟨s', buffers⟩ := (setVaddrBuffers_isSome_iff assigned mapped).mpr mappable.buffers
      exact ⟨s₁, s', kernels, buffers⟩
  · intro s₁ s' kernels buffers
    have mapped := setVaddrKernels_mapped assigned renewed kernels
    constructor
    · intro once k member
      obtain ⟨unit, placed, _⟩ := assigned.mapped k member
      have entries := (once k member unit placed).entries
      rw [bufferEntries_eq assigned mapped buffers member placed, turns_sum_iff] at entries
      exact fun b here => turns_eq_iff.mp (entries b here)
    · intro once k member unit placed
      exact MappedOnce.of_count assigned distinct mapped buffers member placed (once k member)

theorem mapped_once_iff_two_kernels :
    ((∃ s₁ s', Mm.start.renew.setVaddrKernels (fun _ => true) twoKernels = some s₁ ∧
      s₁.setVaddrBuffers (fun _ => true) .MM twoKernels = some s') ↔ twoKernels.Mappable) ∧
    ∀ s₁ s', Mm.start.renew.setVaddrKernels (fun _ => true) twoKernels = some s₁ →
      s₁.setVaddrBuffers (fun _ => true) .MM twoKernels = some s' →
      ((∀ k ∈ twoKernels.kernels, ∀ unit, k.unit = some unit →
        MappedOnce (fun _ => true) twoKernels k unit s₁ s') ↔
        ∀ k ∈ twoKernels.kernels, ∀ b ∈ twoKernels.buffers, b.lists k.id →
          k.id ≠ 0 ∧ (b.kernelsIn ++ b.kernelsOut).count k.id = 1) := by
  apply mapped_once_iff _ _ _ (by decide)
  exact ⟨by decide, by decide, by simp [twoKernels, UnitType.mapped]⟩

/-- The buffer that the first kernel updates in place has two entries on its unit. -/
theorem updated_buffer_mapped_twice :
    ∃ s₁ s', Mm.start.renew.setVaddrKernels (fun _ => true) twoKernels = some s₁ ∧
      s₁.setVaddrBuffers (fun _ => true) .MM twoKernels = some s' ∧
      ¬ ∀ k ∈ twoKernels.kernels, ∀ unit, k.unit = some unit →
        MappedOnce (fun _ => true) twoKernels k unit s₁ s' := by
  have counted : (do
      let s₁ ← Mm.start.renew.setVaddrKernels (fun _ => true) twoKernels
      let s' ← s₁.setVaddrBuffers (fun _ => true) .MM twoKernels
      return bufferEntries ⟨5, .PEAK⟩ s') = some 3 := by decide
  obtain ⟨s₁, kernels, counted⟩ := Option.bind_eq_some_iff.mp counted
  obtain ⟨s', buffers, counted⟩ := Option.bind_eq_some_iff.mp counted
  refine ⟨s₁, s', kernels, buffers, fun once => ?_⟩
  have entries := (once _ List.mem_cons_self ⟨5, .PEAK⟩ rfl).entries
  rw [Option.some.inj counted] at entries
  exact absurd entries (by decide)

end Entries

end MangoModel.Host
