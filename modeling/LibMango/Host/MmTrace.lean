import LibMango.Host.Mm
import LibMango.Layout.Bump
import LibMango.Fallible.Loops

namespace MangoModel.Host

open Layout Fallible

section Windows

/-- The architectures whose TLBs the memory manager programs. -/
def UnitType.mapped : UnitType → Bool
  | .PEAK | .NUP | .DCT => true
  | _ => false

def kernelBase : UnitType → Nat
  | .NUP => NUP_TLB_BASE_KERN
  | _ => TLB_BASE_KERN

def bufferBase : UnitType → Nat
  | .NUP => TLB_BASE_SHRD_NUPLUS
  | .DCT => TLB_BASE_SHRD_DCT
  | _ => TLB_BASE_SHRD

theorem bufferBase_aligned (arch : UnitType) : 64 ∣ bufferBase arch := by
  cases arch <;> decide

theorem bufferBase_lt (arch : UnitType) : bufferBase arch < 2^32 := by
  cases arch <;> decide

def kernelTlb (k : Kernel) (unit : HwUnit) : HnTlb where
  tile := unit.id
  entry := TLB_ENTRY_KERNEL
  vaddrIni := kernelBase unit.arch
  vaddrEnd := kernelBase unit.arch + (imageSize unit.arch - 1)
  paddr := k.phyAddr
  target := .memory
  memTile := k.memTile
  clusterId := k.clusterId

/-- The TLB entry of a buffer, for a range of addresses that have not been wrapped to 32 bits. -/
def bufferTlb (unit : HwUnit) (entry : Nat) (p : Range × Buffer) : HnTlb where
  tile := unit.id
  entry := entry
  vaddrIni := uint32 p.1.first
  vaddrEnd := uint32 (uint32 p.1.first + p.1.size + (2^32 - 1))
  paddr := p.2.phyAddr
  target := .memory
  memTile := p.2.memTile
  clusterId := p.2.clusterId

def bufferTlbs (unit : HwUnit) (placed : List (Range × Buffer)) : List HnTlb :=
  placed.mapIdx fun n p => bufferTlb unit (TLB_ENTRY_START + n) p

theorem bufferTlbs_append (unit : HwUnit) (placed : List (Range × Buffer)) (p : Range × Buffer) :
    bufferTlbs unit (placed ++ [p]) =
      bufferTlbs unit placed ++ [bufferTlb unit (TLB_ENTRY_START + placed.length) p] := by
  simp [bufferTlbs, List.mapIdx_concat]

def onUnit (unit : Nat) (calls : List HnTlb) : List HnTlb := calls.filter fun c => c.tile = unit

theorem onUnit_append (unit : Nat) (calls rest : List HnTlb) :
    onUnit unit (calls ++ rest) = onUnit unit calls ++ onUnit unit rest := List.filter_append _ _

theorem onUnit_self {unit : Nat} {call : HnTlb} (same : call.tile = unit) : onUnit unit [call] = [call] := by
  simp [onUnit, same]

theorem onUnit_other {unit : Nat} {call : HnTlb} (other : call.tile ≠ unit) : onUnit unit [call] = [] := by
  simp [onUnit, other]

end Windows

section Visits

/-- The readers and then the writers of each buffer, in the order of the buffers. -/
def TaskGraph.steps (tg : TaskGraph) : List (Nat × Buffer) :=
  tg.buffers.flatMap fun b => (b.kernelsIn ++ b.kernelsOut).map fun kId => (kId, b)

/-- The buffers among some steps that are mapped for a kernel; 0 is the host. -/
def visits (steps : List (Nat × Buffer)) (kId : Nat) : List Buffer :=
  steps.filterMap fun step => if step.1 = kId ∧ kId ≠ 0 then some step.2 else none

variable {tg : TaskGraph} {steps : List (Nat × Buffer)} {kId : Nat} {b : Buffer}

theorem visits_self (guest : kId ≠ 0) : visits (steps ++ [(kId, b)]) kId = visits steps kId ++ [b] := by
  simp [visits, guest]

theorem visits_other {other : Nat} (apart : other ≠ kId ∨ kId = 0) :
    visits (steps ++ [(other, b)]) kId = visits steps kId := by
  have skipped : ¬ (other = kId ∧ kId ≠ 0) := by omega
  simp [visits, skipped]

theorem mem_visits : b ∈ visits tg.steps kId ↔
    b ∈ tg.buffers ∧ (kId ∈ b.kernelsIn ∨ kId ∈ b.kernelsOut) ∧ kId ≠ 0 := by
  simp only [visits, TaskGraph.steps, List.mem_filterMap, List.mem_flatMap, List.mem_map,
    List.mem_append]
  constructor
  · rintro ⟨_, ⟨b', member, kId', lists, rfl⟩, found⟩
    split at found
    · next same =>
      cases found
      exact ⟨member, same.1 ▸ lists, same.2⟩
    · cases found
  · rintro ⟨member, lists, guest⟩
    exact ⟨(kId, b), ⟨b, member, kId, lists, rfl⟩, by simp [guest]⟩

theorem setVaddrBuffers_eq (outcome : Nat → Bool) (manager : Manager) (tg : TaskGraph) (s : Mm) :
    s.setVaddrBuffers outcome manager tg =
      tg.steps.foldlM (fun s step => Mm.mapBuffer outcome manager tg step.2 s step.1) s := by
  unfold Mm.setVaddrBuffers TaskGraph.steps
  generalize tg.buffers = buffers
  induction buffers generalizing s with
  | nil => rfl
  | cons b rest ih =>
    simp only [List.foldlM_cons, List.flatMap_cons, List.foldlM_append, List.foldlM_map,
      List.map_append, bind_assoc, ih]

end Visits

section Steps

variable {outcome : Nat → Bool} {s s' : Mm} {k : Kernel} {unit : HwUnit}

/-- The running address in 32 bits is the one that is never wrapped, modulo `2^32`. -/
theorem nextVirtualAddress_uint32 {next : Nat} (aligned : 64 ∣ next) (size : Nat) :
    Mm.nextVirtualAddress (uint32 next) size = uint32 (next + roundUp 64 size) := by
  have space : 64 ∣ 2^32 := by decide
  have sum : uint32 (uint32 next + size) = (next + size) % 2^32 := Nat.mod_add_mod _ _ _
  have rounded : Mm.nextVirtualAddress (uint32 next) size = roundUp 64 ((next + size) % 2^32) % 2^32 := by
    unfold Mm.nextVirtualAddress roundUp
    rw [sum]
    by_cases whole : (next + size) % 2^32 % 64 = 0
    · rw [if_pos whole, if_neg (not_not.mpr whole), Nat.mod_mod]
    · rw [if_neg whole, if_pos whole]
      rfl
  rw [rounded, roundUp_mod space, roundUp_add aligned]
  rfl

theorem kernelBase_stop {arch : UnitType} (mapped : arch.mapped = true) :
    uint32 (kernelBase arch + imageSize arch + (2^32 - 1)) = kernelBase arch + (imageSize arch - 1) := by
  cases arch <;> first | decide | cases mapped

theorem setTlbKb_kernel (mapped : unit.arch.mapped = true) (s : Mm) :
    s.setTlbKb outcome unit.id k.memTile (kernelBase unit.arch) (imageSize unit.arch) k.phyAddr
      TLB_ENTRY_KERNEL k.clusterId = s.hnSetTlb outcome (kernelTlb k unit) := by
  rw [Mm.setTlbKb, kernelBase_stop mapped]
  rfl

theorem setVaddrKernel_mapped (placed : k.unit = some unit) (mapped : unit.arch.mapped = true)
    (run : Mm.setVaddrKernel outcome s k = some s') :
    s' = ((((s.setPool k.id (bufferBase unit.arch)).hnSetTlb outcome (kernelTlb k unit)).setVirtualAddress
      k.id (kernelBase unit.arch)).setEntries unit.id TLB_ENTRY_START) := by
  rw [← setTlbKb_kernel mapped]
  unfold Mm.setVaddrKernel at run
  rw [placed] at run
  rcases size : k.kernel.size unit.arch with _ | n
  · simp [size] at run
  · have sized := k.kernel.sized _ _ size
    subst sized
    simp only [size, Option.bind_eq_bind, Option.bind_some, Option.pure_def, Option.some.injEq] at run
    rw [← run]
    rcases unit with ⟨id, _ | _ | _ | _⟩ <;> first | rfl | cases mapped

theorem setBuffTlb_mapped {b : Buffer} (placed : k.unit = some unit)
    (run : s.setBuffTlb outcome .MM k b = some s') :
    ∃ next entry, s.virtualAddressPool k.id = some next ∧ s.entries unit.id = some entry ∧
      s' = ((((s.setVirtAddrBuffer k.id b.id next).setTlbKb outcome unit.id b.memTile next b.size b.phyAddr
        entry b.clusterId).setEntries unit.id (entry + 1)).setPool k.id
          (Mm.nextVirtualAddress next b.size)) := by
  unfold Mm.setBuffTlb at run
  obtain ⟨next, pool, run⟩ := Option.bind_eq_some_iff.mp run
  obtain ⟨unit', placed', run⟩ := Option.bind_eq_some_iff.mp run
  obtain rfl : unit = unit' := Option.some.inj (placed.symm.trans placed')
  obtain ⟨entry, entries, run⟩ := Option.bind_eq_some_iff.mp run
  exact ⟨next, entry, pool, entries, (Option.some.inj run).symm⟩

end Steps

section Kernels

/-- Distinct kernels, on distinct units whose TLBs are mapped. -/
structure Assigned (tg : TaskGraph) : Prop where
  ids : (tg.kernels.map Kernel.id).Nodup
  units : (tg.kernels.map fun k => k.unit.map HwUnit.id).Nodup
  mapped : ∀ k ∈ tg.kernels, ∃ unit, k.unit = some unit ∧ unit.arch.mapped = true

variable {tg : TaskGraph} {k other : Kernel} {unit unit' : HwUnit}

theorem Assigned.arch (assigned : Assigned tg) (member : k ∈ tg.kernels) (placed : k.unit = some unit) :
    unit.arch.mapped = true := by
  obtain ⟨unit', placed', mapped⟩ := assigned.mapped k member
  rw [placed] at placed'
  exact Option.some.inj placed' ▸ mapped

theorem Assigned.id_ne (assigned : Assigned tg) (member : k ∈ tg.kernels) (member' : other ∈ tg.kernels)
    (apart : k ≠ other) : k.id ≠ other.id := fun same =>
  apart (List.inj_on_of_nodup_map assigned.ids member member' same)

theorem Assigned.unit_ne (assigned : Assigned tg) (member : k ∈ tg.kernels) (member' : other ∈ tg.kernels)
    (apart : k ≠ other) (placed : k.unit = some unit) (placed' : other.unit = some unit') :
    unit.id ≠ unit'.id := by
  intro same
  refine apart (List.inj_on_of_nodup_map assigned.units member member' ?_)
  rw [placed, placed', Option.map_some, Option.map_some, same]

/-- What the memory manager has done for a kernel for which some buffers have been visited. -/
structure KernelMap (k : Kernel) (unit : HwUnit) (visited : List Buffer) (s : Mm) : Prop where
  pool : s.virtualAddressPool k.id =
    some (uint32 (nextFree 64 Buffer.size (bufferBase unit.arch) visited))
  entries : s.entries unit.id = some (TLB_ENTRY_START + visited.length)
  calls : onUnit unit.id s.calls =
    kernelTlb k unit :: bufferTlbs unit (place 64 Buffer.size (bufferBase unit.arch) visited)
  tlb : ∀ b ∈ visited, ∃ p ∈ place 64 Buffer.size (bufferBase unit.arch) visited,
    p.2.id = b.id ∧ s.tlbBuffers k.id b.id = some (uint32 p.1.first)

variable {outcome : Nat → Bool} {visited : List Buffer} {s s' : Mm} {b : Buffer}

theorem KernelMap.congr (map : KernelMap k unit visited s)
    (pool : s'.virtualAddressPool k.id = s.virtualAddressPool k.id)
    (entries : s'.entries unit.id = s.entries unit.id)
    (calls : onUnit unit.id s'.calls = onUnit unit.id s.calls)
    (tlb : s'.tlbBuffers k.id = s.tlbBuffers k.id) : KernelMap k unit visited s' where
  pool := pool.trans map.pool
  entries := entries.trans map.entries
  calls := calls.trans map.calls
  tlb := by rw [tlb]; exact map.tlb

/-- The invariant of `set_vaddr_kernels`, over the kernels it has been through. -/
structure KernelsMapped (done : List Kernel) (s : Mm) : Prop where
  map : ∀ k ∈ done, ∀ unit, k.unit = some unit → KernelMap k unit [] s
  only : ∀ c ∈ s.calls, ∃ k ∈ done, k.unit.map HwUnit.id = some c.tile

theorem KernelsMapped.step (assigned : Assigned tg) {done : List Kernel}
    (within : done ++ [k] <+: tg.kernels) (kernels : KernelsMapped done s)
    (run : Mm.setVaddrKernel outcome s k = some s') : KernelsMapped (done ++ [k]) s' := by
  have member : k ∈ tg.kernels := within.subset (by simp)
  have distinct : ∀ other ∈ done, other ≠ k := by
    rintro other earlier rfl
    have nodup := (List.Nodup.of_map _ assigned.ids).sublist within.sublist
    exact (List.nodup_append.mp nodup).2.2 other earlier other (by simp) rfl
  obtain ⟨unit, placed, mapped⟩ := assigned.mapped k member
  have after := setVaddrKernel_mapped placed mapped run
  have fresh : onUnit unit.id s.calls = [] := by
    apply List.filter_eq_nil_iff.mpr
    intro c called
    obtain ⟨other, earlier, tile⟩ := kernels.only c called
    intro same
    have member' := within.subset (List.mem_append_left _ earlier)
    refine distinct other earlier (List.inj_on_of_nodup_map assigned.units member' member ?_)
    rw [placed, Option.map_some, tile, of_decide_eq_true same]
  have calls : s'.calls = s.calls ++ [kernelTlb k unit] := by
    rw [after]
    rfl
  refine ⟨fun other earlier unit' placed' => ?_, fun c called => ?_⟩
  · rcases List.mem_append.mp earlier with before | now
    · have apart := distinct other before
      have member' := within.subset earlier
      apply (kernels.map other before unit' placed').congr
      · rw [after]
        exact Function.update_of_ne (assigned.id_ne member' member apart) _ _
      · rw [after]
        exact Function.update_of_ne (assigned.unit_ne member' member apart placed' placed) _ _
      · have tile := assigned.unit_ne member' member apart placed' placed
        rw [calls, onUnit_append, onUnit_other (Ne.symm tile), List.append_nil]
      · rw [after]
        rfl
    · obtain rfl := List.mem_singleton.mp now
      obtain rfl : unit = unit' := Option.some.inj (placed.symm.trans placed')
      refine ⟨?_, ?_, ?_, by simp⟩
      · rw [after, nextFree_nil, uint32_of_lt (bufferBase_lt _)]
        exact Function.update_self _ _ _
      · rw [after]
        exact Function.update_self _ _ _
      · rw [calls, onUnit_append, fresh, List.nil_append]
        exact onUnit_self rfl
  · rw [calls] at called
    rcases List.mem_append.mp called with before | now
    · obtain ⟨other, earlier, tile⟩ := kernels.only c before
      exact ⟨other, List.mem_append_left _ earlier, tile⟩
    · obtain rfl := List.mem_singleton.mp now
      exact ⟨k, by simp, by rw [placed]; rfl⟩

theorem setVaddrKernels_mapped (assigned : Assigned tg) (fresh : s.calls = [])
    (run : s.setVaddrKernels outcome tg = some s') : KernelsMapped tg.kernels s' := by
  refine foldlM_invariant (motive := KernelsMapped) (fun done k s s' within kernels one => ?_) ?_ run
  · exact kernels.step assigned within one
  · refine ⟨fun k none => absurd none List.not_mem_nil, fun c called => ?_⟩
    rw [show s.calls = [] from fresh] at called
    exact absurd called List.not_mem_nil

end Kernels

section Buffers

variable {tg : TaskGraph} {k other : Kernel} {unit unit' : HwUnit} {outcome : Nat → Bool}
  {visited : List Buffer} {s s' : Mm} {b : Buffer}

theorem KernelMap.visit (map : KernelMap k unit visited s) (placed : k.unit = some unit)
    (run : s.setBuffTlb outcome .MM k b = some s') : KernelMap k unit (visited ++ [b]) s' := by
  obtain ⟨next, entry, pool, entries, rfl⟩ := setBuffTlb_mapped placed run
  have next' := Option.some.inj (map.pool.symm.trans pool)
  have entry' := Option.some.inj (map.entries.symm.trans entries)
  subst next' entry'
  have grown : place 64 Buffer.size (bufferBase unit.arch) (visited ++ [b]) =
      place 64 Buffer.size (bufferBase unit.arch) visited ++
        [(⟨nextFree 64 Buffer.size (bufferBase unit.arch) visited, b.size⟩, b)] := place_append _ _
  refine ⟨?_, ?_, ?_, fun b' member => ?_⟩
  · rw [nextFree_append, nextFree_cons, nextFree_nil, ← nextVirtualAddress_uint32]
    · exact Function.update_self _ _ _
    · exact nextFree_dvd (by decide) (bufferBase_aligned _)
  · rw [List.length_append, List.length_singleton, ← Nat.add_assoc]
    exact Function.update_self _ _ _
  · have mine : onUnit unit.id [bufferTlb unit (TLB_ENTRY_START + visited.length)
        (⟨nextFree 64 Buffer.size (bufferBase unit.arch) visited, b.size⟩, b)] = _ := onUnit_self rfl
    rw [grown, bufferTlbs_append, place_length, ← mine, ← List.cons_append, ← map.calls]
    exact onUnit_append _ _ _
  · rw [grown]
    show ∃ p : Range × Buffer, p ∈ _ ∧ p.2.id = b'.id ∧ Function.update s.tlbBuffers k.id
      (Function.update (s.tlbBuffers k.id) b.id (some _)) k.id b'.id = _
    rw [Function.update_self]
    by_cases same : b'.id = b.id
    · refine ⟨_, List.mem_append_right _ (List.mem_singleton_self _), same.symm, ?_⟩
      rw [same, Function.update_self]
    · rcases List.mem_append.mp member with earlier | now
      · obtain ⟨p, mapped, id, addr⟩ := map.tlb b' earlier
        refine ⟨p, List.mem_append_left _ mapped, id, ?_⟩
        rw [Function.update_of_ne same]
        exact addr
      · exact absurd (congrArg Buffer.id (List.mem_singleton.mp now)) same

theorem KernelMap.visit_other (map : KernelMap k unit visited s) (ids : k.id ≠ other.id)
    (units : unit.id ≠ unit'.id) (placed : other.unit = some unit')
    (run : s.setBuffTlb outcome .MM other b = some s') : KernelMap k unit visited s' := by
  obtain ⟨next, entry, _, _, rfl⟩ := setBuffTlb_mapped placed run
  apply map.congr
  · exact Function.update_of_ne ids _ _
  · exact Function.update_of_ne units _ _
  · show onUnit unit.id (s.calls ++ [_]) = _
    rw [onUnit_append, onUnit_other (Ne.symm units), List.append_nil]
  · exact Function.update_of_ne ids _ _

/-- The invariant of `set_vaddr_buffers`, over the visits it has made. -/
def BuffersMapped (tg : TaskGraph) (done : List (Nat × Buffer)) (s : Mm) : Prop :=
  ∀ k ∈ tg.kernels, ∀ unit, k.unit = some unit → KernelMap k unit (visits done k.id) s

theorem BuffersMapped.step (assigned : Assigned tg) {done : List (Nat × Buffer)} {kId : Nat}
    (mapped : BuffersMapped tg done s) (run : s.mapBuffer outcome .MM tg b kId = some s') :
    BuffersMapped tg (done ++ [(kId, b)]) s' := by
  intro k member unit placed
  have before := mapped k member unit placed
  unfold Mm.mapBuffer at run
  split at run
  · next host =>
    cases run
    rw [visits_other (by omega)]
    exact before
  · next guest =>
    obtain ⟨other, found, one⟩ := Option.bind_eq_some_iff.mp run
    obtain ⟨member', same⟩ := TaskGraph.getKernelById_some found
    obtain ⟨unit', placed', _⟩ := assigned.mapped other member'
    subst same
    by_cases mine : k = other
    · subst mine
      rw [visits_self guest]
      exact before.visit placed one
    · rw [visits_other (.inl (Ne.symm (assigned.id_ne member member' mine)))]
      exact before.visit_other (assigned.id_ne member member' mine)
        (assigned.unit_ne member member' mine placed placed') placed' one

theorem setVaddrBuffers_mapped (assigned : Assigned tg) (kernels : KernelsMapped tg.kernels s)
    (run : s.setVaddrBuffers outcome .MM tg = some s') : BuffersMapped tg tg.steps s' := by
  rw [setVaddrBuffers_eq] at run
  refine foldlM_invariant (motive := BuffersMapped tg) (fun done step s s' _ mapped one => ?_) ?_ run
  · exact mapped.step assigned one
  · intro k member unit placed
    exact kernels.map k member unit placed

end Buffers

section Events

variable {tg : TaskGraph} {k : Kernel} {unit : HwUnit} {outcome : Nat → Bool} {s s' : Mm}

def eventsTlb (k : Kernel) (unit : HwUnit) : HnTlb where
  tile := unit.id
  entry := TLB_ENTRY_EVENTS
  vaddrIni := Mm.eventBase unit.arch
  vaddrEnd := Mm.eventBase unit.arch + 0xffffff
  paddr := 0
  target := .registers
  memTile := 0
  clusterId := k.clusterId

theorem eventTlb_mapped (mapped : unit.arch.mapped = true) :
    Mm.eventTlb k unit = some (eventsTlb k unit) := by
  unfold Mm.eventTlb
  rcases unit with ⟨id, _ | _ | _ | _⟩ <;> first | rfl | cases mapped

def SameBuffers (s s' : Mm) : Prop :=
  s'.calls = s.calls ∧ s'.failed = s.failed ∧ s'.tlbBuffers = s.tlbBuffers

theorem SameBuffers.trans {t : Mm} (first : SameBuffers s s') (rest : SameBuffers s' t) : SameBuffers s t :=
  ⟨rest.1.trans first.1, rest.2.1.trans first.2.1, rest.2.2.trans first.2.2⟩

theorem setEventTlb_same {e : Event} (run : s.setEventTlb .MM k e = some s') : SameBuffers s s' := by
  obtain ⟨unit, _, one⟩ := Option.bind_eq_some_iff.mp run
  rw [← Option.some.inj one]
  exact ⟨rfl, rfl, rfl⟩

theorem mapEvent_same {e : Event} {kId : Nat} (run : s.mapEvent .MM tg e kId = some s') :
    SameBuffers s s' := by
  unfold Mm.mapEvent at run
  split at run
  · cases run
    exact ⟨rfl, rfl, rfl⟩
  · obtain ⟨k, _, one⟩ := Option.bind_eq_some_iff.mp run
    exact setEventTlb_same one

theorem foldlM_same {α : Type} {f : Mm → α → Option Mm} {items : List α}
    (each : ∀ s item s', f s item = some s' → SameBuffers s s') (run : items.foldlM f s = some s') :
    SameBuffers s s' :=
  foldlM_invariant (motive := fun _ t => SameBuffers s t)
    (fun _ item t t' _ before one => before.trans (each t item t' one)) ⟨rfl, rfl, rfl⟩ run

theorem mapEvents_mapped (placed : k.unit = some unit) (mapped : unit.arch.mapped = true)
    (run : s.mapEvents outcome .MM k = some s') :
    SameBuffers (s.hnSetTlb outcome (eventsTlb k unit)) s' := by
  unfold Mm.mapEvents at run
  rw [placed] at run
  simp only [Option.bind_eq_bind, Option.bind_some, eventTlb_mapped mapped] at run
  exact foldlM_same (fun t e t' one => setEventTlb_same one) run

/-- The calls for a unit, and the addresses of its kernel's buffers, after all three passes. -/
structure UnitMap (tg : TaskGraph) (k : Kernel) (unit : HwUnit) (s : Mm) : Prop where
  calls : onUnit unit.id s.calls = kernelTlb k unit ::
    (bufferTlbs unit (place 64 Buffer.size (bufferBase unit.arch) (visits tg.steps k.id)) ++
      [eventsTlb k unit])
  tlb : ∀ b ∈ visits tg.steps k.id,
    ∃ p ∈ place 64 Buffer.size (bufferBase unit.arch) (visits tg.steps k.id),
      p.2.id = b.id ∧ s.tlbBuffers k.id b.id = some (uint32 p.1.first)

/-- The invariant of the loop over the kernels, over those it has been through. -/
structure EventsMapped (tg : TaskGraph) (done : List Kernel) (s : Mm) : Prop where
  unit : ∀ k ∈ done, ∀ unit, k.unit = some unit → UnitMap tg k unit s
  ahead : ∀ k ∈ tg.kernels, k ∉ done → ∀ unit, k.unit = some unit →
    onUnit unit.id s.calls = kernelTlb k unit ::
        bufferTlbs unit (place 64 Buffer.size (bufferBase unit.arch) (visits tg.steps k.id)) ∧
      ∀ b ∈ visits tg.steps k.id,
        ∃ p ∈ place 64 Buffer.size (bufferBase unit.arch) (visits tg.steps k.id),
          p.2.id = b.id ∧ s.tlbBuffers k.id b.id = some (uint32 p.1.first)

theorem EventsMapped.step (assigned : Assigned tg) {done : List Kernel}
    (within : done ++ [k] <+: tg.kernels) (events : EventsMapped tg done s)
    (run : s.mapEvents outcome .MM k = some s') : EventsMapped tg (done ++ [k]) s' := by
  have member : k ∈ tg.kernels := within.subset (by simp)
  have fresh : k ∉ done := by
    intro earlier
    have nodup := (List.Nodup.of_map _ assigned.ids).sublist within.sublist
    exact (List.nodup_append.mp nodup).2.2 k earlier k (by simp) rfl
  obtain ⟨unit, placed, mapped⟩ := assigned.mapped k member
  obtain ⟨calls, _, tlb⟩ := mapEvents_mapped placed mapped run
  have calls' : s'.calls = s.calls ++ [eventsTlb k unit] := calls
  have tlb' : s'.tlbBuffers = s.tlbBuffers := tlb
  have others : ∀ other ∈ tg.kernels, other ≠ k → ∀ unit', other.unit = some unit' →
      onUnit unit'.id s'.calls = onUnit unit'.id s.calls := by
    intro other member' apart unit' placed'
    have tile := assigned.unit_ne member' member apart placed' placed
    rw [calls', onUnit_append, onUnit_other (Ne.symm tile), List.append_nil]
  refine ⟨fun other earlier unit' placed' => ?_, fun other member' later unit' placed' => ?_⟩
  · rcases List.mem_append.mp earlier with before | now
    · have apart : other ≠ k := by rintro rfl; exact fresh before
      have old := events.unit other before unit' placed'
      refine ⟨?_, by rw [tlb']; exact old.tlb⟩
      rw [others other (within.subset earlier) apart unit' placed']
      exact old.calls
    · obtain rfl := List.mem_singleton.mp now
      obtain rfl : unit = unit' := Option.some.inj (placed.symm.trans placed')
      obtain ⟨old, addresses⟩ := events.ahead other member fresh unit placed
      refine ⟨?_, by rw [tlb']; exact addresses⟩
      have mine : onUnit unit.id [eventsTlb other unit] = _ := onUnit_self rfl
      rw [calls', onUnit_append, old, mine, List.cons_append]
  · have ahead : other ∉ done := fun earlier => later (List.mem_append_left _ earlier)
    have apart : other ≠ k := by rintro rfl; exact later (by simp)
    have old := events.ahead other member' ahead unit' placed'
    rw [others other member' apart unit' placed', tlb']
    exact old

theorem mapEventLists_same {events : List Event}
    (run : events.foldlM (fun s e => do
      let s ← e.kernelsIn.foldlM (Mm.mapEvent .MM tg e) s
      e.kernelsOut.foldlM (Mm.mapEvent .MM tg e) s) s = some s') : SameBuffers s s' := by
  refine foldlM_same (fun t e t' one => ?_) run
  obtain ⟨t₁, readers, writers⟩ := Option.bind_eq_some_iff.mp one
  exact (foldlM_same (fun _ _ _ one => mapEvent_same one) readers).trans
    (foldlM_same (fun _ _ _ one => mapEvent_same one) writers)

/-- The specification of the three passes: what each unit's TLB is programmed with. -/
theorem setVaddr_mapped (assigned : Assigned tg) (fresh : s.calls = [])
    (run : s.setVaddr outcome .MM tg = some s') :
    ∀ k ∈ tg.kernels, ∀ unit, k.unit = some unit → UnitMap tg k unit s' := by
  obtain ⟨s₁, kernels, run⟩ := Option.bind_eq_some_iff.mp run
  obtain ⟨s₂, buffers, run⟩ := Option.bind_eq_some_iff.mp run
  obtain ⟨s₃, waits, run⟩ := Option.bind_eq_some_iff.mp run
  have mapped := setVaddrBuffers_mapped assigned (setVaddrKernels_mapped assigned fresh kernels) buffers
  obtain ⟨calls, _, tlb⟩ := mapEventLists_same waits
  have events : EventsMapped tg tg.kernels s' := by
    refine foldlM_invariant (motive := EventsMapped tg) (fun done k t t' within before one => ?_) ?_ run
    · exact before.step assigned within one
    · refine ⟨fun k none => absurd none List.not_mem_nil, fun k member _ unit placed => ?_⟩
      have map := mapped k member unit placed
      rw [calls, tlb]
      exact ⟨map.calls, map.tlb⟩
  exact events.unit

end Events

section Success

/-- The kernels' images are loaded for the units they are on, and the lists of the buffers and of
    the events name kernels of the graph, or the host. -/
structure TaskGraph.Closed (tg : TaskGraph) : Prop where
  loaded : ∀ k ∈ tg.kernels, ∀ unit, k.unit = some unit → ∃ n, k.kernel.size unit.arch = some n
  buffers : ∀ b ∈ tg.buffers, ∀ kId ∈ b.kernelsIn ++ b.kernelsOut, kId ≠ 0 →
    ∃ k, tg.getKernelById kId = some k
  events : ∀ e ∈ tg.events, ∀ kId ∈ e.kernelsIn ++ e.kernelsOut, kId ≠ 0 →
    ∃ k, tg.getKernelById kId = some k

variable {tg : TaskGraph} {k : Kernel} {unit : HwUnit} {outcome : Nat → Bool} {s s' : Mm}

theorem setVaddrKernel_isSome_iff (placed : k.unit = some unit) :
    (∃ s', Mm.setVaddrKernel outcome s k = some s') ↔ ∃ n, k.kernel.size unit.arch = some n := by
  unfold Mm.setVaddrKernel
  rw [placed]
  rcases size : k.kernel.size unit.arch with _ | n <;> simp [size]

theorem setBuffTlb_isSome {visited : List Buffer} {b : Buffer} (map : KernelMap k unit visited s)
    (placed : k.unit = some unit) : ∃ s', s.setBuffTlb outcome .MM k b = some s' := by
  have entries : ∀ addr, (s.setVirtAddrBuffer k.id b.id addr).entries unit.id = some _ :=
    fun _ => map.entries
  simp [Mm.setBuffTlb, map.pool, entries, placed]

theorem lookup_isSome_iff {kId : Nat} {f : Kernel → Option Mm}
    (each : ∀ k ∈ tg.kernels, ∃ s', f k = some s') :
    (∃ s', (if kId = 0 then some s else tg.getKernelById kId >>= f) = some s') ↔
      (kId ≠ 0 → ∃ k, tg.getKernelById kId = some k) := by
  by_cases host : kId = 0
  · simp [host]
  · rw [if_neg host]
    constructor
    · rintro ⟨s', run⟩ _
      obtain ⟨k, found, _⟩ := Option.bind_eq_some_iff.mp run
      exact ⟨k, found⟩
    · intro known
      obtain ⟨k, found⟩ := known host
      obtain ⟨s', one⟩ := each k (TaskGraph.getKernelById_some found).1
      exact ⟨s', by rw [found]; exact one⟩

theorem mapBuffer_isSome_iff (assigned : Assigned tg) {done : List (Nat × Buffer)}
    (mapped : BuffersMapped tg done s) {b : Buffer} {kId : Nat} :
    (∃ s', s.mapBuffer outcome .MM tg b kId = some s') ↔
      (kId ≠ 0 → ∃ k, tg.getKernelById kId = some k) := by
  apply lookup_isSome_iff
  intro k member
  obtain ⟨unit, placed, _⟩ := assigned.mapped k member
  exact setBuffTlb_isSome (mapped k member unit placed) placed

theorem setEventTlb_isSome (placed : k.unit = some unit) (s : Mm) (e : Event) :
    ∃ s', s.setEventTlb .MM k e = some s' := by
  simp [Mm.setEventTlb, placed]

theorem mapEvent_isSome_iff (assigned : Assigned tg) {e : Event} {kId : Nat} :
    (∃ s', s.mapEvent .MM tg e kId = some s') ↔
      (kId ≠ 0 → ∃ k, tg.getKernelById kId = some k) := by
  apply lookup_isSome_iff
  intro k member
  obtain ⟨unit, placed, _⟩ := assigned.mapped k member
  exact setEventTlb_isSome placed s e

theorem mapEvents_isSome (placed : k.unit = some unit) :
    ∃ s', s.mapEvents outcome .MM k = some s' := by
  unfold Mm.mapEvents
  rw [placed]
  have each : ∀ (t : Mm) e, (∃ t', t.setEventTlb .MM k e = some t') ↔ True := fun t e =>
    iff_true_intro (setEventTlb_isSome placed t e)
  exact (foldlM_total_iff each).mpr fun _ _ => trivial

theorem mapEventLists_isSome_iff (assigned : Assigned tg) :
    (∃ s', (tg.events.foldlM (fun s e => do
      let s ← e.kernelsIn.foldlM (Mm.mapEvent .MM tg e) s
      e.kernelsOut.foldlM (Mm.mapEvent .MM tg e) s) s) = some s') ↔
    ∀ e ∈ tg.events, ∀ kId ∈ e.kernelsIn ++ e.kernelsOut, kId ≠ 0 →
      ∃ k, tg.getKernelById kId = some k := by
  apply foldlM_total_iff
  intro s e
  rw [← List.foldlM_append]
  exact foldlM_total_iff fun _ _ => mapEvent_isSome_iff assigned

theorem setVaddrKernels_isSome_iff (assigned : Assigned tg) :
    (∃ s', s.setVaddrKernels outcome tg = some s') ↔
      ∀ k ∈ tg.kernels, ∀ unit, k.unit = some unit → ∃ n, k.kernel.size unit.arch = some n := by
  apply foldlM_isSome_iff (motive := fun _ _ => True) (fun _ _ _ _ _ _ _ => trivial) trivial
  intro done k s within _
  obtain ⟨unit, placed, _⟩ := assigned.mapped k (within.subset (by simp))
  rw [setVaddrKernel_isSome_iff placed]
  constructor
  · intro size unit' placed'
    rw [← Option.some.inj (placed.symm.trans placed')]
    exact size
  · intro sizes
    exact sizes unit placed

theorem setVaddrBuffers_isSome_iff (assigned : Assigned tg) (kernels : KernelsMapped tg.kernels s) :
    (∃ s', s.setVaddrBuffers outcome .MM tg = some s') ↔
      ∀ b ∈ tg.buffers, ∀ kId ∈ b.kernelsIn ++ b.kernelsOut, kId ≠ 0 →
        ∃ k, tg.getKernelById kId = some k := by
  have visited : (∃ s', s.setVaddrBuffers outcome .MM tg = some s') ↔
      ∀ step ∈ tg.steps, step.1 ≠ 0 → ∃ k, tg.getKernelById step.1 = some k := by
    rw [setVaddrBuffers_eq]
    refine foldlM_isSome_iff (motive := BuffersMapped tg) (fun done step s s' _ mapped one => ?_) ?_ ?_
    · exact mapped.step assigned one
    · intro k member unit placed
      exact kernels.map k member unit placed
    · intro done step s _ mapped
      exact mapBuffer_isSome_iff assigned mapped
  rw [visited]
  constructor
  · intro all b member kId listed
    exact all (kId, b) (List.mem_flatMap.mpr ⟨b, member, List.mem_map_of_mem listed⟩)
  · intro all step member
    obtain ⟨b, graph, pairs⟩ := List.mem_flatMap.mp member
    obtain ⟨kId, listed, rfl⟩ := List.mem_map.mp pairs
    exact all b graph kId listed

/-- The three passes come to their end on exactly the closed graphs. -/
theorem setVaddr_isSome_iff (assigned : Assigned tg) (fresh : s.calls = []) :
    (∃ s', s.setVaddr outcome .MM tg = some s') ↔ tg.Closed := by
  constructor
  · rintro ⟨s', run⟩
    obtain ⟨s₁, kernels, run⟩ := Option.bind_eq_some_iff.mp run
    obtain ⟨s₂, buffers, run⟩ := Option.bind_eq_some_iff.mp run
    obtain ⟨s₃, waits, _⟩ := Option.bind_eq_some_iff.mp run
    have mapped := setVaddrKernels_mapped assigned fresh kernels
    exact ⟨(setVaddrKernels_isSome_iff assigned).mp ⟨s₁, kernels⟩,
      (setVaddrBuffers_isSome_iff assigned mapped).mp ⟨s₂, buffers⟩,
      (mapEventLists_isSome_iff assigned).mp ⟨s₃, waits⟩⟩
  · intro closed
    obtain ⟨s₁, kernels⟩ := (setVaddrKernels_isSome_iff assigned).mpr closed.loaded
    have mapped := setVaddrKernels_mapped assigned fresh kernels
    obtain ⟨s₂, buffers⟩ := (setVaddrBuffers_isSome_iff assigned mapped).mpr closed.buffers
    obtain ⟨s₃, waits⟩ := (mapEventLists_isSome_iff (s := s₂) assigned).mpr closed.events
    have last : ∃ s', tg.kernels.foldlM (Mm.mapEvents outcome .MM) s₃ = some s' := by
      have each : ∀ done k (t : Mm), done ++ [k] <+: tg.kernels → True →
          ((∃ t', t.mapEvents outcome .MM k = some t') ↔ True) := by
        intro done k t within _
        obtain ⟨unit, placed, _⟩ := assigned.mapped k (within.subset (by simp))
        exact iff_true_intro (mapEvents_isSome placed)
      exact (foldlM_isSome_iff (motive := fun _ _ => True) (fun _ _ _ _ _ _ _ => trivial) trivial
        each).mpr fun _ _ => trivial
    obtain ⟨s', last⟩ := last
    have waits : s₂.setVaddrEvents outcome .MM tg = some s' :=
      Option.bind_eq_some_iff.mpr ⟨s₃, waits, last⟩
    have rest := Option.bind_eq_some_iff.mpr ⟨s₂, buffers, waits⟩
    exact ⟨s', Option.bind_eq_some_iff.mpr ⟨s₁, kernels, rest⟩⟩

end Success

end MangoModel.Host
