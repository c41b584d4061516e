import LibMango.Host.Usability
import LibMango.Fallible.Owned

namespace MangoModel.Host

open Fallible

section Views

/-- The parts of the memory manager's state: those of a kernel and those of a unit. -/
inductive MmPart where
  | kernel (kId : Nat)
  | unit (id : Nat)
  deriving DecidableEq, Repr

inductive MmView where
  | kernel (pool address : Option Nat) (buffers events : Nat → Option Nat)
  | unit (entry : Option Nat) (calls : List HnTlb)

def Mm.view : MmPart → Mm → MmView
  | .kernel kId, s => .kernel (s.virtualAddressPool kId) (s.virtualAddress kId) (s.tlbBuffers kId) (s.tlbEvents kId)
  | .unit id, s => .unit (s.entries id) (onUnit id s.calls)

/-- An operation that always succeeds, and touches some parts only. -/
def Local (own : Set MmPart) (op : Mm → Mm) : Prop := Within Mm.view own fun s => some (op s)

variable {own : Set MmPart} {op next : Mm → Mm} {kId id addr : Nat}

theorem Local.andThen (first : Local own op) (rest : Local own next) : Local own fun s => next (op s) :=
  Within.bind first rest

theorem local_part {part : MmPart} (mine : part ∈ own)
    (others : ∀ s, ∀ other ≠ part, (op s).view other = s.view other)
    (same : ∀ s t : Mm, s.view part = t.view part → (op s).view part = (op t).view part) : Local own op where
  frame s s' run other outside := by
    cases run
    exact others s other fun it => outside (it ▸ mine)
  inside s t agree := by
    apply Option.Rel.some
    intro other listed
    by_cases it : other = part
    · subst it
      exact same s t (agree other mine)
    · rw [others s other it, others t other it]
      exact agree other listed

/-- An operation on the maps of one kernel. -/
theorem local_kernel (mine : .kernel kId ∈ own)
    (others : ∀ s, ∀ k ≠ kId, (op s).view (.kernel k) = s.view (.kernel k))
    (units : ∀ s id, (op s).view (.unit id) = s.view (.unit id))
    (same : ∀ s t : Mm, s.view (.kernel kId) = t.view (.kernel kId) →
      (op s).view (.kernel kId) = (op t).view (.kernel kId)) : Local own op := by
  apply local_part mine _ same
  intro s part apart
  cases part with
  | kernel k => exact others s k fun it => apart (congrArg MmPart.kernel it)
  | unit id => exact units s id

theorem local_setPool (mine : .kernel kId ∈ own) (addr : Nat) : Local own (Mm.setPool kId addr) := by
  apply local_kernel mine
  · simp +contextual [Mm.view, Mm.setPool]
  · exact fun _ _ => rfl
  · simp +contextual [Mm.view, Mm.setPool]

theorem local_setVirtualAddress (mine : .kernel kId ∈ own) (addr : Nat) :
    Local own (Mm.setVirtualAddress kId addr) := by
  apply local_kernel mine
  · simp +contextual [Mm.view, Mm.setVirtualAddress]
  · exact fun _ _ => rfl
  · simp +contextual [Mm.view, Mm.setVirtualAddress]

theorem local_setVirtAddrBuffer (mine : .kernel kId ∈ own) (b addr : Nat) :
    Local own (Mm.setVirtAddrBuffer kId b addr) := by
  apply local_kernel mine
  · simp +contextual [Mm.view, Mm.setVirtAddrBuffer]
  · exact fun _ _ => rfl
  · simp +contextual [Mm.view, Mm.setVirtAddrBuffer]

theorem local_setVirtAddrEvent (mine : .kernel kId ∈ own) (e addr : Nat) :
    Local own (Mm.setVirtAddrEvent kId e addr) := by
  apply local_kernel mine
  · simp +contextual [Mm.view, Mm.setVirtAddrEvent]
  · exact fun _ _ => rfl
  · simp +contextual [Mm.view, Mm.setVirtAddrEvent]

theorem local_setEntries (mine : .unit id ∈ own) (entry : Nat) : Local own (Mm.setEntries id entry) := by
  apply local_part mine
  · intro s part apart
    cases part with
    | kernel k => rfl
    | unit other =>
      have apart : other ≠ id := fun it => apart (congrArg MmPart.unit it)
      simp [Mm.view, Mm.setEntries, apart]
  · simp +contextual [Mm.view, Mm.setEntries]

theorem local_hnSetTlb (outcome : Nat → Bool) {call : HnTlb} (mine : .unit call.tile ∈ own) :
    Local own (Mm.hnSetTlb outcome call) := by
  apply local_part mine
  · rintro s (k | id) other
    · rfl
    · have apart : call.tile ≠ id := fun same => other (same ▸ rfl)
      simp only [Mm.view, Mm.hnSetTlb, onUnit_append, onUnit_other apart, List.append_nil]
  · simp +contextual [Mm.view, Mm.hnSetTlb, onUnit_append]

end Views

section Steps

variable {own : Set MmPart} {outcome : Nat → Bool} {manager : Manager} {tg tg' : TaskGraph} {k : Kernel}
  {unit : HwUnit} {b : Buffer} {e : Event} {kId : Nat}

/-- The parts of the state that belong to a kernel. -/
def Kernel.parts (k : Kernel) : Set MmPart :=
  {part | part = .kernel k.id ∨ ∃ unit, k.unit = some unit ∧ part = .unit unit.id}

theorem kernel_mem_parts (k : Kernel) : .kernel k.id ∈ k.parts := .inl rfl

theorem unit_mem_parts (placed : k.unit = some unit) : .unit unit.id ∈ k.parts := .inr ⟨unit, placed, rfl⟩

theorem setVaddrKernel_within (outcome : Nat → Bool) (k : Kernel) :
    Within Mm.view k.parts fun s => Mm.setVaddrKernel outcome s k := by
  unfold Mm.setVaddrKernel
  rcases placed : k.unit with _ | ⟨id, arch⟩
  · exact Within.fail
  rcases size : k.kernel.size arch with _ | n
  · simp only [Option.bind_eq_bind, Option.bind_some, size]
    exact Within.fail
  have pool := fun addr => local_setPool (kernel_mem_parts k) addr
  have call : ∀ bank first size entry, Local k.parts (Mm.setTlbKb outcome id bank first size k.phyAddr entry
      k.clusterId) := fun _ _ _ _ => local_hnSetTlb outcome (unit_mem_parts placed)
  have rest := fun first => (local_setVirtualAddress (kernel_mem_parts k) first).andThen
    (local_setEntries (unit_mem_parts placed) TLB_ENTRY_START)
  simp only [Option.bind_eq_bind, Option.bind_some, size]
  cases arch with
  | PEAK => exact ((pool _).andThen (call _ _ _ _)).andThen (rest _)
  | NUP => exact ((pool _).andThen (call _ _ _ _)).andThen (rest _)
  | DCT => exact ((pool _).andThen (call _ _ _ _)).andThen (rest _)
  | _ => exact (call _ _ _ _).andThen (rest _)

theorem setBuffTlb_within (outcome : Nat → Bool) (manager : Manager) (k : Kernel) (b : Buffer) :
    Within Mm.view k.parts fun s => s.setBuffTlb outcome manager k b := by
  cases manager with
  | MM_GN => exact local_setVirtAddrBuffer (kernel_mem_parts k) b.id b.phyAddr
  | MM =>
    unfold Mm.setBuffTlb
    apply Within.read
    · intro s t agree
      exact (MmView.kernel.inj (agree _ (kernel_mem_parts k))).1
    intro next
    have mapped : Within Mm.view k.parts fun s => do
        let unit ← k.unit
        let entry ← s.entries unit.id
        return ((s.setTlbKb outcome unit.id b.memTile next b.size b.phyAddr entry b.clusterId).setEntries
          unit.id (entry + 1)).setPool k.id (Mm.nextVirtualAddress next b.size) := by
      rcases placed : k.unit with _ | unit
      · exact Within.fail
      simp only [Option.bind_eq_bind, Option.bind_some]
      apply Within.read
      · intro s t agree
        exact (MmView.unit.inj (agree _ (unit_mem_parts placed))).1
      intro entry
      have call : Local k.parts (Mm.setTlbKb outcome unit.id b.memTile next b.size b.phyAddr entry b.clusterId) :=
        local_hnSetTlb outcome (unit_mem_parts placed)
      have counted := local_setEntries (unit_mem_parts placed) (entry + 1)
      have pool := local_setPool (kernel_mem_parts k) (Mm.nextVirtualAddress next b.size)
      exact (call.andThen counted).andThen pool
    exact Within.bind (local_setVirtAddrBuffer (kernel_mem_parts k) b.id next) mapped

theorem setEventTlb_within (manager : Manager) (k : Kernel) (e : Event) :
    Within Mm.view k.parts fun s => s.setEventTlb manager k e := by
  cases manager with
  | MM_GN => exact local_setVirtAddrEvent (kernel_mem_parts k) e.id e.phyAddr
  | MM =>
    unfold Mm.setEventTlb
    rcases k.unit with _ | unit
    · exact Within.fail
    · exact local_setVirtAddrEvent (kernel_mem_parts k) e.id _

theorem eventTlb_tile {call : HnTlb} (shared : Mm.eventTlb k unit = some call) : call.tile = unit.id := by
  unfold Mm.eventTlb at shared
  split at shared <;> cases shared <;> rfl

theorem mapEvents_within (outcome : Nat → Bool) (manager : Manager) (k : Kernel) :
    Within Mm.view k.parts fun s => s.mapEvents outcome manager k := by
  unfold Mm.mapEvents
  rcases placed : k.unit with _ | unit
  · exact Within.fail
  have events : Within Mm.view k.parts (k.taskEvents.foldlM (Mm.setEventTlb manager k)) :=
    Within.fold fun e _ => setEventTlb_within manager k e
  rcases shared : Mm.eventTlb k unit with _ | call
  · simpa only [Option.bind_eq_bind, Option.bind_some, shared] using events
  · have mine : .unit call.tile ∈ k.parts := by
      rw [eventTlb_tile shared]
      exact unit_mem_parts placed
    simpa only [Option.bind_eq_bind, Option.bind_some, shared] using Within.bind (local_hnSetTlb outcome mine) events

theorem mapBuffer_within (outcome : Nat → Bool) (manager : Manager) (tg : TaskGraph) (b : Buffer) (kId : Nat) :
    Within Mm.view Set.univ fun s => s.mapBuffer outcome manager tg b kId := by
  unfold Mm.mapBuffer
  by_cases host : kId = 0
  · simpa only [if_pos host] using Within.skip
  · simp only [if_neg host]
    cases tg.getKernelById kId with
    | none => exact Within.fail
    | some k => exact (setBuffTlb_within outcome manager k b).mono (Set.subset_univ _)

theorem mapEvent_within (manager : Manager) (tg : TaskGraph) (e : Event) (kId : Nat) :
    Within Mm.view Set.univ fun s => s.mapEvent manager tg e kId := by
  unfold Mm.mapEvent
  by_cases host : kId = 0
  · simpa only [if_pos host] using Within.skip
  · simp only [if_neg host]
    cases tg.getKernelById kId with
    | none => exact Within.fail
    | some k => exact (setEventTlb_within manager k e).mono (Set.subset_univ _)

theorem setVaddrBuffers_within (outcome : Nat → Bool) (manager : Manager) (tg : TaskGraph) :
    Within Mm.view Set.univ (Mm.setVaddrBuffers outcome manager tg) := by
  apply Within.fold
  intro b _
  apply Within.bind
  · exact Within.fold fun kId _ => mapBuffer_within outcome manager tg b kId
  · exact Within.fold fun kId _ => mapBuffer_within outcome manager tg b kId

theorem waits_within (manager : Manager) (tg : TaskGraph) :
    Within Mm.view Set.univ (tg.events.foldlM fun s e => do
      let s ← e.kernelsIn.foldlM (Mm.mapEvent manager tg e) s
      e.kernelsOut.foldlM (Mm.mapEvent manager tg e) s) := by
  apply Within.fold
  intro e _
  apply Within.bind
  · exact Within.fold fun kId _ => mapEvent_within manager tg e kId
  · exact Within.fold fun kId _ => mapEvent_within manager tg e kId

end Steps

section Orders

variable {tg : TaskGraph} {outcome : Nat → Bool} {manager : Manager} {kernels : List Kernel} {s t : Mm}

/-- Distinct kernels, on distinct units. -/
structure Apart (tg : TaskGraph) : Prop where
  ids : (tg.kernels.map Kernel.id).Nodup
  units : (tg.kernels.map fun k => k.unit.map HwUnit.id).Nodup
  placed : ∀ k ∈ tg.kernels, ∃ unit, k.unit = some unit

theorem Apart.parts (apart : Apart tg) :
    tg.kernels.Pairwise fun k other => Disjoint k.parts other.parts := by
  have ids := List.pairwise_map.mp apart.ids
  have units := List.pairwise_map.mp apart.units
  apply (ids.and units).imp_of_mem
  rintro k other member _ ⟨ids, units⟩
  apply Set.disjoint_left.mpr
  rintro part (rfl | ⟨unit, placed, rfl⟩) (same | ⟨unit', placed', same⟩)
  · exact ids (MmPart.kernel.inj same)
  · cases same
  · cases same
  · rw [placed, placed', Option.map_some, Option.map_some, MmPart.unit.inj same] at units
    exact units rfl

theorem getKernelById_perm (apart : Apart tg) (perm : kernels.Perm tg.kernels) (id : Nat) :
    { tg with kernels := kernels }.getKernelById id = tg.getKernelById id := by
  have unique : ∀ k ∈ tg.kernels, k.id = id → ∀ kernels : List Kernel, kernels.Perm tg.kernels →
      kernels.find? (fun k => k.id = id) = some k := by
    intro k member same kernels perm
    have found : (kernels.find? fun k => k.id = id).isSome :=
      List.find?_isSome.mpr ⟨k, perm.mem_iff.mpr member, by simpa using same⟩
    obtain ⟨other, found⟩ := Option.isSome_iff_exists.mp found
    have listed := perm.mem_iff.mp (List.mem_of_find?_eq_some found)
    have ids : other.id = id := by simpa using List.find?_some found
    rw [found, List.inj_on_of_nodup_map apart.ids listed member (ids.trans same.symm)]
  unfold TaskGraph.getKernelById
  by_cases known : ∃ k ∈ tg.kernels, k.id = id
  · obtain ⟨k, member, same⟩ := known
    rw [unique k member same _ perm, unique k member same _ (List.Perm.refl _)]
  · have absent : ∀ kernels : List Kernel, kernels.Perm tg.kernels →
        kernels.find? (fun k => k.id = id) = none := by
      intro kernels perm
      apply List.find?_eq_none.mpr
      intro k member same
      exact known ⟨k, perm.mem_iff.mp member, by simpa using same⟩
    rw [absent _ perm, absent _ (List.Perm.refl _)]

/-- The addresses do not depend on the order of the kernels, whichever manager gives them. -/
theorem setVaddr_perm (apart : Apart tg) (perm : kernels.Perm tg.kernels) :
    Option.Rel (Same Mm.view) (s.setVaddr outcome manager tg)
      (s.setVaddr outcome manager { tg with kernels := kernels }) := by
  have buffers : ∀ b, Mm.mapBuffer outcome manager { tg with kernels := kernels } b =
      Mm.mapBuffer outcome manager tg b := by
    intro b
    funext s kId
    simp only [Mm.mapBuffer, getKernelById_perm apart perm]
  have events : ∀ e, Mm.mapEvent manager { tg with kernels := kernels } e = Mm.mapEvent manager tg e := by
    intro e
    funext s kId
    simp only [Mm.mapEvent, getKernelById_perm apart perm]
  have parts := apart.parts
  unfold Mm.setVaddr
  apply rel_bind
  · exact foldlM_perm perm.symm (fun k _ => setVaddrKernel_within outcome k) parts fun _ _ => rfl
  intro s₁ t₁ same
  apply rel_bind
  · simp only [Mm.setVaddrBuffers, buffers]
    exact (setVaddrBuffers_within outcome manager tg).respects same
  intro s₂ t₂ same
  unfold Mm.setVaddrEvents
  apply rel_bind
  · simp only [events]
    exact (waits_within manager tg).respects same
  intro s₃ t₃ same
  exact foldlM_perm perm.symm (fun k _ => mapEvents_within outcome manager k) parts same

end Orders

section Managers

variable {tg : TaskGraph} {outcome : Nat → Bool} {manager : Manager} {s s' : Mm} {k other : Kernel} {unit : HwUnit}
  {e : Event} {before : List Event} {kId : Nat}

/-- The address that a manager gives to an event of a kernel. -/
def eventAddress (manager : Manager) (unit : HwUnit) (e : Event) : Nat :=
  match manager with
  | .MM => uint32 (Mm.eventBase unit.arch + e.phyAddr)
  | .MM_GN => e.phyAddr

theorem eventAddress_ne (unit : HwUnit) (e : Event) : eventAddress .MM unit e ≠ eventAddress .MM_GN unit e := by
  have base : 0 < Mm.eventBase unit.arch ∧ Mm.eventBase unit.arch < 2^32 := by
    cases unit.arch <;> decide
  simp only [eventAddress, uint32]
  omega

theorem setEventTlb_eq (placed : k.unit = some unit) (s : Mm) (e : Event) : s.setEventTlb manager k e =
    some (s.setVirtAddrEvent k.id e.id (eventAddress manager unit e)) := by
  cases manager with
  | MM =>
    rw [Mm.setEventTlb, placed]
    rfl
  | MM_GN => rfl

theorem mapEvents_last (placed : k.unit = some unit) (last : k.taskEvents = before ++ [e])
    (run : s.mapEvents outcome manager k = some s') :
    s'.tlbEvents k.id e.id = some (eventAddress manager unit e) := by
  unfold Mm.mapEvents at run
  obtain ⟨unit', _, run⟩ := Option.bind_eq_some_iff.mp run
  rw [last, List.foldlM_append] at run
  obtain ⟨t, _, run⟩ := Option.bind_eq_some_iff.mp run
  obtain ⟨t', one, run⟩ := Option.bind_eq_some_iff.mp run
  cases run
  rw [setEventTlb_eq placed] at one
  cases one
  simp [Mm.setVirtAddrEvent]

theorem Apart.id_ne (apart : Apart tg) (member : k ∈ tg.kernels) (member' : other ∈ tg.kernels)
    (ne : k ≠ other) : k.id ≠ other.id := fun same =>
  ne (List.inj_on_of_nodup_map apart.ids member member' same)

/-- The last task event of a kernel is the last one that the kernel is given an address for. -/
theorem setVaddr_last (apart : Apart tg) (run : s.setVaddr outcome manager tg = some s') (member : k ∈ tg.kernels)
    (placed : k.unit = some unit) (last : k.taskEvents = before ++ [e]) :
    s'.tlbEvents k.id e.id = some (eventAddress manager unit e) := by
  obtain ⟨_, _, run⟩ := Option.bind_eq_some_iff.mp run
  obtain ⟨_, _, run⟩ := Option.bind_eq_some_iff.mp run
  obtain ⟨t, _, run⟩ := Option.bind_eq_some_iff.mp run
  have final : k ∈ tg.kernels → s'.tlbEvents k.id e.id = some (eventAddress manager unit e) := by
    refine foldlM_invariant (motive := fun done t => k ∈ done →
      t.tlbEvents k.id e.id = some (eventAddress manager unit e)) (fun done current t t' within before one => ?_)
      (fun none => by cases none) run
    intro listed
    by_cases mine : k = current
    · subst mine
      exact mapEvents_last placed last one
    · have earlier : k ∈ done := by
        rcases List.mem_append.mp listed with earlier | now
        · exact earlier
        · exact absurd (List.mem_singleton.mp now) mine
      have here : current ∈ tg.kernels := within.subset (by simp)
      have outside : .kernel k.id ∉ current.parts := by
        rintro (same | ⟨_, _, same⟩)
        · exact apart.id_ne member here mine (MmPart.kernel.inj same)
        · cases same
      have frame := (mapEvents_within outcome manager current).frame t t' one _ outside
      rw [(MmView.kernel.inj frame).2.2.2]
      exact before earlier
  exact final member

theorem known_of_lookup {f : Kernel → Option Mm} (run : (if kId = 0 then some s
      else do
        let k ← tg.getKernelById kId
        f k) = some s') (guest : kId ≠ 0) : ∃ k, tg.getKernelById kId = some k := by
  rw [if_neg guest] at run
  obtain ⟨k, found, _⟩ := Option.bind_eq_some_iff.mp run
  exact ⟨k, found⟩

theorem setVaddr_closed (run : s.setVaddr outcome manager tg = some s') : tg.Closed := by
  obtain ⟨s₁, kernels, run⟩ := Option.bind_eq_some_iff.mp run
  obtain ⟨s₂, buffers, run⟩ := Option.bind_eq_some_iff.mp run
  obtain ⟨s₃, waits, _⟩ := Option.bind_eq_some_iff.mp run
  refine ⟨fun k member unit placed => ?_, fun b member kId listed guest => ?_, fun e member kId listed guest => ?_⟩
  · obtain ⟨t, t', one⟩ := foldlM_each kernels k member
    exact (setVaddrKernel_isSome_iff placed).mp ⟨t', one⟩
  · obtain ⟨t, t', one⟩ := foldlM_each buffers b member
    rw [← List.foldlM_append] at one
    obtain ⟨u, u', visit⟩ := foldlM_each one kId listed
    exact known_of_lookup visit guest
  · obtain ⟨t, t', one⟩ := foldlM_each waits e member
    rw [← List.foldlM_append] at one
    obtain ⟨u, u', visit⟩ := foldlM_each one kId listed
    exact known_of_lookup visit guest

/-- The manager for the GN asks nothing more of a graph. -/
theorem setVaddr_gn (apart : Apart tg) (closed : tg.Closed) (outcome : Nat → Bool) (s : Mm) :
    ∃ s', s.setVaddr outcome .MM_GN tg = some s' := by
  have lookup : ∀ (f : Kernel → Mm → Option Mm), (∀ k t, ∃ t', f k t = some t') → ∀ kId t,
      (kId ≠ 0 → ∃ k, tg.getKernelById kId = some k) → ∃ t', (if kId = 0 then some t
        else do
          let k ← tg.getKernelById kId
          f k t) = some t' := by
    intro f total kId t known
    by_cases host : kId = 0
    · exact ⟨t, if_pos host⟩
    · obtain ⟨k, found⟩ := known host
      obtain ⟨t', one⟩ := total k t
      exact ⟨t', by rw [if_neg host, found]; exact one⟩
  obtain ⟨s₁, kernels⟩ : ∃ s₁, s.setVaddrKernels outcome tg = some s₁ := by
    apply foldlM_always
    intro k member t
    obtain ⟨unit, placed⟩ := apart.placed k member
    exact (setVaddrKernel_isSome_iff placed).mpr (closed.loaded k member unit placed)
  obtain ⟨s₂, buffers⟩ : ∃ s₂, s₁.setVaddrBuffers outcome .MM_GN tg = some s₂ := by
    apply foldlM_always
    intro b member t
    rw [← List.foldlM_append]
    apply foldlM_always
    intro kId listed t
    exact lookup (fun k t => t.setBuffTlb outcome .MM_GN k b) (fun k t => ⟨_, rfl⟩) kId t
      (closed.buffers b member kId listed)
  obtain ⟨s₃, waits⟩ : ∃ s₃, (tg.events.foldlM (fun s e => do
      let s ← e.kernelsIn.foldlM (Mm.mapEvent .MM_GN tg e) s
      e.kernelsOut.foldlM (Mm.mapEvent .MM_GN tg e) s) s₂) = some s₃ := by
    apply foldlM_always
    intro e member t
    rw [← List.foldlM_append]
    apply foldlM_always
    intro kId listed t
    exact lookup (fun k t => t.setEventTlb .MM_GN k e) (fun k t => ⟨_, rfl⟩) kId t
      (closed.events e member kId listed)
  obtain ⟨s', tasks⟩ : ∃ s', tg.kernels.foldlM (Mm.mapEvents outcome .MM_GN) s₃ = some s' := by
    apply foldlM_always
    intro k member t
    obtain ⟨unit, placed⟩ := apart.placed k member
    unfold Mm.mapEvents
    rw [placed]
    exact foldlM_always (fun e _ t => ⟨_, rfl⟩) _
  refine ⟨s', ?_⟩
  rw [Mm.setVaddr, kernels]
  change (s₁.setVaddrBuffers outcome .MM_GN tg >>= _) = _
  rw [buffers]
  change (_ >>= fun s => tg.kernels.foldlM (Mm.mapEvents outcome .MM_GN) s) = _
  rw [waits]
  exact tasks

end Managers

section Allocation

variable {answer : BbqueGraph → BbqueGraph} {outcome : Nat → Bool} {tg placed : TaskGraph} {regs regs' : Registers}
  {s : Mm} {k : Kernel} {unit : HwUnit} {kernels : List Kernel}

/-- What `to_bbque`, the resource manager and `from_bbque` make of a graph. -/
def place (answer : BbqueGraph → BbqueGraph) (tg : TaskGraph) (regs : Registers) : Option Placement := do
  let asked ← toBbque tg
  fromBbque (answer asked) tg regs

/-- In every order the kernels of a graph are assigned to the same places. -/
def AssignedAlike (answer : BbqueGraph → BbqueGraph) (tg : TaskGraph) (regs : Registers) (placed : TaskGraph) :
    Prop :=
  ∀ kernels, kernels.Perm tg.kernels → ∃ placedKernels regs', placedKernels.Perm placed.kernels ∧
    placedKernels.map Kernel.id = kernels.map Kernel.id ∧
    place answer { tg with kernels := kernels } regs = some ({ placed with kernels := placedKernels }, regs')

/-- Each kernel has the same addresses for its buffers and events, and the same calls for its unit. -/
def AddressedAlike (kernels : List Kernel) (r r' : Allocated) : Prop :=
  ∀ k ∈ kernels, r.mm.tlbBuffers k.id = r'.mm.tlbBuffers k.id ∧ r.mm.tlbEvents k.id = r'.mm.tlbEvents k.id ∧
    ∀ unit, k.unit = some unit → onUnit unit.id r.mm.calls = onUnit unit.id r'.mm.calls

def managerFor (unit : HwUnit) : Manager := if unit.arch = .GN then .MM_GN else .MM

theorem resourceAllocation_placed (outcome : Nat → Bool) (s : Mm) {p : TaskGraph} {rest : List Kernel}
    (imported : place answer tg regs = some (p, regs')) (first : p.kernels = k :: rest) (assigned : k.unit = some unit) :
    resourceAllocation answer outcome tg regs s =
      (s.renew.setVaddr outcome (managerFor unit) p).map fun mm => ⟨.SUCCESS, p, regs', mm⟩ := by
  obtain ⟨asked, found, imported⟩ := Option.bind_eq_some_iff.mp imported
  rw [resourceAllocation, found]
  simp only [Option.bind_eq_bind, Option.bind_some, imported, first, List.head?_cons, assigned]
  rw [← managerFor]
  cases s.renew.setVaddr outcome (managerFor unit) p <;> rfl

theorem Apart.perm (apart : Apart placed) (perm : kernels.Perm placed.kernels) :
    Apart { placed with kernels := kernels } where
  ids := (perm.map Kernel.id).nodup_iff.mpr apart.ids
  units := (perm.map fun k => k.unit.map HwUnit.id).nodup_iff.mpr apart.units
  placed k member := apart.placed k (perm.mem_iff.mp member)

theorem closed_perm (apart : Apart placed) (perm : kernels.Perm placed.kernels) :
    { placed with kernels := kernels }.Closed ↔ placed.Closed := by
  constructor
  · intro closed
    refine ⟨fun k member => closed.loaded k (perm.mem_iff.mpr member), ?_, ?_⟩
    · intro b member kId listed guest
      rw [← getKernelById_perm apart perm]
      exact closed.buffers b member kId listed guest
    · intro e member kId listed guest
      rw [← getKernelById_perm apart perm]
      exact closed.events e member kId listed guest
  · intro closed
    refine ⟨fun k member => closed.loaded k (perm.mem_iff.mp member), ?_, ?_⟩
    · intro b member kId listed guest
      rw [getKernelById_perm apart perm]
      exact closed.buffers b member kId listed guest
    · intro e member kId listed guest
      rw [getKernelById_perm apart perm]
      exact closed.events e member kId listed guest

/-- Any kernel can be the first of the list. -/
theorem AssignedAlike.first (alike : AssignedAlike answer tg regs placed) (apart : Apart placed)
    (member : k ∈ placed.kernels) : ∃ kernels rest regs', kernels.Perm tg.kernels ∧
      (k :: rest).Perm placed.kernels ∧ place answer { tg with kernels := kernels } regs =
        some ({ placed with kernels := k :: rest }, regs') := by
  obtain ⟨same, _, perm, ids, _⟩ := alike tg.kernels (List.Perm.refl _)
  have known : k.id ∈ tg.kernels.map Kernel.id := by
    rw [← ids]
    exact List.mem_map_of_mem (perm.mem_iff.mpr member)
  obtain ⟨k₀, member₀, id⟩ := List.mem_map.mp known
  obtain ⟨before, after, split⟩ := List.append_of_mem member₀
  have order : (k₀ :: (before ++ after)).Perm tg.kernels := by
    rw [split]
    exact List.perm_middle.symm
  obtain ⟨kernels, regs', perm, ids, imported⟩ := alike _ order
  obtain ⟨first, rest, rfl, id', _⟩ := List.map_eq_cons_iff.mp ids
  obtain rfl : first = k := List.inj_on_of_nodup_map apart.ids (perm.mem_iff.mp List.mem_cons_self) member
    (id'.trans id)
  exact ⟨_, rest, regs', order, perm, imported⟩

theorem last_event (k : Kernel) : ∃ before e, k.taskEvents = before ++ [e] := by
  rcases List.eq_nil_or_concat k.taskEvents with none | ⟨before, e, found⟩
  · have three := k.three
    rw [none] at three
    cases three
  · exact ⟨before, e, by rw [found, List.concat_eq_append]⟩

theorem addressedAlike_of_same {kernels : List Kernel} {r r' : Allocated} (same : Same Mm.view r.mm r'.mm) :
    AddressedAlike kernels r r' := by
  intro k _
  have mine := MmView.kernel.inj (same (.kernel k.id) (Set.mem_univ _))
  have units := fun unit : HwUnit => MmView.unit.inj (same (.unit unit.id) (Set.mem_univ _))
  exact ⟨mine.2.2.1, mine.2.2.2, fun unit _ => (units unit).2⟩

/-- What the allocation does in one order of the kernels. -/
theorem AssignedAlike.run (alike : AssignedAlike answer tg regs placed) (apart : Apart placed)
    (outcome : Nat → Bool) (s : Mm) (order : kernels.Perm tg.kernels) : ∃ placedKernels k unit regs', placedKernels.Perm placed.kernels ∧
      k ∈ placed.kernels ∧ k.unit = some unit ∧
      resourceAllocation answer outcome { tg with kernels := kernels } regs s =
        (s.renew.setVaddr outcome (managerFor unit) { placed with kernels := placedKernels }).map fun mm =>
          ⟨.SUCCESS, { placed with kernels := placedKernels }, regs', mm⟩ := by
  obtain ⟨placedKernels, regs', perm, ids, imported⟩ := alike kernels order
  have inhabited : kernels ≠ [] := by
    rintro rfl
    cases imported
  obtain ⟨k, rest, rfl⟩ : ∃ k rest, placedKernels = k :: rest := by
    apply List.exists_cons_of_ne_nil
    rintro rfl
    exact inhabited (List.map_eq_nil_iff.mp ids.symm)
  have member : k ∈ placed.kernels := perm.mem_iff.mp List.mem_cons_self
  obtain ⟨unit, assigned⟩ := apart.placed k member
  exact ⟨_, k, unit, regs', perm, member, assigned, resourceAllocation_placed _ _ imported rfl assigned⟩

theorem same_order {manager : Manager} {first second : List Kernel} {regs' regs'' : Registers}
    (apart : Apart placed)
    (perm : first.Perm placed.kernels) (perm' : second.Perm placed.kernels) :
    Option.Rel (AddressedAlike placed.kernels)
      ((s.renew.setVaddr outcome manager { placed with kernels := first }).map fun mm =>
        (⟨.SUCCESS, { placed with kernels := first }, regs', mm⟩ : Allocated))
      ((s.renew.setVaddr outcome manager { placed with kernels := second }).map fun mm =>
        (⟨.SUCCESS, { placed with kernels := second }, regs'', mm⟩ : Allocated)) := by
  have related : Option.Rel (Same Mm.view) (s.renew.setVaddr outcome manager { placed with kernels := first })
      (s.renew.setVaddr outcome manager { placed with kernels := second }) :=
    setVaddr_perm (apart.perm perm) (perm'.trans perm.symm)
  revert related
  cases s.renew.setVaddr outcome manager { placed with kernels := first } <;>
    cases s.renew.setVaddr outcome manager { placed with kernels := second } <;> intro related
  · exact .none
  · cases related
  · cases related
  · cases related with
    | some same => exact .some (addressedAlike_of_same same)

/-- The order of the kernels makes no difference exactly where all of them or none is on a GN unit. -/
theorem order_independent_iff (alike : AssignedAlike answer tg regs placed) (apart : Apart placed) :
    (∀ kernels, kernels.Perm tg.kernels → Option.Rel (AddressedAlike placed.kernels)
      (resourceAllocation answer outcome tg regs s)
      (resourceAllocation answer outcome { tg with kernels := kernels } regs s)) ↔
    (∀ k ∈ placed.kernels, ∀ unit, k.unit = some unit → unit.arch = .GN) ∨
      (∀ k ∈ placed.kernels, ∀ unit, k.unit = some unit → unit.arch ≠ .GN) ∨ ¬ placed.Closed := by
  constructor
  · intro same
    by_contra mixed
    simp only [not_or, not_forall, not_not] at mixed
    obtain ⟨⟨k, member, unit, assigned, off⟩, ⟨gn, member', unit', assigned', on⟩, closed⟩ := mixed
    obtain ⟨kernels, rest, regs₁, order, perm, imported⟩ := alike.first apart member
    obtain ⟨kernels', rest', regs₂, order', perm', imported'⟩ := alike.first apart member'
    -- with the GN kernel in front the allocation comes to its end
    obtain ⟨mm', returns⟩ := setVaddr_gn (apart.perm perm') ((closed_perm apart perm').mpr closed) outcome s.renew
    have run' := resourceAllocation_placed outcome s imported' rfl assigned'
    rw [managerFor, if_pos on, returns] at run'
    obtain ⟨r₀, original, first⟩ := rel_some (rel_swap (run' ▸ same kernels' order'))
    have run := resourceAllocation_placed outcome s imported rfl assigned
    rw [managerFor, if_neg off] at run
    have second := same kernels order
    rw [run, original] at second
    obtain ⟨r, last, alike'⟩ := rel_some second
    obtain ⟨mm, returns', rfl⟩ := Option.map_eq_some_iff.mp last
    obtain ⟨before, e, events⟩ := last_event k
    have here := setVaddr_last (apart.perm perm) returns' List.mem_cons_self assigned events
    have there := setVaddr_last (apart.perm perm') returns (perm'.mem_iff.mpr member) assigned events
    have agree : mm.tlbEvents k.id = mm'.tlbEvents k.id := ((alike' k member).2.1).symm.trans (first k member).2.1
    rw [agree, there] at here
    exact eventAddress_ne unit e (Option.some.inj here).symm
  · intro uniform kernels order
    obtain ⟨first, k, unit, regs₁, perm, member, assigned, run⟩ := alike.run apart outcome s (List.Perm.refl _)
    obtain ⟨second, k', unit', regs₂, perm', member', assigned', run'⟩ := alike.run apart outcome s order
    rw [run']
    rw [run]
    have manager : managerFor unit = managerFor unit' ∨ ¬ placed.Closed := by
      rcases uniform with all | none | broken
      · left
        rw [managerFor, managerFor, if_pos (all k member unit assigned), if_pos (all k' member' unit' assigned')]
      · left
        rw [managerFor, managerFor, if_neg (none k member unit assigned), if_neg (none k' member' unit' assigned')]
      · exact .inr broken
    rcases manager with manager | broken
    · rw [manager]
      exact same_order apart perm perm'
    · have stuck : ∀ manager kernels, kernels.Perm placed.kernels →
          s.renew.setVaddr outcome manager { placed with kernels := kernels } = none := by
        intro manager kernels perm
        by_contra returns
        obtain ⟨s', returns⟩ := Option.ne_none_iff_exists'.mp returns
        exact broken ((closed_perm apart perm).mp (setVaddr_closed returns))
      rw [stuck _ _ perm, stuck _ _ perm']
      exact .none

/-- A kernel on a GN unit and one on a DCT unit, both without buffers of their own. -/
def mixedKernels (units : Option HwUnit × Option HwUnit) (places : Nat × Nat) : List Kernel :=
  [{ id := 1, kernel := (KernelFunction.empty.load (fun _ => true) "gn" .GN .BINARY).2
     buffersIn := [1], buffersOut := [], threadCount := 0
     terminationEvent := event 0, taskEvents := [event 1, event 2, event 3]
     unit := units.1, phyAddr := 2^28 * places.1, memTile := places.1, clusterId := 0 },
   { id := 2, kernel := (KernelFunction.empty.load (fun _ => true) "dct" .DCT .HARDWARE).2
     buffersIn := [1], buffersOut := [], threadCount := 0
     terminationEvent := event 4, taskEvents := [event 5, event 6, event 7]
     unit := units.2, phyAddr := 2^28 * places.2, memTile := places.2, clusterId := 0 }]
where
  event (id : Nat) : Event := ⟨id, 0, [1], [1], 0⟩

def mixedGraph : TaskGraph := ⟨mixedKernels (none, none) (0, 0), [], []⟩

def mixedPlaced : TaskGraph := ⟨mixedKernels (some ⟨5, .GN⟩, some ⟨6, .DCT⟩) (1, 2), [], []⟩

def mixedManager : BbqueGraph → BbqueGraph := placeOn fun id => if id = 1 then (5, .GN) else (6, .DCT)

theorem perm_pair_cases {α : Type} {items : List α} {a b : α} (perm : items.Perm [a, b]) :
    items = [a, b] ∨ items = [b, a] := by
  obtain ⟨x, y, rfl⟩ := List.length_eq_two.mp perm.length_eq
  rcases List.mem_cons.mp (perm.mem_iff.mp List.mem_cons_self) with rfl | second
  · obtain rfl := List.singleton_perm_singleton.mp ((List.perm_cons x).mp perm)
    exact .inl rfl
  · obtain rfl := List.mem_singleton.mp second
    obtain rfl := List.singleton_perm_singleton.mp ((List.perm_cons x).mp (perm.trans (List.Perm.swap x a [])))
    exact .inr rfl

theorem mixed_assigned : AssignedAlike mixedManager mixedGraph (fun _ _ => 0) mixedPlaced := by
  intro kernels order
  rcases perm_pair_cases order with rfl | rfl
  · exact ⟨mixedPlaced.kernels, fun _ _ => 0, List.Perm.refl _, rfl, rfl⟩
  · exact ⟨mixedPlaced.kernels.reverse, fun _ _ => 0, List.reverse_perm _, rfl, rfl⟩

theorem mixed_apart : Apart mixedPlaced := ⟨by decide, by decide, by simp [mixedPlaced, mixedKernels]⟩

theorem order_independent_iff_mixed :
    (∀ kernels, kernels.Perm mixedGraph.kernels → Option.Rel (AddressedAlike mixedPlaced.kernels)
      (resourceAllocation mixedManager (fun _ => true) mixedGraph (fun _ _ => 0) .start)
      (resourceAllocation mixedManager (fun _ => true) { mixedGraph with kernels := kernels } (fun _ _ => 0)
        .start)) ↔
    (∀ k ∈ mixedPlaced.kernels, ∀ unit, k.unit = some unit → unit.arch = .GN) ∨
      (∀ k ∈ mixedPlaced.kernels, ∀ unit, k.unit = some unit → unit.arch ≠ .GN) ∨ ¬ mixedPlaced.Closed :=
  order_independent_iff mixed_assigned mixed_apart

/-- With the kernels in the other order the DCT kernel finds its events in its own window. -/
theorem mixed_order_dependent : ¬ ∀ kernels, kernels.Perm mixedGraph.kernels →
    Option.Rel (AddressedAlike mixedPlaced.kernels)
      (resourceAllocation mixedManager (fun _ => true) mixedGraph (fun _ _ => 0) .start)
      (resourceAllocation mixedManager (fun _ => true) { mixedGraph with kernels := kernels } (fun _ _ => 0)
        .start) := by
  intro same
  have given : (resourceAllocation mixedManager (fun _ => true) mixedGraph (fun _ _ => 0) .start).map
      (fun r => r.mm.tlbEvents 2 7) = some (some 0) := by decide
  have given' : (resourceAllocation mixedManager (fun _ => true)
      { mixedGraph with kernels := mixedGraph.kernels.reverse } (fun _ _ => 0) .start).map
      (fun r => r.mm.tlbEvents 2 7) = some (some 0x10000000) := by decide
  obtain ⟨r, run, given⟩ := Option.map_eq_some_iff.mp given
  obtain ⟨r', run', given'⟩ := Option.map_eq_some_iff.mp given'
  have related := same _ (List.reverse_perm _)
  rw [run, run'] at related
  cases related with
  | some alike =>
    have events := congrFun (alike _ (List.mem_cons_of_mem _ List.mem_cons_self)).2.1 7
    change r.mm.tlbEvents 2 7 = r'.mm.tlbEvents 2 7 at events
    rw [given, given'] at events
    cases events

end Allocation

end MangoModel.Host
