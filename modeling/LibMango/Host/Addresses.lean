import LibMango.Host.Allocation
import LibMango.Host.Arguments

namespace MangoModel.Host

open Fallible

section Growth

/-- A step gives addresses to some kernels' buffers and events, and takes none away. -/
structure Extends (buffers events : Nat → Nat → Prop) (s s' : Mm) : Prop where
  buffers : ∀ kId id, (s'.tlbBuffers kId id).isSome ↔ (s.tlbBuffers kId id).isSome ∨ buffers kId id
  events : ∀ kId id, (s'.tlbEvents kId id).isSome ↔ (s.tlbEvents kId id).isSome ∨ events kId id

def nothing (_ _ : Nat) : Prop := False

variable {α : Type} {outcome : Nat → Bool} {manager : Manager} {tg : TaskGraph} {s s' t : Mm}
  {k : Kernel} {b : Buffer} {e : Event} {kId : Nat}

theorem isSome_update (f : Nat → Nat → Option Nat) (k x addr kId id : Nat) :
    (Function.update f k (Function.update (f k) x (some addr)) kId id).isSome ↔
      (f kId id).isSome ∨ kId = k ∧ id = x := by
  by_cases kernel : kId = k
  · subst kernel
    by_cases object : id = x
    · subst object
      simp
    · simp [object]
  · simp [kernel]

theorem Extends.same (buffers : s'.tlbBuffers = s.tlbBuffers) (events : s'.tlbEvents = s.tlbEvents) :
    Extends nothing nothing s s' := by
  constructor
  · simp [buffers, nothing]
  · simp [events, nothing]

theorem Extends.trans {buffers events buffers' events' : Nat → Nat → Prop}
    (first : Extends buffers events s t) (rest : Extends buffers' events' t s') :
    Extends (fun kId id => buffers kId id ∨ buffers' kId id) (fun kId id => events kId id ∨ events' kId id)
      s s' := by
  constructor
  · intro kId id
    rw [rest.buffers, first.buffers, or_assoc]
  · intro kId id
    rw [rest.events, first.events, or_assoc]

theorem Extends.imp {buffers events buffers' events' : Nat → Nat → Prop} (step : Extends buffers events s s')
    (left : ∀ kId id, buffers kId id ↔ buffers' kId id) (right : ∀ kId id, events kId id ↔ events' kId id) :
    Extends buffers' events' s s' := by
  constructor
  · intro kId id
    rw [step.buffers, left]
  · intro kId id
    rw [step.events, right]

theorem extends_fold {f : Mm → α → Option Mm} {buffers events : α → Nat → Nat → Prop} {items : List α}
    (each : ∀ s item s', f s item = some s' → Extends (buffers item) (events item) s s')
    (run : items.foldlM f s = some s') :
    Extends (fun kId id => ∃ item ∈ items, buffers item kId id)
      (fun kId id => ∃ item ∈ items, events item kId id) s s' := by
  refine foldlM_invariant (motive := fun done t =>
    Extends (fun kId id => ∃ item ∈ done, buffers item kId id)
      (fun kId id => ∃ item ∈ done, events item kId id) s t) (fun done item t t' _ before one => ?_) ?_ run
  · apply (before.trans (each t item t' one)).imp
    all_goals
      intro kId id
      simp only [List.mem_append, List.mem_singleton, or_and_right, exists_or, exists_eq_left]
  · apply (Extends.same rfl rfl).imp
    all_goals
      intro kId id
      simp [nothing]

theorem setVaddrKernel_extends (run : Mm.setVaddrKernel outcome s k = some s') :
    Extends nothing nothing s s' := by
  obtain ⟨unit, _, run⟩ := Option.bind_eq_some_iff.mp run
  obtain ⟨size, _, run⟩ := Option.bind_eq_some_iff.mp run
  have done := (Option.some.inj run).symm
  rcases unit with ⟨id, arch⟩
  cases arch <;> exact done ▸ Extends.same rfl rfl

theorem setBuffTlb_extends (run : s.setBuffTlb outcome manager k b = some s') :
    Extends (fun kId id => kId = k.id ∧ id = b.id) nothing s s' := by
  cases manager with
  | MM =>
    obtain ⟨next, _, run⟩ := Option.bind_eq_some_iff.mp run
    obtain ⟨unit, _, run⟩ := Option.bind_eq_some_iff.mp run
    obtain ⟨entry, _, run⟩ := Option.bind_eq_some_iff.mp run
    cases run
    exact ⟨isSome_update _ _ _ _, fun _ _ => by simp [nothing, Mm.setVirtAddrBuffer, Mm.setTlbKb,
      Mm.hnSetTlb, Mm.setEntries, Mm.setPool]⟩
  | MM_GN =>
    cases run
    exact ⟨isSome_update _ _ _ _, fun _ _ => by simp [nothing, Mm.setVirtAddrBuffer]⟩

theorem setEventTlb_extends (run : s.setEventTlb manager k e = some s') :
    Extends nothing (fun kId id => kId = k.id ∧ id = e.id) s s' := by
  cases manager with
  | MM =>
    obtain ⟨unit, _, run⟩ := Option.bind_eq_some_iff.mp run
    cases run
    exact ⟨fun _ _ => by simp [nothing, Mm.setVirtAddrEvent], isSome_update _ _ _ _⟩
  | MM_GN =>
    cases run
    exact ⟨fun _ _ => by simp [nothing, Mm.setVirtAddrEvent], isSome_update _ _ _ _⟩

theorem mapBuffer_extends (run : s.mapBuffer outcome manager tg b kId = some s') :
    Extends (fun k id => k ≠ 0 ∧ k = kId ∧ id = b.id) nothing s s' := by
  rw [Mm.mapBuffer] at run
  split at run
  · next host =>
    cases run
    refine (Extends.same rfl rfl).imp ?_ fun _ _ => Iff.rfl
    intro k id
    constructor
    · exact False.elim
    · rintro ⟨guest, same, _⟩
      exact guest (same.trans host)
  · next guest =>
    obtain ⟨k, found, one⟩ := Option.bind_eq_some_iff.mp run
    obtain ⟨_, rfl⟩ := TaskGraph.getKernelById_some found
    refine (setBuffTlb_extends one).imp ?_ fun _ _ => Iff.rfl
    intro kId id
    constructor
    · rintro ⟨rfl, same⟩
      exact ⟨guest, rfl, same⟩
    · exact fun both => both.2

theorem mapEvent_extends (run : s.mapEvent manager tg e kId = some s') :
    Extends nothing (fun k id => k ≠ 0 ∧ k = kId ∧ id = e.id) s s' := by
  rw [Mm.mapEvent] at run
  split at run
  · next host =>
    cases run
    apply (Extends.same rfl rfl).imp (fun _ _ => Iff.rfl)
    intro k id
    constructor
    · exact False.elim
    · rintro ⟨guest, same, _⟩
      exact guest (same.trans host)
  · next guest =>
    obtain ⟨k, found, one⟩ := Option.bind_eq_some_iff.mp run
    obtain ⟨_, rfl⟩ := TaskGraph.getKernelById_some found
    apply (setEventTlb_extends one).imp (fun _ _ => Iff.rfl)
    intro kId id
    constructor
    · rintro ⟨rfl, same⟩
      exact ⟨guest, rfl, same⟩
    · exact fun both => both.2

theorem mapEvents_extends (run : s.mapEvents outcome manager k = some s') :
    Extends nothing (fun kId id => ∃ e ∈ k.taskEvents, kId = k.id ∧ id = e.id) s s' := by
  obtain ⟨unit, _, run⟩ := Option.bind_eq_some_iff.mp run
  have given := extends_fold (fun _ _ _ one => setEventTlb_extends one) run
  have call : ∀ t : Mm, t = s ∨ (∃ call, t = s.hnSetTlb outcome call) → Extends nothing nothing s t := by
    rintro t (rfl | ⟨call, rfl⟩) <;> exact Extends.same rfl rfl
  refine ((call _ ?_).trans given).imp ?_ ?_
  · cases Mm.eventTlb k unit with
    | none => exact .inl rfl
    | some call => exact .inr ⟨call, rfl⟩
  · simp [nothing]
  · simp [nothing]

theorem mapBuffers_extends (run : (do
      let s ← b.kernelsIn.foldlM (Mm.mapBuffer outcome manager tg b) s
      b.kernelsOut.foldlM (Mm.mapBuffer outcome manager tg b) s) = some s') :
    Extends (fun kId id => kId ≠ 0 ∧ kId ∈ b.kernelsIn ++ b.kernelsOut ∧ id = b.id) nothing s s' := by
  obtain ⟨t, readers, writers⟩ := Option.bind_eq_some_iff.mp run
  have first := extends_fold (fun _ _ _ one => mapBuffer_extends one) readers
  have second := extends_fold (fun _ _ _ one => mapBuffer_extends one) writers
  apply (first.trans second).imp
  · intro kId id
    simp only [List.mem_append]
    grind
  · simp [nothing]

theorem mapWaits_extends (run : (do
      let s ← e.kernelsIn.foldlM (Mm.mapEvent manager tg e) s
      e.kernelsOut.foldlM (Mm.mapEvent manager tg e) s) = some s') :
    Extends nothing (fun kId id => kId ≠ 0 ∧ kId ∈ e.kernelsIn ++ e.kernelsOut ∧ id = e.id) s s' := by
  obtain ⟨t, readers, writers⟩ := Option.bind_eq_some_iff.mp run
  have first := extends_fold (fun _ _ _ one => mapEvent_extends one) readers
  have second := extends_fold (fun _ _ _ one => mapEvent_extends one) writers
  apply (first.trans second).imp
  · simp [nothing]
  · intro kId id
    simp only [List.mem_append]
    grind

/-- Who gets an address: the readers and writers of each buffer and of each event, and each kernel for
    its task events. -/
theorem setVaddr_extends (run : s.setVaddr outcome manager tg = some s') :
    Extends (fun kId id => ∃ b ∈ tg.buffers, kId ≠ 0 ∧ kId ∈ b.kernelsIn ++ b.kernelsOut ∧ id = b.id)
      (fun kId id => (∃ e ∈ tg.events, kId ≠ 0 ∧ kId ∈ e.kernelsIn ++ e.kernelsOut ∧ id = e.id) ∨
        ∃ k ∈ tg.kernels, ∃ e ∈ k.taskEvents, kId = k.id ∧ id = e.id) s s' := by
  obtain ⟨s₁, kernels, run⟩ := Option.bind_eq_some_iff.mp run
  obtain ⟨s₂, buffers, run⟩ := Option.bind_eq_some_iff.mp run
  obtain ⟨s₃, waits, tasks⟩ := Option.bind_eq_some_iff.mp run
  have start : Extends nothing nothing s { s with entries := fun _ => none } := .same rfl rfl
  have first := extends_fold (fun _ _ _ one => setVaddrKernel_extends one) kernels
  have second := extends_fold (fun _ _ _ one => mapBuffers_extends one) buffers
  have third := extends_fold (fun _ _ _ one => mapWaits_extends one) waits
  have fourth := extends_fold (fun _ _ _ one => mapEvents_extends one) tasks
  apply ((((start.trans first).trans second).trans third).trans fourth).imp
  · simp [nothing]
  · simp [nothing]

end Growth

section Resolution

/-- A kernel's events, and the buffers of a graph that it has in its lists, have addresses. -/
structure AllResolve (tg : TaskGraph) (k : Kernel) (tlb : Tlb) : Prop where
  termination : (tlb.events k.terminationEvent.id).isSome
  tasks : ∀ e ∈ k.taskEvents, (tlb.events e.id).isSome
  buffers : ∀ b ∈ tg.buffers, b.id ∈ k.buffersIn ++ k.buffersOut → (tlb.buffers b.id).isSome

/-- An event of the graph that is the kernel's termination event is for the kernel; or it has an
    address already, or gets one as a task event. -/
def Announced (s : Mm) (tg : TaskGraph) (k : Kernel) : Prop :=
  (s.tlbEvents k.id k.terminationEvent.id).isSome ∨
    (∃ e ∈ tg.events, k.id ∈ e.kernelsIn ++ e.kernelsOut ∧ k.terminationEvent.id = e.id) ∨
    ∃ other ∈ tg.kernels, k.id = other.id ∧ ∃ e ∈ other.taskEvents, k.terminationEvent.id = e.id

/-- The buffers that are in a kernel's lists have the kernel in theirs, or have an address already. -/
def Agreed (s : Mm) (tg : TaskGraph) (k : Kernel) : Prop :=
  ∀ b ∈ tg.buffers, b.id ∈ k.buffersIn ++ k.buffersOut →
    (s.tlbBuffers k.id b.id).isSome ∨ k.id ∈ b.kernelsIn ++ b.kernelsOut

/-- Each buffer that is in a kernel's lists has an address already, or one of its id has the kernel in its
    own lists. -/
def Supplied (s : Mm) (tg : TaskGraph) (k : Kernel) : Prop :=
  ∀ b ∈ tg.buffers, b.id ∈ k.buffersIn ++ k.buffersOut →
    (s.tlbBuffers k.id b.id).isSome ∨ ∃ b' ∈ tg.buffers, k.id ∈ b'.kernelsIn ++ b'.kernelsOut ∧ b.id = b'.id

variable {tg t : TaskGraph} {k : Kernel} {tlb : Tlb} {s : Mm}

theorem supplied_iff_agreed (one : ∀ b ∈ tg.buffers, ∀ b' ∈ tg.buffers, b.id = b'.id → b = b') :
    Supplied s tg k ↔ Agreed s tg k := by
  refine forall₃_congr fun b inside listed => or_congr_right ⟨?_, fun named => ⟨b, inside, named, rfl⟩⟩
  rintro ⟨b', inside', named, same⟩
  rwa [one b inside b' inside' same]

theorem exists_buffer_bare (same : t.bare = tg.bare) (motive : Buffer → Prop) :
    (∃ b ∈ t.buffers, motive b.bare) ↔ ∃ b ∈ tg.buffers, motive b.bare := by
  have lists : ∀ tg : TaskGraph,
      (∃ b ∈ tg.buffers, motive b.bare) ↔ ∃ b ∈ tg.bare.buffers, motive b := by
    simp [TaskGraph.bare]
  rw [lists, lists, same]

theorem exists_event_bare (same : t.bare = tg.bare) (motive : Event → Prop) :
    (∃ e ∈ t.events, motive e.bare) ↔ ∃ e ∈ tg.events, motive e.bare := by
  have lists : ∀ tg : TaskGraph,
      (∃ e ∈ tg.events, motive e.bare) ↔ ∃ e ∈ tg.bare.events, motive e := by
    simp [TaskGraph.bare]
  rw [lists, lists, same]

theorem exists_kernel_bare (same : t.bare = tg.bare) (motive : Kernel → Prop) :
    (∃ k ∈ t.kernels, motive k.bare) ↔ ∃ k ∈ tg.kernels, motive k.bare := by
  have lists : ∀ tg : TaskGraph,
      (∃ k ∈ tg.kernels, motive k.bare) ↔ ∃ k ∈ tg.bare.kernels, motive k := by
    simp [TaskGraph.bare]
  rw [lists, lists, same]

variable {answer : BbqueGraph → BbqueGraph} {outcome : Nat → Bool} {regs : Registers} {r : Allocated}

theorem resourceAllocation_extends (run : resourceAllocation answer outcome tg regs s = some r) :
    Extends (fun kId id => ∃ b ∈ tg.buffers, kId ≠ 0 ∧ kId ∈ b.kernelsIn ++ b.kernelsOut ∧ id = b.id)
      (fun kId id => (∃ e ∈ tg.events, kId ≠ 0 ∧ kId ∈ e.kernelsIn ++ e.kernelsOut ∧ id = e.id) ∨
        ∃ k ∈ tg.kernels, ∃ e ∈ k.taskEvents, kId = k.id ∧ id = e.id) s r.mm := by
  obtain ⟨_, same, first, unit, _, _, mapping⟩ := resourceAllocation_cases run
  have renewed : Extends nothing nothing s s.renew := .same rfl rfl
  apply (renewed.trans (setVaddr_extends mapping)).imp
  · intro kId id
    have moved := exists_buffer_bare same fun b =>
      kId ≠ 0 ∧ kId ∈ b.kernelsIn ++ b.kernelsOut ∧ id = b.id
    exact (or_iff_right (fun absurd => absurd)).trans moved
  · intro kId id
    have waits := exists_event_bare same fun e =>
      kId ≠ 0 ∧ kId ∈ e.kernelsIn ++ e.kernelsOut ∧ id = e.id
    have tasks := exists_kernel_bare same fun k => ∃ e ∈ k.taskEvents, kId = k.id ∧ id = e.id
    simp only [Kernel.bare, Kernel.mapEvents, List.mem_map, exists_exists_and_eq_and] at tasks
    exact (or_iff_right (fun absurd => absurd)).trans (or_congr waits tasks)

theorem resourceAllocation_guest (run : resourceAllocation answer outcome tg regs s = some r)
    (member : k ∈ tg.kernels) : k.id ≠ 0 := by
  obtain ⟨bbqueTg, checked, _⟩ := Option.bind_eq_some_iff.mp run
  rw [toBbque] at checked
  split at checked
  · cases checked
  split at checked
  · cases checked
  · next fine =>
    intro host
    apply fine
    simp only [List.any_eq_true, decide_eq_true_eq]
    exact ⟨k, member, .inr (.inl host)⟩

/-- When a kernel's arguments resolve after an allocation. -/
theorem allResolve_iff (run : resourceAllocation answer outcome tg regs s = some r)
    (member : k ∈ tg.kernels) : AllResolve tg k (r.mm.tlb k) ↔ Announced s tg k ∧ Supplied s tg k := by
  have guest := resourceAllocation_guest run member
  have given := resourceAllocation_extends run
  constructor
  · intro resolve
    constructor
    · rcases (given.events _ _).mp resolve.termination with before | ⟨e, listed, _, named, same⟩ | task
      · exact .inl before
      · exact .inr (.inl ⟨e, listed, named, same⟩)
      · obtain ⟨other, listed, e, mine, same, id⟩ := task
        exact .inr (.inr ⟨other, listed, same, e, mine, id⟩)
    · intro b inside listed
      rcases (given.buffers _ _).mp (resolve.buffers b inside listed) with before | found
      · exact .inl before
      · obtain ⟨b', inside', _, named, same⟩ := found
        exact .inr ⟨b', inside', named, same⟩
  · rintro ⟨announced, supplied⟩
    constructor
    · apply (given.events _ _).mpr
      rcases announced with before | ⟨e, listed, named, same⟩ | ⟨other, listed, same, e, mine, id⟩
      · exact .inl before
      · exact .inr (.inl ⟨e, listed, guest, named, same⟩)
      · exact .inr (.inr ⟨other, listed, e, mine, same, id⟩)
    · intro e mine
      exact (given.events _ _).mpr (.inr (.inr ⟨k, member, e, mine, rfl, rfl⟩))
    · intro b inside listed
      apply (given.buffers _ _).mpr
      rcases supplied b inside listed with before | ⟨b', inside', named, same⟩
      · exact .inl before
      · exact .inr ⟨b', inside', guest, named, same⟩

theorem AllResolve.setup (resolve : AllResolve tg k tlb) {buffers : List Buffer}
    (mine : ∀ b ∈ buffers, b ∈ tg.buffers ∧ b.id ∈ k.buffersIn ++ k.buffersOut) :
    (KernelArguments.setup tlb (buffers.map Arg.ofBuffer) k).isSome := by
  obtain ⟨evArg, termination⟩ : ∃ arg, (Arg.ofEvent k.terminationEvent).setValue tlb = some arg := by
    obtain ⟨addr, found⟩ := Option.isSome_iff_exists.mp resolve.termination
    exact ⟨_, by rw [Arg.ofEvent, Arg.setValue, found]; rfl⟩
  obtain ⟨evArgs, tasks⟩ : ∃ args, (k.taskEvents.mapM fun ev => (Arg.ofEvent ev).setValue tlb) = some args := by
    apply mapM_of_forall
    intro e own
    obtain ⟨addr, found⟩ := Option.isSome_iff_exists.mp (resolve.tasks e own)
    exact ⟨_, by rw [Arg.ofEvent, Arg.setValue, found]; rfl⟩
  obtain ⟨args, given⟩ : ∃ args, (buffers.map Arg.ofBuffer).mapM (Arg.setValue tlb) = some args := by
    apply mapM_of_forall
    intro arg listed
    obtain ⟨b, chosen, rfl⟩ := List.mem_map.mp listed
    obtain ⟨addr, found⟩ := Option.isSome_iff_exists.mp
      (resolve.buffers b (mine b chosen).1 (mine b chosen).2)
    exact ⟨_, by rw [Arg.ofBuffer, Arg.setValue, found]; rfl⟩
  rw [KernelArguments.setup, termination]
  simp [tasks, given]

end Resolution

end MangoModel.Host
