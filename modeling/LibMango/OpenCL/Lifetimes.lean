import LibMango.Fallible.Ends
import LibMango.OpenCL.Objects
import LibMango.OpenCL.Upright

namespace MangoModel.OpenCL

open Host Fallible

section Tables

variable {α : Type} {table : Nat → Option α} {a b : Nat} {x y : α}

theorem update_some : Function.update table a (some x) b = some y ↔
    b = a ∧ x = y ∨ b ≠ a ∧ table b = some y := by
  by_cases same : b = a
  · subst same
    simp
  · simp [same]

theorem update_none : Function.update table a none b = some y ↔ b ≠ a ∧ table b = some y := by
  by_cases same : b = a
  · subst same
    simp
  · simp [same]

theorem isSome_update (present : (table b).isSome) : (Function.update table a (some x) b).isSome := by
  by_cases same : b = a
  · subst same
    simp
  · rwa [Function.update_of_ne same]

theorem isSome_update_self : (Function.update table a (some x) a).isSome := by simp

theorem isSome_delete (apart : b ≠ a) (present : (table b).isSome) :
    (Function.update table a none b).isSome := by
  rwa [Function.update_of_ne apart]

theorem isSome_of_eq (found : table a = some x) : (table a).isSome := by rw [found]; rfl

end Tables

section Invariant

variable {devices : Nat → List Nat} {w w' : Objects} {q : LiveQueue} {address : Nat}

def Objects.Has (w : Objects) : Handle → Prop
  | .queue address => (w.queues address).isSome
  | .kernel address => (w.kernels address).isSome
  | .mem address => (w.mems address).isSome
  | .event address => (w.events address).isSome

theorem Objects.Has.mono {handle : Handle} (has : w.Has handle)
    (queues : ∀ a, handle = .queue a → (w.queues a).isSome → (w'.queues a).isSome)
    (kernels : ∀ a, handle = .kernel a → (w.kernels a).isSome → (w'.kernels a).isSome)
    (mems : ∀ a, handle = .mem a → (w.mems a).isSome → (w'.mems a).isSome)
    (events : ∀ a, handle = .event a → (w.events a).isSome → (w'.events a).isSome) : w'.Has handle := by
  cases handle with
  | queue a => exact queues a rfl has
  | kernel a => exact kernels a rfl has
  | mem a => exact mems a rfl has
  | event a => exact events a rfl has

/-- What the client holds and what the objects point to is live; queues and memory objects are the
    client's; and the runtime has what the objects refer to by id. -/
structure Objects.Kept (w : Objects) : Prop where
  upright : Upright w.registry
  fresh : ∀ address, w.next ≤ address → w.queues address = none
  held : ∀ handle ∈ w.held, w.Has handle
  queues : ∀ address q, w.queues address = some q → .queue address ∈ w.held
  context : ∀ c address, w.contextQueue c = some address → ∃ q, w.queues address = some q ∧ q.ctx = c
  device : ∀ d address, w.deviceQueue d = some address → (w.queues address).isSome
  graphs : ∀ address q t, w.queues address = some q → q.tgx = some t → (w.graphs t).isSome
  listed : ∀ address q, w.queues address = some q → ∀ e ∈ q.events, (w.events e).isSome
  pending : ∀ address e, w.events address = some e → e.status = .LOCK →
    (w.registry.getEvent e.ev).isSome ∧ ∃ place q, w.queues place = some q ∧ address ∈ q.events
  kernels : ∀ address k, w.kernels address = some k → (w.registry.getKernel k.kernel).isSome
  mems : ∀ address m, w.mems address = some m → .mem address ∈ w.held ∧
    (w.registry.getBuffer m.buffer).isSome ∧ ∃ place q, w.queues place = some q ∧ q.ctx = m.ctx

namespace Objects

theorem start_kept : start.Kept where
  upright := upright_empty
  fresh _ _ := rfl
  held _ member := by cases member
  queues _ _ found := by cases found
  context _ _ found := by cases found
  device _ _ found := by cases found
  graphs _ _ _ found := by cases found
  listed _ _ found := by cases found
  pending _ _ found := by cases found
  kernels _ _ found := by cases found
  mems _ _ found := by cases found

theorem Kept.clCreateCommandQueue (kept : w.Kept) (context : Nat) :
    (w.clCreateCommandQueue devices context).Kept := by
  have others : ∀ address q, w.queues address = some q →
      (w.clCreateCommandQueue devices context).queues address = some q := by
    intro address q found
    have other : address ≠ w.next := by
      rintro rfl
      cases (kept.fresh _ le_rfl).symm.trans found
    exact update_some.mpr (.inr ⟨other, found⟩)
  have alive : ∀ address, (w.queues address).isSome →
      ((w.clCreateCommandQueue devices context).queues address).isSome := fun _ => isSome_update
  constructor
  · exact kept.upright
  · intro address above
    have above : w.next + 1 ≤ address := above
    change Function.update w.queues w.next _ address = none
    rw [Function.update_of_ne (by omega)]
    exact kept.fresh address (by omega)
  · intro handle member
    rcases List.mem_cons.mp member with rfl | before
    · exact isSome_update_self
    · exact (kept.held handle before).mono (fun address _ => alive address) (fun _ _ => id) (fun _ _ => id)
        (fun _ _ => id)
  · intro address q found
    rcases update_some.mp found with ⟨rfl, _⟩ | ⟨_, before⟩
    · exact List.mem_cons_self
    · exact List.mem_cons_of_mem _ (kept.queues address q before)
  · intro c address points
    rcases update_some.mp points with ⟨rfl, rfl⟩ | ⟨_, before⟩
    · exact ⟨_, update_some.mpr (.inl ⟨rfl, rfl⟩), rfl⟩
    · obtain ⟨q, found, own⟩ := kept.context c address before
      exact ⟨q, others address q found, own⟩
  · intro d address points
    change (if d ∈ devices context then some w.next else w.deviceQueue d) = some address at points
    split at points
    · cases points
      exact isSome_update_self
    · exact alive address (kept.device d address points)
  · intro address q t found graph
    rcases update_some.mp found with ⟨_, rfl⟩ | ⟨_, before⟩
    · cases graph
    · exact kept.graphs address q t before graph
  · intro address q found e member
    rcases update_some.mp found with ⟨_, rfl⟩ | ⟨_, before⟩
    · cases member
    · exact kept.listed address q before e member
  · intro address e found locked
    obtain ⟨registered, place, q, queue, member⟩ := kept.pending address e found locked
    exact ⟨registered, place, q, others place q queue, member⟩
  · exact kept.kernels
  · intro address m found
    obtain ⟨mine, registered, place, q, queue, own⟩ := kept.mems address m found
    exact ⟨List.mem_cons_of_mem _ mine, registered, place, q, others place q queue, own⟩

/-- A queue changes, and with it the events: the queue keeps its context, loses no event that is still
    to be waited for, and has those that are new. -/
theorem Kept.changeQueue {q' : LiveQueue} {events : Nat → Option LiveEvent} {held : List Handle} {next : Nat}
    (kept : w.Kept) (present : w.queues address = some q) (own : q'.ctx = q.ctx)
    (graph : ∀ t, q'.tgx = some t → (w.graphs t).isSome)
    (alive : ∀ e, (w.events e).isSome → (events e).isSome)
    (listed : ∀ e ∈ q'.events, (events e).isSome)
    (pending : ∀ e c, events e = some c → c.status = .LOCK →
      w.events e = some c ∧ (e ∈ q.events → e ∈ q'.events) ∨
        (w.registry.getEvent c.ev).isSome ∧ e ∈ q'.events)
    (older : ∀ handle ∈ w.held, handle ∈ held)
    (newer : ∀ handle ∈ held, handle ∈ w.held ∨ ∃ e, handle = .event e ∧ (events e).isSome)
    (later : w.next ≤ next) :
    { w with
      queues := Function.update w.queues address (some q')
      events := events
      next := next
      held := held }.Kept := by
  have changed : Function.update w.queues address (some q') address = some q' := Function.update_self ..
  have others : ∀ place old, w.queues place = some old → ∃ new,
      Function.update w.queues address (some q') place = some new ∧ new.ctx = old.ctx := by
    intro place old found
    by_cases same : place = address
    · subst same
      obtain rfl := Option.some.inj (present.symm.trans found)
      exact ⟨q', changed, own⟩
    · exact ⟨old, update_some.mpr (.inr ⟨same, found⟩), rfl⟩
  constructor
  · exact kept.upright
  · intro place above
    have none_before := kept.fresh place (Nat.le_trans later above)
    have other : place ≠ address := by
      rintro rfl
      cases none_before.symm.trans present
    exact (Function.update_of_ne other _ _).trans none_before
  · intro handle member
    rcases newer handle member with before | ⟨e, rfl, live⟩
    · exact (kept.held handle before).mono (fun _ _ => isSome_update) (fun _ _ => id) (fun _ _ => id)
        (fun e _ => alive e)
    · exact live
  · intro place new found
    rcases update_some.mp found with ⟨rfl, _⟩ | ⟨_, before⟩
    · exact older _ (kept.queues place q present)
    · exact older _ (kept.queues place new before)
  · intro c place points
    obtain ⟨old, found, same⟩ := kept.context c place points
    obtain ⟨new, found', same'⟩ := others place old found
    exact ⟨new, found', same'.trans same⟩
  · exact fun d place points => isSome_update (kept.device d place points)
  · intro place new t found points
    rcases update_some.mp found with ⟨_, rfl⟩ | ⟨_, before⟩
    · exact graph t points
    · exact kept.graphs place new t before points
  · intro place new found e member
    rcases update_some.mp found with ⟨_, rfl⟩ | ⟨_, before⟩
    · exact listed e member
    · exact alive e (kept.listed place new before e member)
  · intro e c found locked
    rcases pending e c found locked with ⟨before, stays⟩ | ⟨registered, member⟩
    · obtain ⟨registered, place, old, queue, member⟩ := kept.pending e c before locked
      refine ⟨registered, ?_⟩
      by_cases same : place = address
      · subst same
        obtain rfl := Option.some.inj (present.symm.trans queue)
        exact ⟨place, q', changed, stays member⟩
      · exact ⟨place, old, update_some.mpr (.inr ⟨same, queue⟩), member⟩
    · exact ⟨registered, address, q', changed, member⟩
  · exact kept.kernels
  · intro mem m found
    obtain ⟨mine, registered, place, old, queue, same⟩ := kept.mems mem m found
    obtain ⟨new, found', same'⟩ := others place old queue
    exact ⟨older _ mine, registered, place, new, found', same'.trans same⟩

theorem Kept.setQueue {q' : LiveQueue} (kept : w.Kept) (present : w.queues address = some q)
    (own : q'.ctx = q.ctx) (graph : ∀ t, q'.tgx = some t → (w.graphs t).isSome)
    (listed : ∀ e ∈ q'.events, (w.events e).isSome)
    (left : ∀ e ∈ q.events, e ∈ q'.events ∨ ∀ c, w.events e = some c → c.status ≠ .LOCK) :
    { w with queues := Function.update w.queues address (some q') }.Kept := by
  apply kept.changeQueue present own graph (fun _ => id) listed _ (fun _ => id) (fun _ => .inl) le_rfl
  intro e c found locked
  refine .inl ⟨found, ?_⟩
  intro member
  rcases left e member with still | done
  · exact still
  · exact absurd locked (done c found)

theorem Kept.setGraphs {graphs : Nat → Option TaskGraph} {next : Nat} (kept : w.Kept)
    (alive : ∀ t, (w.graphs t).isSome → (graphs t).isSome) (later : w.next ≤ next) :
    { w with graphs := graphs, next := next }.Kept where
  upright := kept.upright
  fresh address above := kept.fresh address (Nat.le_trans later above)
  held handle member := (kept.held handle member).mono (fun _ _ => id) (fun _ _ => id) (fun _ _ => id)
    (fun _ _ => id)
  queues := kept.queues
  context := kept.context
  device := kept.device
  graphs address q t found points := alive t (kept.graphs address q t found points)
  listed := kept.listed
  pending := kept.pending
  kernels := kept.kernels
  mems := kept.mems

theorem need_ended {α : Type} {o : Option α} : Ends (· = .ended) (fun a => o = some a) (need .ended o) := by
  rcases o with _ | a
  · rfl
  · rfl

theorem need_live {α : Type} {fault : Fault} {o : Option α} (present : o.isSome) :
    Ends (· = .ended) (fun a => o = some a) (need fault o) := by
  obtain ⟨a, rfl⟩ := Option.isSome_iff_exists.mp present
  rfl

variable {queue : Option Nat} {part : Option TaskGraph.Part}

theorem Kept.mangoTaskGraphAdd (kept : w.Kept)
    (alive : ∀ address, queue = some address → (w.queues address).isSome) :
    Ends (· = .ended) Kept (w.mangoTaskGraphAdd queue part) := by
  apply need_ended.bind
  intro address points
  apply (need_live (alive address points)).bind
  intro q found
  apply need_ended.bind
  intro part _
  split
  · let graphs := Function.update w.graphs w.next (some (TaskGraph.add ⟨[], [], []⟩ part))
    have grown : { w with graphs := graphs, next := w.next + 1 }.Kept :=
      kept.setGraphs (fun _ => isSome_update) (Nat.le_succ _)
    let wider : LiveQueue := { q with tgx := some w.next }
    apply grown.setQueue found (show wider.ctx = q.ctx from rfl)
    · intro t points
      cases points
      exact isSome_update_self
    · exact kept.listed address q found
    · exact fun e member => .inl member
  · next t graph =>
    apply (need_live (kept.graphs address q t found graph)).bind
    intro tg _
    exact kept.setGraphs (fun _ => isSome_update) le_rfl

/-- There is nothing to add, and the exception ends the process. -/
theorem mangoTaskGraphAdd_none (alive : ∀ address, queue = some address → (w.queues address).isSome) :
    Ends (· = .ended) Kept (w.mangoTaskGraphAdd queue none) := by
  apply need_ended.bind
  intro address points
  apply (need_live (alive address points)).bind
  intro q found
  rfl

variable {s : Registry}

theorem Kept.newKernel {kernel : LiveKernel} (kept : w.Kept) (upright : Upright s)
    (larger : Includes w.registry s) (registered : (s.getKernel kernel.kernel).isSome) :
    (w.newKernel kernel s).Kept where
  upright := upright
  fresh address above := kept.fresh address (Nat.le_of_succ_le above)
  held handle member := by
    rcases List.mem_cons.mp member with rfl | before
    · exact isSome_update_self
    · exact (kept.held handle before).mono (fun _ _ => id) (fun _ _ => isSome_update) (fun _ _ => id)
        (fun _ _ => id)
  queues address q found := List.mem_cons_of_mem _ (kept.queues address q found)
  context := kept.context
  device := kept.device
  graphs := kept.graphs
  listed := kept.listed
  pending address e found locked := by
    obtain ⟨before, listed⟩ := kept.pending address e found locked
    exact ⟨larger.events _ before, listed⟩
  kernels address k found := by
    rcases update_some.mp found with ⟨_, rfl⟩ | ⟨_, before⟩
    · exact registered
    · exact larger.kernels _ (kept.kernels address k before)
  mems address m found := by
    obtain ⟨mine, before, own⟩ := kept.mems address m found
    exact ⟨List.mem_cons_of_mem _ mine, larger.buffers _ before, own⟩

theorem Kept.newMem {mem : LiveMem} (kept : w.Kept) (upright : Upright s)
    (larger : Includes w.registry s) (registered : (s.getBuffer mem.buffer).isSome)
    (own : w.queues address = some q) (same : q.ctx = mem.ctx) : (w.newMem mem s).Kept where
  upright := upright
  fresh address above := kept.fresh address (Nat.le_of_succ_le above)
  held handle member := by
    rcases List.mem_cons.mp member with rfl | before
    · exact isSome_update_self
    · exact (kept.held handle before).mono (fun _ _ => id) (fun _ _ => id) (fun _ _ => isSome_update)
        (fun _ _ => id)
  queues address q found := List.mem_cons_of_mem _ (kept.queues address q found)
  context := kept.context
  device := kept.device
  graphs := kept.graphs
  listed := kept.listed
  pending address e found locked := by
    obtain ⟨before, listed⟩ := kept.pending address e found locked
    exact ⟨larger.events _ before, listed⟩
  kernels address k found := larger.kernels _ (kept.kernels address k found)
  mems place m found := by
    rcases update_some.mp found with ⟨rfl, rfl⟩ | ⟨_, before⟩
    · exact ⟨List.mem_cons_self, registered, address, q, own, same⟩
    · obtain ⟨mine, before, own⟩ := kept.mems place m before
      exact ⟨List.mem_cons_of_mem _ mine, larger.buffers _ before, own⟩

theorem Kept.clCreateKernel {context device kernelId : Nat} {f : KernelFunction}
    {buffersIn buffersOut : List Nat} (kept : w.Kept) :
    Ends (· = .ended) Kept (w.clCreateKernel context device kernelId f buffersIn buffersOut) := by
  apply need_ended.bind
  rintro ⟨answer, s⟩ run
  have alive := kept.device device
  change Ends _ _ (Objects.mangoTaskGraphAdd _ _ ((s.getKernel kernelId).map .kernel))
  rcases registered : s.getKernel kernelId with _ | k
  · exact mangoTaskGraphAdd_none (w := w.newKernel ⟨context, kernelId⟩ s) alive
  · have grown : (w.newKernel ⟨context, kernelId⟩ s).Kept := by
      apply kept.newKernel (kept.upright.registerKernel run) (register_includes run)
      rw [registered]
      rfl
    exact grown.mangoTaskGraphAdd alive

/-- The ids of kernels are of kernels that have been registered. -/
theorem Kept.extractKernelIDs {kernels : List Nat} (kept : w.Kept)
    (live : ∀ address ∈ kernels, (w.kernels address).isSome) :
    Ends (· = .ended) (fun ids => ids ≠ [] → w.registry.created ≠ 0) (w.extractKernelIDs kernels) := by
  induction kernels with
  | nil => exact fun filled => absurd rfl filled
  | cons address rest ih =>
    obtain ⟨first, later⟩ := List.forall_mem_cons.mp live
    rw [Objects.extractKernelIDs, List.mapM_cons]
    have begun : w.registry.created ≠ 0 := by
      obtain ⟨k, found⟩ := Option.isSome_iff_exists.mp first
      obtain ⟨registered, known⟩ := Option.isSome_iff_exists.mp (kept.kernels address k found)
      exact kept.upright.begun _ registered known
    have one : Ends (· = .ended) (fun _ => True)
        (do let k ← need .read (w.kernels address); return k.kernel) :=
      (need_live first).bind fun _ _ => trivial
    apply one.bind
    intro id _
    apply (ih later).bind
    exact fun ids _ _ => begun

theorem bufferKernels_filled {flags : Nat} {kernelsIn kernelsOut : List Nat} {lists : List Nat × List Nat}
    (some_lists : bufferKernels flags kernelsIn kernelsOut = some lists) :
    kernelsIn ≠ [] ∨ kernelsOut ≠ [] := by
  by_contra empty
  rw [not_or, not_not, not_not] at empty
  obtain ⟨rfl, rfl⟩ := empty
  simp [bufferKernels] at some_lists

theorem Kept.clCreateBuffer {context flags size bufferId : Nat} {kernelsIn kernelsOut : List Nat}
    (kept : w.Kept) (live : ∀ address ∈ kernelsIn ++ kernelsOut, (w.kernels address).isSome) :
    Ends (· = .ended) Kept (w.clCreateBuffer context flags size kernelsIn kernelsOut bufferId) := by
  rw [Objects.clCreateBuffer]
  split
  · exact kept
  · apply (kept.extractKernelIDs fun address member => live address (List.mem_append_left _ member)).bind
    intro idsIn begunIn
    apply (kept.extractKernelIDs fun address member => live address (List.mem_append_right _ member)).bind
    intro idsOut begunOut
    split
    · exact kept
    · next lists some_lists =>
      apply need_ended.bind
      rintro ⟨answer, s⟩ run
      have begun : w.registry.created ≠ 0 := (bufferKernels_filled some_lists).elim begunIn begunOut
      obtain ⟨upright, registered⟩ := kept.upright.registerMemory begun run
      rcases points : w.contextQueue context with _ | address
      · rfl
      · obtain ⟨q, found, own⟩ := kept.context context address points
        have grown : (w.newMem ⟨context, bufferId⟩ s).Kept :=
          kept.newMem upright (register_includes run) registered found own
        apply grown.mangoTaskGraphAdd
        intro place same
        cases same
        exact isSome_of_eq found

/-- Waits change only the status of events. -/
structure Waited (w w' : Objects) : Prop where
  same : w' = { w with events := w'.events }
  alive : ∀ address, (w.events address).isSome → (w'.events address).isSome

theorem Kept.clWaitForEvents {event : Nat} (kept : w.Kept) (live : (w.events event).isSome) :
    Ends (· = .ended) (fun w' => w'.Kept ∧ Waited w w' ∧ ∀ e, w'.events event = some e → e.status ≠ .LOCK)
      (w.clWaitForEvents event) := by
  apply (need_live live).bind
  intro e found
  split
  · next locked =>
    obtain ⟨registered, listed⟩ := kept.pending event e found locked
    apply (need_live registered).bind
    intro _ _
    have done : ∀ address e', Function.update w.events event
        (some { e with status := e.eventType.done }) address = some e' →
        e'.status = .LOCK → w.events address = some e' := by
      intro address e' changed still
      rcases update_some.mp changed with ⟨_, rfl⟩ | ⟨_, before⟩
      · exact absurd still e.eventType.done_ne
      · exact before
    refine ⟨?_, ⟨rfl, fun _ => isSome_update⟩, ?_⟩
    · constructor
      · exact kept.upright
      · exact kept.fresh
      · intro handle member
        exact (kept.held handle member).mono (fun _ _ => id) (fun _ _ => id) (fun _ _ => id)
          (fun _ _ => isSome_update)
      · exact kept.queues
      · exact kept.context
      · exact kept.device
      · exact kept.graphs
      · exact fun address q found e member => isSome_update (kept.listed address q found e member)
      · exact fun address e' changed still => kept.pending address e' (done address e' changed still) still
      · exact kept.kernels
      · exact kept.mems
    · intro e' changed
      rcases update_some.mp changed with ⟨_, rfl⟩ | ⟨other, _⟩
      · exact e.eventType.done_ne
      · exact absurd rfl other
  · next unlocked =>
    refine ⟨kept, ⟨rfl, fun _ => id⟩, ?_⟩
    intro e' found'
    obtain rfl := Option.some.inj (found.symm.trans found')
    exact unlocked

theorem Waited.trans {w'' : Objects} (first : Waited w w') (second : Waited w' w'') : Waited w w'' where
  same := by
    rw [second.same, first.same]
  alive address present := second.alive address (first.alive address present)

theorem Kept.waitAll {waitList : List Nat} (kept : w.Kept)
    (live : ∀ event ∈ waitList, (w.events event).isSome) :
    Ends (· = .ended) (fun w' => w'.Kept ∧ Waited w w') (waitList.foldlM Objects.clWaitForEvents w) := by
  apply Ends.foldlM ⟨kept, rfl, fun _ => id⟩
  rintro event member w' ⟨kept', waited⟩
  apply (kept'.clWaitForEvents (waited.alive event (live event member))).weaken
  rintro w'' ⟨kept'', one, _⟩
  exact ⟨kept'', waited.trans one⟩

theorem checkWaitListInContext_ends {ctx : Nat} {waitList : List Nat}
    (live : ∀ event ∈ waitList, (w.events event).isSome) :
    Ends (· = .ended) (fun _ => True) (w.checkWaitListInContext ctx waitList) := by
  induction waitList with
  | nil => trivial
  | cons event rest ih =>
    obtain ⟨first, later⟩ := List.forall_mem_cons.mp live
    apply (need_live first).bind
    intro e _
    split
    · trivial
    · exact ih later

theorem Kept.pushEvent {ev queue : Nat} {eventType : CommandType} {wanted : Bool} (kept : w.Kept)
    (present : w.queues queue = some q) (registered : (w.registry.getEvent ev).isSome) :
    (w.pushEvent queue q ev eventType wanted).Kept := by
  let q' : LiveQueue := { q with events := q.events ++ [w.next] }
  apply kept.changeQueue present (show q'.ctx = q.ctx from rfl)
  · exact fun t points => kept.graphs queue q t present points
  · exact fun _ => isSome_update
  · intro e member
    rcases List.mem_append.mp member with old | new
    · exact isSome_update (kept.listed queue q present e old)
    · obtain rfl := List.mem_singleton.mp new
      exact isSome_update_self
  · intro e c found locked
    rcases update_some.mp found with ⟨rfl, rfl⟩ | ⟨_, before⟩
    · exact .inr ⟨registered, List.mem_append_right _ List.mem_cons_self⟩
    · exact .inl ⟨before, fun member => List.mem_append_left _ member⟩
  · intro handle member
    cases wanted with
    | true => exact List.mem_cons_of_mem _ member
    | false => exact member
  · intro handle member
    cases wanted with
    | true =>
      rcases List.mem_cons.mp member with rfl | before
      · exact .inr ⟨w.next, rfl, isSome_update_self⟩
      · exact .inl before
    | false => exact .inl member
  · exact Nat.le_succ _

/-- What `run` returns is the id of an event of the context. -/
theorem Kept.enqueue {queue ctx : Nat} {waitList : List Nat} {wanted : Bool} {eventType : CommandType}
    {run : Registry → Except Fault Nat} (kept : w.Kept) (live : (w.queues queue).isSome)
    (lives : ∀ event ∈ waitList, (w.events event).isSome)
    (ends : Ends (· = .ended) (fun ev => (w.registry.getEvent ev).isSome) (run w.registry)) :
    Ends (· = .ended) Kept (w.enqueue queue ctx waitList wanted eventType run) := by
  apply (need_live live).bind
  intro q found
  split
  · exact kept
  · apply (checkWaitListInContext_ends lives).bind
    intro within _
    split
    · exact kept
    · apply (kept.waitAll lives).bind
      rintro w' ⟨kept', waited⟩
      have registry : w'.registry = w.registry := by rw [waited.same]
      have queues : w'.queues = w.queues := by rw [waited.same]
      rw [registry]
      apply ends.bind
      intro ev registered
      apply kept'.pushEvent
      · rw [queues]
        exact found
      · rw [registry]
        exact registered

theorem startKernel_ends {kernel : Nat} (upright : Upright s) (registered : (s.getKernel kernel).isSome) :
    Ends (· = .ended) (fun ev => (s.getEvent ev).isSome) (startKernel kernel s) := by
  obtain ⟨k, found⟩ := Option.isSome_iff_exists.mp registered
  obtain ⟨e, first⟩ := Option.isSome_iff_exists.mp (upright.zero (upright.begun kernel k found))
  have started : mangoStartKernel s.cxt kernel (some []) 0 = .ok (k, e, []) := by
    have found : s.cxt.kernels[kernel]? = some k := found
    have first : s.cxt.events[0]? = some e := first
    rw [mangoStartKernel, found, first]
  rw [startKernel, started]
  exact upright.kernels kernel k found

theorem writeBuffer_ends {data : Nat → Nat} {buffer : Nat} (upright : Upright s)
    (registered : (s.getBuffer buffer).isSome) :
    Ends (· = .ended) (fun ev => (s.getEvent ev).isSome) (writeBuffer data buffer s) := by
  apply (need_live registered).bind
  intro _ _
  apply need_ended.bind
  rintro ⟨b, text⟩ run
  exact upright.buffers buffer b (mangoWrite_some run).1

theorem readBuffer_ends {buffer : Nat} (upright : Upright s) (registered : (s.getBuffer buffer).isSome) :
    Ends (· = .ended) (fun ev => (s.getEvent ev).isSome) (readBuffer buffer s) := by
  apply (need_live registered).bind
  intro _ _
  apply need_ended.bind
  rintro ⟨b, text⟩ run
  exact upright.buffers buffer b (mangoRead_some run).1

/-- Each turn takes out the last event, which has been waited for. -/
theorem Kept.finishLoop {queue n : Nat} (kept : w.Kept) (found : w.queues queue = some q)
    (length : q.events.length = n) : Ends (· = .ended) Kept (Objects.finishLoop queue n w) := by
  induction n generalizing w q with
  | zero => exact kept
  | succ n ih =>
    apply (need_live (isSome_of_eq found)).bind
    intro q' same
    obtain rfl := Option.some.inj (found.symm.trans same)
    apply need_ended.bind
    intro topEv top
    have member : topEv ∈ q.events := List.mem_of_getLast? top
    apply (kept.clWaitForEvents (kept.listed queue q found topEv member)).bind
    rintro w' ⟨kept', waited, done⟩
    have present : w'.queues queue = some q := by
      rw [waited.same]
      exact found
    have split : q.events = q.events.dropLast ++ [topEv] :=
      (List.dropLast_append_getLast? topEv top).symm
    let rest : LiveQueue := { q with events := q.events.dropLast }
    have popped : { w' with queues := Function.update w'.queues queue (some rest) }.Kept := by
      apply kept'.setQueue present (show rest.ctx = q.ctx from rfl)
      · exact fun t points => kept'.graphs queue q t present points
      · intro e taken
        exact kept'.listed queue q present e (List.mem_of_mem_dropLast taken)
      · intro e listed
        rw [split] at listed
        rcases List.mem_append.mp listed with left | last
        · exact .inl left
        · obtain rfl := List.mem_singleton.mp last
          exact .inr done
    apply ih (q := rest) popped
    · exact update_some.mpr (.inl ⟨rfl, rfl⟩)
    · rw [List.length_dropLast, length]
      rfl

theorem Kept.clFinish {queue : Nat} (kept : w.Kept) (live : (w.queues queue).isSome) :
    Ends (· = .ended) Kept (w.clFinish queue) := by
  apply (need_live live).bind
  intro q found
  exact kept.finishLoop found rfl

theorem delete_live {α : Type} {table : Nat → Option α} (present : (table address).isSome) :
    delete table address = .ok (Function.update table address none) := by
  obtain ⟨a, found⟩ := Option.isSome_iff_exists.mp present
  rw [delete, found]
  rfl

theorem mem_drop {handle dropped : Handle} : handle ∈ w.drop dropped ↔ handle ∈ w.held ∧ handle ≠ dropped := by
  simp [drop]

theorem Kept.clReleaseKernel {kernel : Nat} (kept : w.Kept) (live : (w.kernels kernel).isSome) :
    Ends (· = .ended) Kept (w.clReleaseKernel kernel) := by
  rw [Objects.clReleaseKernel, delete_live live]
  constructor
  · exact kept.upright
  · exact kept.fresh
  · intro handle member
    obtain ⟨before, other⟩ := mem_drop.mp member
    have apart : ∀ place, handle = .kernel place → place ≠ kernel := by
      rintro place rfl rfl
      exact other rfl
    exact (kept.held handle before).mono (fun _ _ => id) (fun place same => isSome_delete (apart place same)) (fun _ _ => id)
      (fun _ _ => id)
  · exact fun address q found => mem_drop.mpr ⟨kept.queues address q found, Handle.noConfusion⟩
  · exact kept.context
  · exact kept.device
  · exact kept.graphs
  · exact kept.listed
  · exact kept.pending
  · exact fun address k found => kept.kernels address k (update_none.mp found).2
  · intro address m found
    obtain ⟨mine, others⟩ := kept.mems address m found
    exact ⟨mem_drop.mpr ⟨mine, Handle.noConfusion⟩, others⟩

theorem Kept.clReleaseEvent {event : Nat} (kept : w.Kept) (live : (w.events event).isSome)
    (admits : w.Admits (.releaseEvent event)) : Ends (· = .ended) Kept (w.clReleaseEvent event) := by
  rw [Objects.clReleaseEvent, delete_live live]
  constructor
  · exact kept.upright
  · exact kept.fresh
  · intro handle member
    obtain ⟨before, other⟩ := mem_drop.mp member
    have apart : ∀ place, handle = .event place → place ≠ event := by
      rintro place rfl rfl
      exact other rfl
    exact (kept.held handle before).mono (fun _ _ => id) (fun _ _ => id) (fun _ _ => id)
      (fun place same => isSome_delete (apart place same))
  · exact fun address q found => mem_drop.mpr ⟨kept.queues address q found, Handle.noConfusion⟩
  · exact kept.context
  · exact kept.device
  · exact kept.graphs
  · intro address q found e member
    have other : e ≠ event := fun same => admits address q found (same ▸ member)
    change (Function.update w.events event none e).isSome
    rw [Function.update_of_ne other]
    exact kept.listed address q found e member
  · exact fun address e found => kept.pending address e (update_none.mp found).2
  · exact kept.kernels
  · intro address m found
    obtain ⟨mine, others⟩ := kept.mems address m found
    exact ⟨mem_drop.mpr ⟨mine, Handle.noConfusion⟩, others⟩

theorem Kept.clReleaseMemObject {mem : Nat} (kept : w.Kept) (few : w.registry.created ≤ 2^32)
    (live : (w.mems mem).isSome) (admits : w.Admits (.releaseMemObject mem)) :
    Ends (· = .ended) Kept (w.clReleaseMemObject mem) := by
  apply (need_live live).bind
  intro m found
  obtain ⟨alone, settled⟩ := admits m found
  obtain ⟨b, registered⟩ := Option.isSome_iff_exists.mp (kept.mems mem m found).2.1
  have removed : w.registry.deregisterBuffer m.buffer =
      some ((w.registry.removeEvent b.event.id).removeBuffer m.buffer) := by
    have registered : w.registry.cxt.buffers[m.buffer]? = some b := registered
    rw [Registry.deregisterBuffer, registered]
    rfl
  rw [removed, delete_live live]
  constructor
  · exact kept.upright.deregister few removed
  · exact kept.fresh
  · intro handle member
    obtain ⟨before, other⟩ := mem_drop.mp member
    have apart : ∀ place, handle = .mem place → place ≠ mem := by
      rintro place rfl rfl
      exact other rfl
    exact (kept.held handle before).mono (fun _ _ => id) (fun _ _ => id) (fun place same => isSome_delete (apart place same))
      (fun _ _ => id)
  · exact fun address q found => mem_drop.mpr ⟨kept.queues address q found, Handle.noConfusion⟩
  · exact kept.context
  · exact kept.device
  · exact kept.graphs
  · exact kept.listed
  · intro address e event locked
    obtain ⟨had, listed⟩ := kept.pending address e event locked
    refine ⟨?_, listed⟩
    change ((w.registry.removeEvent b.event.id).getEvent e.ev).isSome
    rwa [Registry.getEvent_removeEvent_other (settled b registered address e event locked)]
  · exact kept.kernels
  · intro address m' still
    obtain ⟨other, before⟩ := update_none.mp still
    obtain ⟨mine, had, own⟩ := kept.mems address m' before
    refine ⟨mem_drop.mpr ⟨mine, fun same => other (Handle.mem.inj same)⟩, ?_, own⟩
    obtain ⟨b', found'⟩ := Option.isSome_iff_exists.mp had
    have apart : m'.buffer ≠ m.buffer := fun same => other (alone address m' before same)
    exact Option.isSome_iff_exists.mpr ⟨b', Registry.getBuffer_removeBuffer.mpr ⟨apart, found'⟩⟩

variable {op : ClOperation}

theorem Kept.step (kept : w.Kept) (passes : ∀ handle ∈ op.passes, handle ∈ w.held) (admits : w.Admits op)
    (few : op.releases = true → w.registry.created ≤ 2^32) :
    Ends (· = .ended) Kept (w.step devices op) := by
  have live : ∀ handle ∈ op.passes, w.Has handle := fun handle member => kept.held handle (passes handle member)
  have waits : ∀ {waitList : List Nat}, (∀ handle ∈ waitList.map Handle.event, w.Has handle) →
      ∀ event ∈ waitList, (w.events event).isSome :=
    fun all event member => all (.event event) (List.mem_map_of_mem member)
  cases op with
  | createCommandQueue context => exact kept.clCreateCommandQueue context
  | createKernel context device kernelId f buffersIn buffersOut => exact kept.clCreateKernel
  | createBuffer context flags size kernelsIn kernelsOut bufferId =>
    apply kept.clCreateBuffer
    exact fun address member => live (.kernel address) (List.mem_map_of_mem member)
  | enqueueTask queue kernel waitList wanted =>
    obtain ⟨queue_live, others⟩ := List.forall_mem_cons.mp live
    obtain ⟨kernel_live, events⟩ := List.forall_mem_cons.mp others
    apply (need_live kernel_live).bind
    intro k found
    exact kept.enqueue queue_live (waits events) (startKernel_ends kept.upright (kept.kernels kernel k found))
  | enqueueWriteBuffer queue data mem waitList wanted =>
    obtain ⟨queue_live, others⟩ := List.forall_mem_cons.mp live
    obtain ⟨mem_live, events⟩ := List.forall_mem_cons.mp others
    apply (need_live mem_live).bind
    intro m found
    exact kept.enqueue queue_live (waits events) (writeBuffer_ends kept.upright (kept.mems mem m found).2.1)
  | enqueueReadBuffer queue mem waitList wanted =>
    obtain ⟨queue_live, others⟩ := List.forall_mem_cons.mp live
    obtain ⟨mem_live, events⟩ := List.forall_mem_cons.mp others
    apply (need_live mem_live).bind
    intro m found
    exact kept.enqueue queue_live (waits events) (readBuffer_ends kept.upright (kept.mems mem m found).2.1)
  | finish queue => exact kept.clFinish (live _ List.mem_cons_self)
  | releaseEvent event => exact kept.clReleaseEvent (live _ List.mem_cons_self) admits
  | releaseMemObject mem => exact kept.clReleaseMemObject (few rfl) (live _ List.mem_cons_self) admits
  | releaseKernel kernel => exact kept.clReleaseKernel (live _ List.mem_cons_self)
  | releaseCommandQueue queue =>
    apply (need_live (live _ List.mem_cons_self)).bind
    intro q found
    rw [admits q found]
    rfl

theorem admits_of_quiet (quiet : op.releases = false) : w.Admits op := by
  cases op <;> trivial

/-- Calls that release nothing need no condition. -/
theorem Kept.uses {more : List ClOperation} (kept : w.Kept) (quiet : ∀ op ∈ more, op.releases = false)
    (disciplined : Disciplined devices more w) :
    Ends (· = .ended) Kept (more.foldlM (Objects.step devices) w) := by
  induction more generalizing w with
  | nil => exact kept
  | cons op rest ih =>
    obtain ⟨passes, later⟩ := disciplined
    obtain ⟨one, others⟩ := List.forall_mem_cons.mp quiet
    rw [List.foldlM_cons]
    have ends : Ends (· = .ended) Kept (w.step devices op) :=
      kept.step passes (admits_of_quiet one) fun releases => absurd (releases.symm.trans one) Bool.noConfusion
    rcases run : w.step devices op with fault | w'
    · exact ends.failure run
    · exact ih (ends.result run) others (later w' run)

section Lost

/-- The wait for an event that is not live, or whose event the runtime does not have. -/
theorem clWaitForEvents_lost {event : Nat} (lost : ∀ e, w.events event = some e →
    e.status = .LOCK ∧ w.registry.getEvent e.ev = none) : w.clWaitForEvents event = .error .read := by
  rw [Objects.clWaitForEvents]
  rcases found : w.events event with _ | e
  · rfl
  · obtain ⟨locked, gone⟩ := lost e found
    change (if e.status = .LOCK then _ else _) = _
    rw [if_pos locked, gone]
    rfl

theorem clWaitForEvents_cases (w : Objects) (event : Nat) : w.clWaitForEvents event = .error .read ∨
    ∃ w', w.clWaitForEvents event = .ok w' ∧ w'.queues = w.queues ∧ w'.registry = w.registry ∧
      ∀ other, other ≠ event → w'.events other = w.events other := by
  rw [Objects.clWaitForEvents]
  rcases found : w.events event with _ | e
  · exact .inl rfl
  · change (if e.status = .LOCK then _ else _) = _ ∨ ∃ w', (if e.status = .LOCK then _ else _) = _ ∧ _
    split
    · rcases w.registry.getEvent e.ev with _ | _
      · exact .inl rfl
      · exact .inr ⟨_, rfl, rfl, rfl, fun other apart => Function.update_of_ne apart _ _⟩
    · exact .inr ⟨w, rfl, rfl, rfl, fun _ _ => rfl⟩

/-- The last event of the queue is another one, or the wait for it fails. -/
theorem finishLoop_lost {queue n event : Nat} (found : w.queues queue = some q)
    (length : q.events.length = n) (member : event ∈ q.events)
    (lost : ∀ e, w.events event = some e → e.status = .LOCK ∧ w.registry.getEvent e.ev = none) :
    Objects.finishLoop queue n w = .error .read := by
  induction n generalizing w q with
  | zero =>
    rw [List.length_eq_zero_iff.mp length] at member
    cases member
  | succ n ih =>
    rcases top : q.events.getLast? with _ | topEv
    · rw [List.getLast?_eq_none_iff.mp top] at member
      cases member
    · have turn : Objects.finishLoop queue (n + 1) w = (do
          let w ← w.clWaitForEvents topEv
          Objects.finishLoop queue n { w with
            queues := Function.update w.queues queue (some { q with events := q.events.dropLast }) }) := by
        rw [Objects.finishLoop, found]
        change (do let topEv ← need .ended q.events.getLast?; _) = _
        rw [top]
        rfl
      rw [turn]
      by_cases same : event = topEv
      · rw [← same, clWaitForEvents_lost lost]
        rfl
      · rcases clWaitForEvents_cases w topEv with fails | ⟨w', waited, queues, registry, others⟩
        · rw [fails]
          rfl
        · rw [waited]
          have split : q.events = q.events.dropLast ++ [topEv] :=
            (List.dropLast_append_getLast? topEv top).symm
          let rest : LiveQueue := { q with events := q.events.dropLast }
          apply ih (q := rest) (update_some.mpr (.inl ⟨rfl, rfl⟩))
          · rw [List.length_dropLast, length]
            rfl
          · rw [split] at member
            rcases List.mem_append.mp member with left | last
            · exact left
            · exact absurd (List.mem_singleton.mp last) same
          · intro e kept
            rw [others event same] at kept
            rw [registry]
            exact lost e kept

theorem clFinish_lost {queue event : Nat} (found : w.queues queue = some q) (member : event ∈ q.events)
    (lost : ∀ e, w.events event = some e → e.status = .LOCK ∧ w.registry.getEvent e.ev = none) :
    w.clFinish queue = .error .read := by
  rw [Objects.clFinish, found]
  exact finishLoop_lost found rfl member lost

/-- A call uses an object that is not live, or it is followed by a call that does. -/
def Dooms (devices : Nat → List Nat) (w : Objects) (op : ClOperation) : Prop :=
  ∃ more fault, (∀ op ∈ more, op.releases = false) ∧ Disciplined devices (op :: more) w ∧
    (op :: more).foldlM (Objects.step devices) w = .error fault ∧ fault ≠ .ended

theorem dooms_next (next : ClOperation) (passes : ∀ handle ∈ op.passes, handle ∈ w.held)
    (run : w.step devices op = .ok w') (held : ∀ handle ∈ next.passes, handle ∈ w'.held)
    (quiet : next.releases = false) (fails : w'.step devices next = .error .read) :
    w.Dooms devices op := by
  refine ⟨[next], .read, List.forall_mem_singleton.mpr quiet, ⟨passes, ?_⟩, ?_, Fault.noConfusion⟩
  · intro w'' again
    obtain rfl := Except.ok.inj (run.symm.trans again)
    exact ⟨held, fun _ _ => trivial⟩
  · rw [List.foldlM_cons, run]
    change (do let w'' ← w'.step devices next; _) = _
    rw [fails]
    rfl

theorem Kept.releaseEvent_dooms {event : Nat} (kept : w.Kept) (held : .event event ∈ w.held)
    (found : w.queues address = some q) (member : event ∈ q.events) :
    w.Dooms devices (.releaseEvent event) := by
  have run : w.step devices (.releaseEvent event) = .ok { w with
      events := Function.update w.events event none, held := w.drop (.event event) } := by
    rw [Objects.step, Objects.clReleaseEvent, delete_live (kept.held _ held)]
    rfl
  have passes : ∀ handle ∈ (ClOperation.releaseEvent event).passes, handle ∈ w.held :=
    List.forall_mem_singleton.mpr held
  apply dooms_next (.finish address) passes run
  · intro handle passed
    obtain rfl := List.mem_singleton.mp passed
    exact mem_drop.mpr ⟨kept.queues address q found, Handle.noConfusion⟩
  · rfl
  · exact clFinish_lost found member fun e still => absurd rfl (update_none.mp still).1

variable {m : LiveMem} {b : Buffer} {mem : Nat}

/-- What a memory object leaves. -/
def withoutMem (w : Objects) (mem : Nat) (m : LiveMem) (b : Buffer) : Objects :=
  { w with
    mems := Function.update w.mems mem none
    registry := (w.registry.removeEvent b.event.id).removeBuffer m.buffer
    held := w.drop (.mem mem) }

theorem clReleaseMemObject_ok (found : w.mems mem = some m)
    (registered : w.registry.getBuffer m.buffer = some b) :
    w.clReleaseMemObject mem = .ok (w.withoutMem mem m b) := by
  have known : w.registry.cxt.buffers[m.buffer]? = some b := registered
  rw [Objects.clReleaseMemObject, found, delete_live (isSome_of_eq found)]
  change (do let s ← need .freed (w.registry.deregisterBuffer m.buffer); _) = _
  rw [Registry.deregisterBuffer, known]
  rfl

theorem Kept.releaseMem_dooms_event {e : LiveEvent} (kept : w.Kept) (held : .mem mem ∈ w.held)
    (found : w.mems mem = some m) (registered : w.registry.getBuffer m.buffer = some b)
    (event : w.events address = some e) (locked : e.status = .LOCK) (same : e.ev = b.event.id) :
    w.Dooms devices (.releaseMemObject mem) := by
  obtain ⟨_, place, q, queue, member⟩ := kept.pending address e event locked
  have passes : ∀ handle ∈ (ClOperation.releaseMemObject mem).passes, handle ∈ w.held :=
    List.forall_mem_singleton.mpr held
  apply dooms_next (.finish place) passes (clReleaseMemObject_ok found registered)
  · intro handle passed
    obtain rfl := List.mem_singleton.mp passed
    exact mem_drop.mpr ⟨kept.queues place q queue, Handle.noConfusion⟩
  · rfl
  · have present : (w.withoutMem mem m b).queues place = some q := queue
    apply clFinish_lost present member
    intro e' still
    obtain rfl := Option.some.inj (event.symm.trans still)
    refine ⟨locked, ?_⟩
    rw [same]
    exact Registry.getEvent_removeEvent_self b.event.id

theorem Kept.releaseMem_dooms_buffer {other : Nat} {m' : LiveMem} (kept : w.Kept)
    (held : .mem mem ∈ w.held) (found : w.mems mem = some m) (found' : w.mems other = some m')
    (same : m'.buffer = m.buffer) (apart : other ≠ mem) : w.Dooms devices (.releaseMemObject mem) := by
  obtain ⟨b, registered⟩ := Option.isSome_iff_exists.mp (kept.mems mem m found).2.1
  obtain ⟨mine, _, place, q, queue, own⟩ := kept.mems other m' found'
  have passes : ∀ handle ∈ (ClOperation.releaseMemObject mem).passes, handle ∈ w.held :=
    List.forall_mem_singleton.mpr held
  apply dooms_next (.enqueueReadBuffer place other [] false) passes (clReleaseMemObject_ok found registered)
  · intro handle passed
    rcases List.mem_pair.mp passed with rfl | rfl
    · exact mem_drop.mpr ⟨kept.queues place q queue, Handle.noConfusion⟩
    · exact mem_drop.mpr ⟨mine, fun equal => apart (Handle.mem.inj equal)⟩
  · rfl
  · have left : (w.withoutMem mem m b).mems other = some m' := update_none.mpr ⟨apart, found'⟩
    have present : (w.withoutMem mem m b).queues place = some q := queue
    have gone : (w.withoutMem mem m b).registry.getBuffer m'.buffer = none := by
      rw [same]
      exact IdMap.erase_self
    have fails : readBuffer m'.buffer (w.withoutMem mem m b).registry = .error .read := by
      rw [readBuffer, gone]
      rfl
    rw [Objects.step, Objects.clEnqueueReadBuffer, left]
    change (w.withoutMem mem m b).enqueue place m'.ctx [] false .CL_COMMAND_READ_BUFFER _ = _
    rw [Objects.enqueue, present]
    change (if q.ctx ≠ m'.ctx then _ else _) = _
    rw [if_neg (not_not.mpr own)]
    change (do let ev ← readBuffer m'.buffer (w.withoutMem mem m b).registry; _) = _
    rw [fails]
    rfl

/-- The graph is deleted twice. -/
theorem Kept.releaseCommandQueue_dooms {queue t : Nat} (kept : w.Kept) (held : .queue queue ∈ w.held)
    (found : w.queues queue = some q) (points : q.tgx = some t) :
    w.Dooms devices (.releaseCommandQueue queue) := by
  refine ⟨[], .freed, by simp, ⟨List.forall_mem_singleton.mpr held, fun _ _ => trivial⟩, ?_,
    Fault.noConfusion⟩
  have live := kept.graphs queue q t found points
  have fails : w.clReleaseCommandQueue queue = .error .freed := by
    rw [Objects.clReleaseCommandQueue, found]
    change (do let tgx ← need .ended q.tgx; _) = _
    rw [points]
    change (do let graphs ← delete w.graphs t; _) = _
    rw [delete_live live]
    change (do let graphs ← delete (Function.update w.graphs t none) t; _) = _
    rw [delete, Function.update_self]
    rfl
  rw [List.foldlM_cons, Objects.step, fails]
  rfl

theorem Kept.refused (kept : w.Kept) (passes : ∀ handle ∈ op.passes, handle ∈ w.held)
    (refused : ¬ w.Admits op) : w.Dooms devices op := by
  cases op with
  | createCommandQueue _ | createKernel _ _ _ _ _ _ | createBuffer _ _ _ _ _ _ => exact absurd trivial refused
  | enqueueTask _ _ _ _ | enqueueWriteBuffer _ _ _ _ _ | enqueueReadBuffer _ _ _ _ =>
    exact absurd trivial refused
  | finish _ | releaseKernel _ => exact absurd trivial refused
  | releaseEvent event =>
    simp only [Admits, not_forall, not_not] at refused
    obtain ⟨address, q, found, member⟩ := refused
    exact kept.releaseEvent_dooms (passes _ List.mem_cons_self) found member
  | releaseMemObject mem =>
    have held : .mem mem ∈ w.held := passes _ List.mem_cons_self
    obtain ⟨m, found⟩ := Option.isSome_iff_exists.mp (kept.held _ held)
    obtain ⟨b, registered⟩ := Option.isSome_iff_exists.mp (kept.mems mem m found).2.1
    by_contra safe
    apply refused
    intro m' found'
    obtain rfl := Option.some.inj (found.symm.trans found')
    constructor
    · intro other m' found' same
      by_contra apart
      exact safe (kept.releaseMem_dooms_buffer held found found' same apart)
    · intro b' registered' address e event locked same
      obtain rfl := Option.some.inj (registered.symm.trans registered')
      exact safe (kept.releaseMem_dooms_event held found registered event locked same)
  | releaseCommandQueue queue =>
    simp only [Admits, not_forall] at refused
    obtain ⟨q, found, graph⟩ := refused
    obtain ⟨t, points⟩ := Option.ne_none_iff_exists'.mp graph
    exact kept.releaseCommandQueue_dooms (passes _ List.mem_cons_self) found points

end Lost

variable {operations : List ClOperation}

theorem staysLive_iff (kept : w.Kept) (disciplined : Disciplined devices operations w)
    (few : Few devices operations w) : StaysLive devices operations w ↔ Admitted devices operations w := by
  induction operations generalizing w with
  | nil =>
    refine iff_of_true ?_ trivial
    intro done rest more fault none_done quiet disciplined run
    obtain ⟨rfl, rfl⟩ := List.append_eq_nil_iff.mp none_done.symm
    exact (kept.uses quiet disciplined).failure run
  | cons op rest ih =>
    obtain ⟨passes, later⟩ := disciplined
    obtain ⟨few_now, few_later⟩ := few
    constructor
    · intro stays
      have admits : w.Admits op := by
        by_contra refused
        obtain ⟨more, fault, quiet, disciplined, run, bad⟩ := kept.refused passes refused
        exact bad (stays [op] rest more fault rfl quiet disciplined run)
      refine ⟨admits, ?_⟩
      intro w' one
      have kept' : w'.Kept := (kept.step passes admits fun _ => few_now).result one
      apply (ih kept' (later w' one) (few_later w' one)).mp
      intro done others more fault split quiet disciplined run
      apply stays (op :: done) others more fault (by rw [split]; rfl) quiet
      · refine ⟨passes, ?_⟩
        intro w'' again
        obtain rfl := Except.ok.inj (one.symm.trans again)
        exact disciplined
      · rw [List.cons_append, List.foldlM_cons, one]
        exact run
    · rintro ⟨admits, admitted⟩ done others more fault split quiet disciplined run
      rcases done with _ | ⟨first, done⟩
      · exact (kept.uses quiet disciplined).failure run
      · obtain ⟨same, tail⟩ := List.cons.inj split
        subst same
        have ends : Ends (· = .ended) Kept (w.step devices op) := kept.step passes admits fun _ => few_now
        rw [List.cons_append, List.foldlM_cons] at run
        rcases one : w.step devices op with early | w'
        · rw [one] at run
          cases run
          exact ends.failure one
        · rw [one] at run
          have stays := (ih (ends.result one) (later w' one) (few_later w' one)).mpr (admitted w' one)
          exact stays done others more fault tail quiet (disciplined.2 w' one) run

end Objects

/-- A client that passes only what it holds uses no object that is not live, in a run and in whatever
    follows without releasing anything, if and only if it releases no event that a queue still has, no
    buffer that another memory object has or an event waits for, and no queue with a task graph. -/
theorem lifetimes_kept_iff {operations : List ClOperation}
    (disciplined : Disciplined devices operations .start) (few : Few devices operations .start) :
    StaysLive devices operations .start ↔ Admitted devices operations .start :=
  Objects.staysLive_iff Objects.start_kept disciplined few

/-- The conditions on a run. -/
structure Tidy (devices : Nat → List Nat) (operations : List ClOperation) (w : Objects) : Prop where
  disciplined : Disciplined devices operations w
  few : Few devices operations w
  admitted : Admitted devices operations w

variable {op : ClOperation} {rest : List ClOperation}

theorem disciplined_cons (run : w.step devices op = .ok w') (passes : ∀ handle ∈ op.passes, handle ∈ w.held)
    (later : Disciplined devices rest w') : Disciplined devices (op :: rest) w := by
  refine ⟨passes, ?_⟩
  intro w'' again
  obtain rfl := Except.ok.inj (run.symm.trans again)
  exact later

theorem tidy_cons (run : w.step devices op = .ok w') (passes : ∀ handle ∈ op.passes, handle ∈ w.held)
    (few : w.registry.created ≤ 2^32) (admits : w.Admits op) (later : Tidy devices rest w') :
    Tidy devices (op :: rest) w := by
  constructor
  · exact disciplined_cons run passes later.disciplined
  · refine ⟨few, ?_⟩
    intro w'' again
    obtain rfl := Except.ok.inj (run.symm.trans again)
    exact later.few
  · refine ⟨admits, ?_⟩
    intro w'' again
    obtain rfl := Except.ok.inj (run.symm.trans again)
    exact later.admitted

/-- An event is released when its queue has been finished. -/
def finishedFirst : List ClOperation :=
  [.createCommandQueue 0, .createKernel 0 0 1 oneKernel [1] [], .enqueueTask 0 1 [] true, .finish 0,
    .releaseEvent 3, .releaseKernel 1]

theorem finishedFirst_tidy : Tidy (fun _ => [0]) finishedFirst .start := by
  apply tidy_cons rfl
  · decide
  · decide
  · trivial
  apply tidy_cons rfl
  · decide
  · decide
  · trivial
  apply tidy_cons rfl
  · decide
  · decide
  · trivial
  apply tidy_cons rfl
  · decide
  · decide
  · trivial
  apply tidy_cons rfl
  · decide
  · decide
  · intro address q found
    rcases update_some.mp found with ⟨_, rfl⟩ | ⟨other, before⟩
    · decide
    · have gone : Function.update (Function.update (Function.update (fun _ => none) 0 _) 0 _) 0 _ address =
        some q := before
      rw [Function.update_of_ne other, Function.update_of_ne other, Function.update_of_ne other] at gone
      cases gone
  apply tidy_cons rfl
  · decide
  · decide
  · trivial
  constructor
  · trivial
  · exact Nat.le_of_ble_eq_true rfl
  · trivial

theorem lifetimes_kept_finishedFirst :
    (∃ w, finishedFirst.foldlM (Objects.step fun _ => [0]) .start = .ok w) ∧
      StaysLive (fun _ => [0]) finishedFirst .start :=
  ⟨⟨_, rfl⟩, (lifetimes_kept_iff finishedFirst_tidy.disciplined finishedFirst_tidy.few).mpr
    finishedFirst_tidy.admitted⟩

/-- A queue is released that has a kernel. -/
def queueReleased : List ClOperation :=
  [.createCommandQueue 0, .createKernel 0 0 1 oneKernel [1] [], .releaseCommandQueue 0]

/-- An event is released before its queue is finished. -/
def eventReleased : List ClOperation :=
  [.createCommandQueue 0, .createKernel 0 0 1 oneKernel [1] [], .enqueueTask 0 1 [] true, .releaseEvent 3,
    .finish 0]

theorem released_too_early :
    (Disciplined (fun _ => [0]) queueReleased .start ∧
      queueReleased.foldlM (Objects.step fun _ => [0]) .start = .error .freed) ∧
    Disciplined (fun _ => [0]) eventReleased .start ∧
      eventReleased.foldlM (Objects.step fun _ => [0]) .start = .error .read := by
  refine ⟨⟨?_, rfl⟩, ?_, rfl⟩
  · apply disciplined_cons rfl (by decide)
    apply disciplined_cons rfl (by decide)
    exact ⟨by decide, fun _ _ => trivial⟩
  · apply disciplined_cons rfl (by decide)
    apply disciplined_cons rfl (by decide)
    apply disciplined_cons rfl (by decide)
    apply disciplined_cons rfl (by decide)
    exact ⟨by decide, fun _ _ => trivial⟩

end Invariant

end MangoModel.OpenCL

