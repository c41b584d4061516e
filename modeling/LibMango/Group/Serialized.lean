import LibMango.Group.Sections

namespace MangoModel

open Interleave Device

section Invariant

variable {ι : Type} {m m' : Monitor ι MemoryOp Nat (Nat → Nat)} {c : SharingThreads ι} {i : ι}

/-- A thread that has not the event's value, and the sections it still has to do. -/
inductive Waiting : Thread (Op Unit) Nat → List Section → Prop where
  | between (ts : List Section) : Waiting ⟨.ret 0, ts.map fun t => t.text.call⟩ ts
  | polling (t : Section) (ts : List Section) : Waiting ⟨t.text.call, ts.map fun t => t.text.call⟩ (t :: ts)

def Outside (m : Monitor ι MemoryOp Nat (Nat → Nat)) (c : SharingThreads ι) (i : ι) : Prop :=
  ∃ ts, m.left i = ts.map Section.region ∧ Waiting (c.proc i) ts

/-- What a party that has the event's value can be at: it gives the value back, or it works. -/
inductive Holding (m : Monitor ι MemoryOp Nat (Nat → Nat)) (t : Section) :
    Prog (Op Unit) Nat → (Nat → Nat) → Prop where
  | back (refused : t.entry.admits m.value = false) : Holding m t (t.back m.value) m.cells
  | inside (admitted : t.entry.admits m.value = true) (n : Nat) :
    Holding m t (Section.rest ((t.work m.value).solo memoryExec m.cells n).1)
      ((t.work m.value).solo memoryExec m.cells n).2

/-- Nobody has the event's value, and everybody has the sections before them that they have in the monitor. -/
structure Settled (m : Monitor ι MemoryOp Nat (Nat → Nat)) (c : SharingThreads ι) : Prop where
  outside : ∀ i, Outside m c i
  value : c.shared.regs.value () = m.value
  memory : c.shared.memory = m.cells

/-- A party has what the register lacks, and is in the first section that it has in the monitor. -/
structure Entered (m : Monitor ι MemoryOp Nat (Nat → Nat)) (c : SharingThreads ι) (i : ι) (t : Section)
    (ts : List Section) : Prop where
  others : ∀ j, j ≠ i → Outside m c j
  left : m.left i = (t :: ts).map Section.region
  calls : (c.proc i).calls = ts.map fun t => t.text.call
  empty : c.shared.regs.value () = 0

inductive Serialized (m : Monitor ι MemoryOp Nat (Nat → Nat)) (c : SharingThreads ι) : Prop where
  | free (settled : Settled m c)
  | held (i : ι) (t : Section) (ts : List Section) (entered : Entered m c i t ts)
    (holding : Holding m t (c.proc i).running c.shared.memory)

theorem Waiting.not_holds {thread : Thread (Op Unit) Nat} {ts : List Section} (waiting : Waiting thread ts) :
    ¬ Holds thread := by
  rintro ⟨a, inside, other⟩
  cases waiting with
  | between => cases inside
  | polling t ts =>
    rw [Section.text_nextOp] at inside
    cases inside
    exact other rfl

theorem Outside.not_holds (outside : Outside m c i) : ¬ Holds (c.proc i) := by
  obtain ⟨ts, _, waiting⟩ := outside
  exact waiting.not_holds

theorem Holding.holds {t : Section} {thread : Thread (Op Unit) Nat} {memory : Nat → Nat}
    (holding : Holding m t thread.running memory) : Holds thread := by
  obtain ⟨running, calls⟩ := thread
  cases holding with
  | back refused => exact ⟨_, rfl, nofun⟩
  | inside admitted n => exact Section.rest_nextOp ((t.formed m.value).solo memoryExec m.cells n)

theorem Waiting.returned {thread : Thread (Op Unit) Nat} {ts : List Section} (waiting : Waiting thread ts)
    (total : Nat) (fits : ts.length ≤ total) : thread.returned total = total - ts.length := by
  cases waiting with
  | between ts => simp [Thread.returned, Thread.idle, Thread.entered, Prog.nextOp]
  | polling t ts =>
    have fits' : ts.length + 1 ≤ total := fits
    simp only [Thread.returned, Thread.idle, Section.text_nextOp, Thread.entered, List.length_map, List.length_cons,
      Option.isNone_some, Bool.false_eq_true, ↓reduceIte]
    omega

section Steps

variable {t : Section} {ts : List Section} {thread : Thread (Op Unit) Nat} {value : Nat}
  {shared : Shared ι Unit}

theorem poll_empty (empty : shared.regs.value () = 0) (calls : List (Prog (Op Unit) Nat)) (i : ι) :
    Thread.step (exec overwrite i) ⟨t.text.call, calls⟩ shared =
      (⟨t.text.call, calls⟩, (exec overwrite i (.readSynchronization ()) shared).2) := by
  have busy : t.text.call.nextOp ≠ none := by simp [Section.text_nextOp]
  rw [Thread.step_busy busy, Section.text_step]
  simp only [exec_answer, Op.answer, empty, ↓reduceIte]

theorem poll_full (full : shared.regs.value () ≠ 0) (calls : List (Prog (Op Unit) Nat)) (i : ι) :
    Thread.step (exec overwrite i) ⟨t.text.call, calls⟩ shared =
      (⟨if t.entry.admits (shared.regs.value ()) then Section.rest (t.work (shared.regs.value ()))
        else t.back (shared.regs.value ()), calls⟩, (exec overwrite i (.readSynchronization ()) shared).2) := by
  have busy : t.text.call.nextOp ≠ none := by simp [Section.text_nextOp]
  rw [Thread.step_busy busy, Section.text_step]
  simp only [exec_answer, Op.answer, full, ↓reduceIte]
  rfl

theorem read_value (i : ι) (shared : Shared ι Unit) :
    (exec overwrite i (.readSynchronization ()) shared).2.regs.value () = 0 := by
  simp [Op.access, Custody.apply]

/-- A thread without the event's value changes nothing, unless it finds the value and takes it. -/
theorem Waiting.step (waiting : Waiting thread ts) (i : ι) (shared : Shared ι Unit) :
    (Waiting (thread.step (exec overwrite i) shared).1 ts ∧
        (thread.step (exec overwrite i) shared).2.regs.value () = shared.regs.value () ∧
        (thread.step (exec overwrite i) shared).2.memory = shared.memory) ∨
      ∃ t rest, ts = t :: rest ∧ shared.regs.value () ≠ 0 ∧
        (thread.step (exec overwrite i) shared).1 =
          ⟨if t.entry.admits (shared.regs.value ()) then Section.rest (t.work (shared.regs.value ()))
            else t.back (shared.regs.value ()), rest.map fun t => t.text.call⟩ ∧
        (thread.step (exec overwrite i) shared).2.regs.value () = 0 ∧
        (thread.step (exec overwrite i) shared).2.memory = shared.memory := by
  cases waiting with
  | between ts =>
    left
    cases ts with
    | nil => exact ⟨.between [], rfl, rfl⟩
    | cons t rest => exact ⟨.polling t rest, rfl, rfl⟩
  | polling t ts =>
    by_cases empty : shared.regs.value () = 0
    · left
      rw [poll_empty empty]
      exact ⟨.polling t ts, (read_value i shared).trans empty.symm, rfl⟩
    · right
      rw [poll_full empty]
      exact ⟨t, ts, rfl, empty, rfl, read_value i shared, rfl⟩

theorem back_step (refused : t.entry.admits value = false) (calls : List (Prog (Op Unit) Nat)) (i : ι)
    (shared : Shared ι Unit) : Thread.step (exec overwrite i) ⟨t.back value, calls⟩ shared =
      (⟨t.text.call, calls⟩, (exec overwrite i (.writeSynchronization () value) shared).2) := by
  have busy : (t.back value).nextOp ≠ none := by simp [Section.back_nextOp]
  rw [Thread.step_busy busy, Section.back_step refused]

theorem end_step (value : Nat) (calls : List (Prog (Op Unit) Nat)) (i : ι) (shared : Shared ι Unit) :
    Thread.step (exec overwrite i) ⟨Section.rest (.ret value), calls⟩ shared =
      (⟨.ret 0, calls⟩, (exec overwrite i (.writeSynchronization () value) shared).2) := rfl

theorem work_step {p : Prog MemoryOp Nat} (formed : p.Formed Filled) (busy : p.nextOp ≠ none)
    (calls : List (Prog (Op Unit) Nat)) (i : ι) (shared : Shared ι Unit) :
    ∃ trace, Thread.step (exec overwrite i) ⟨Section.rest p, calls⟩ shared =
      (⟨Section.rest (p.step memoryExec shared.memory).1, calls⟩,
        { shared with memory := (p.step memoryExec shared.memory).2, trace := trace }) := by
  obtain ⟨a, inside, _⟩ := Section.rest_nextOp formed
  obtain ⟨trace, stepped⟩ := Section.rest_step i busy shared
  have busy' : (Section.rest p).nextOp ≠ none := by simp [inside]
  exact ⟨trace, by rw [Thread.step_busy busy', stepped]⟩

end Steps

section World

variable [DecidableEq ι] {t : Section} {ts : List Section}

theorem Outside.step_other {j : ι} (outside : Outside m c j) (other : j ≠ i) (same : m'.left j = m.left j) :
    Outside m' (c.step (threadAct (exec overwrite)) i) j := by
  obtain ⟨ts, left, waiting⟩ := outside
  exact ⟨ts, same.trans left, by rwa [World.step_proc_other other]⟩

/-- The party that steps has left its section, or had none; the others are where they were. -/
theorem Settled.of_step (others : ∀ j, j ≠ i → Outside m c j) (same : ∀ j, j ≠ i → m'.left j = m.left j)
    (left : m'.left i = ts.map Section.region)
    (waiting : Waiting (Thread.step (exec overwrite i) (c.proc i) c.shared).1 ts)
    (value : (Thread.step (exec overwrite i) (c.proc i) c.shared).2.regs.value () = m'.value)
    (memory : (Thread.step (exec overwrite i) (c.proc i) c.shared).2.memory = m'.cells) :
    Settled m' (c.step (threadAct (exec overwrite)) i) := by
  refine ⟨fun j => ?_, value, memory⟩
  by_cases mine : j = i
  · subst mine
    exact ⟨ts, left, by rwa [World.step_proc_self]⟩
  · exact (others j mine).step_other mine (same j mine)

theorem Entered.of_step (others : ∀ j, j ≠ i → Outside m c j) (left : m.left i = (t :: ts).map Section.region)
    (calls : (Thread.step (exec overwrite i) (c.proc i) c.shared).1.calls = ts.map fun t => t.text.call)
    (empty : (Thread.step (exec overwrite i) (c.proc i) c.shared).2.regs.value () = 0) :
    Entered m (c.step (threadAct (exec overwrite)) i) i t ts where
  others j other := (others j other).step_other other rfl
  left := left
  calls := by rwa [World.step_proc_self]
  empty := empty

omit [DecidableEq ι] in
theorem Entered.proc (entered : Entered m c i t ts) {running : Prog (Op Unit) Nat}
    (here : (c.proc i).running = running) : c.proc i = ⟨running, ts.map fun t => t.text.call⟩ := by
  rw [← here, ← entered.calls]

/-- When the value has been given back, the section is still to be done. -/
theorem Entered.gives_back (entered : Entered m c i t ts) (filled : Filled m.value)
    (refused : t.entry.admits m.value = false) (here : (c.proc i).running = t.back m.value)
    (memory : c.shared.memory = m.cells) : Settled m (c.step (threadAct (exec overwrite)) i) := by
  have stepped := back_step refused (ts.map fun t => t.text.call) i c.shared
  rw [← entered.proc here] at stepped
  refine .of_step entered.others (fun _ _ => rfl) entered.left ?_ ?_ ?_ <;> rw [stepped]
  · exact .polling t ts
  · exact put_overwrite filled.2
  · exact memory

/-- When the work has ended, its last step takes the monitor on by the whole section. -/
theorem Entered.leaves (entered : Entered m c i t ts) (admitted : t.entry.admits m.value = true) {n value : Nat}
    (ended : ((t.work m.value).solo memoryExec m.cells n).1 = .ret value)
    (here : (c.proc i).running = Section.rest ((t.work m.value).solo memoryExec m.cells n).1)
    (memory : c.shared.memory = ((t.work m.value).solo memoryExec m.cells n).2) :
    ∃ m', m.take memoryExec n i = some m' ∧ Filled m'.value ∧
      Settled m' (c.step (threadAct (exec overwrite)) i) := by
  have formed := (t.formed m.value).solo memoryExec m.cells n
  rw [ended] at formed here
  have filled : Filled value := formed
  have stepped := end_step value (ts.map fun t => t.text.call) i c.shared
  rw [← entered.proc here] at stepped
  refine ⟨⟨value, c.shared.memory, Function.update m.left i (ts.map Section.region)⟩, ?_, filled, ?_⟩
  · refine Monitor.take_eq_some.mpr ⟨t.region, _, value, _, entered.left, admitted, ?_, rfl⟩
    exact Prog.result_eq_some.mpr (Prod.ext ended memory.symm)
  · refine .of_step entered.others (fun j other => Function.update_of_ne other _ _) (Function.update_self ..)
      ?_ ?_ ?_ <;> rw [stepped]
    · exact .between ts
    · exact put_overwrite filled.2
    · rfl

theorem Entered.works (entered : Entered m c i t ts) {n : Nat}
    (busy : ((t.work m.value).solo memoryExec m.cells n).1.nextOp ≠ none)
    (here : (c.proc i).running = Section.rest ((t.work m.value).solo memoryExec m.cells n).1)
    (memory : c.shared.memory = ((t.work m.value).solo memoryExec m.cells n).2) :
    Entered m (c.step (threadAct (exec overwrite)) i) i t ts ∧
      ((c.step (threadAct (exec overwrite)) i).proc i).running =
        Section.rest ((t.work m.value).solo memoryExec m.cells (n + 1)).1 ∧
      (c.step (threadAct (exec overwrite)) i).shared.memory =
        ((t.work m.value).solo memoryExec m.cells (n + 1)).2 := by
  have formed := (t.formed m.value).solo memoryExec m.cells n
  obtain ⟨trace, stepped⟩ := work_step formed busy (ts.map fun t => t.text.call) i c.shared
  rw [← entered.proc here, memory] at stepped
  rw [World.step_proc_self, World.step_shared]
  refine ⟨.of_step entered.others entered.left ?_ ?_, congrArg (fun after => after.1.running) stepped,
    congrArg (fun after => after.2.memory) stepped⟩ <;> rw [stepped]
  exact entered.empty

/-- Whoever steps, the monitor stays as it is or goes on by one region. -/
theorem Serialized.step (serialized : Serialized m c) (filled : Filled m.value) (i : ι) :
    Serialized m (c.step (threadAct (exec overwrite)) i) ∨ ∃ fuel m', m.take memoryExec fuel i = some m' ∧
      Filled m'.value ∧ Serialized m' (c.step (threadAct (exec overwrite)) i) := by
  cases serialized with
  | free settled =>
    left
    obtain ⟨outside, value, memory⟩ := settled
    have others : ∀ j, j ≠ i → Outside m c j := fun j _ => outside j
    obtain ⟨ts, left, waiting⟩ := outside i
    rcases waiting.step i c.shared with ⟨waiting', value', memory'⟩ | ⟨t, rest, rfl, _, taken, empty, memory'⟩
    · exact .free (.of_step others (fun _ _ => rfl) left waiting' (value'.trans value) (memory'.trans memory))
    · refine .held i t rest (.of_step others left (by rw [taken]) empty) ?_
      rw [World.step_proc_self, World.step_shared, memory', memory, taken, value]
      by_cases admitted : t.entry.admits m.value = true
      · rw [if_pos admitted]
        exact .inside admitted 0
      · rw [if_neg admitted]
        exact .back (by simpa using admitted)
  | held j t ts entered holding =>
    by_cases mine : i = j
    · subst mine
      generalize here : (c.proc i).running = running at holding
      generalize now : c.shared.memory = memory at holding
      cases holding with
      | back refused => exact .inl (.free (entered.gives_back filled refused here now))
      | inside admitted n =>
        rcases next : ((t.work m.value).solo memoryExec m.cells n).1.nextOp with _ | a
        · obtain ⟨value, ended, _⟩ := ((t.formed m.value).solo memoryExec m.cells n).ended next
          obtain ⟨m', taken, filled', settled⟩ := entered.leaves admitted ended here now
          exact .inr ⟨n, m', taken, filled', .free settled⟩
        · obtain ⟨entered', here', now'⟩ := entered.works (by simp [next]) here now
          refine .inl (.held i t ts entered' ?_)
          rw [here', now']
          exact .inside admitted (n + 1)
    · left
      obtain ⟨us, left, waiting⟩ := entered.others i mine
      have apart : j ≠ i := Ne.symm mine
      rcases waiting.step i c.shared with ⟨waiting', value', memory'⟩ | ⟨_, _, _, full, _⟩
      · refine .held j t ts ⟨fun k other => ?_, entered.left, ?_, value'.trans entered.empty⟩ ?_
        · by_cases same : k = i
          · subst same
            exact ⟨us, left, by rwa [World.step_proc_self]⟩
          · exact (entered.others k other).step_other same rfl
        · rw [World.step_proc_other apart, entered.calls]
        · rw [World.step_proc_other apart, World.step_shared, memory']
          exact holding
      · exact absurd entered.empty full

end World

section Runs

variable [DecidableEq ι] {s : Sharing ι}

omit [DecidableEq ι] in
theorem Settled.start (s : Sharing ι) : Settled s.monitor s.start where
  outside i := ⟨s.calls i, rfl, .between _⟩
  value := rfl
  memory := rfl

theorem serialized_reachable (reach : s.Reachable c) : ∃ order fuel m,
    s.monitor.serial memoryExec fuel order = some m ∧ Filled m.value ∧ Serialized m c := by
  refine reach.invariant (motive := fun c => ∃ order fuel m,
    s.monitor.serial memoryExec fuel order = some m ∧ Filled m.value ∧ Serialized m c) (fun c i _ kept => ?_)
    ⟨[], 0, s.monitor, rfl, s.filled, .free (.start s)⟩
  obtain ⟨order, fuel, m, ran, filled, serialized⟩ := kept
  rcases serialized.step filled i with same | ⟨enough, m', taken, filled', next⟩
  · exact ⟨order, fuel, m, ran, filled, same⟩
  · exact ⟨order ++ [i], fuel + enough, m', Monitor.serial_append ran (Monitor.serial_one taken), filled', next⟩

theorem Serialized.one_holds (serialized : Serialized m c) {i j : ι} (first : Holds (c.proc i))
    (second : Holds (c.proc j)) : i = j := by
  cases serialized with
  | free settled => exact absurd first (settled.outside i).not_holds
  | held k t ts entered holding =>
    have mine : ∀ i, Holds (c.proc i) → i = k := fun i holds => by
      by_contra other
      exact (entered.others i other).not_holds holds
    rw [mine i first, mine j second]

omit [DecidableEq ι] in
theorem Serialized.settled (serialized : Serialized m c) (nobody : ∀ i, ¬ Holds (c.proc i)) : Settled m c := by
  cases serialized with
  | free settled => exact settled
  | held i t ts entered holding => exact absurd holding.holds (nobody i)

/-- A party has returned from all sections but those that it has in the monitor. -/
theorem Serialized.returned (serialized : Serialized m c) (i : ι) {total : Nat}
    (fits : (m.left i).length ≤ total) : (c.proc i).returned total = total - (m.left i).length := by
  have outside : Outside m c i → (c.proc i).returned total = total - (m.left i).length := by
    rintro ⟨ts, left, waiting⟩
    have many : (m.left i).length = ts.length := by rw [left, List.length_map]
    rw [many] at fits ⊢
    exact waiting.returned total fits
  cases serialized with
  | free settled => exact outside (settled.outside i)
  | held j t ts entered holding =>
    by_cases mine : i = j
    · subst mine
      obtain ⟨a, inside, _⟩ := holding.holds
      have many : (m.left i).length = ts.length + 1 := by rw [entered.left, List.length_map, List.length_cons]
      simp only [Thread.returned, Thread.idle, inside, Thread.entered, entered.calls, List.length_map,
        Option.isNone_some, Bool.false_eq_true, ↓reduceIte]
      omega
    · exact outside (entered.others i mine)

theorem Serialized.counts (serialized : Serialized m c) {order : List ι} {fuel : Nat}
    (ran : s.monitor.serial memoryExec fuel order = some m) (i : ι) :
    (c.proc i).returned (s.calls i).length = order.count i := by
  have many := Monitor.serial_left ran i
  have total : (s.monitor.left i).length = (s.calls i).length := List.length_map _
  rw [serialized.returned i (by omega)]
  omega

/-- `mango_lock`, `mango_wait` and `Event::wait_state` give the event's value to one party at a time, until it
    writes a value: whatever the interleaving, the sections are done as if each were one step, in an order
    that is the same for all parties, and a section that waits for a state begins in that state. -/
theorem sections_atomic (s : Sharing ι) (c : SharingThreads ι) (reach : s.Reachable c) :
    (∀ i j, Holds (c.proc i) → Holds (c.proc j) → i = j) ∧
      ∃ order fuel m, s.monitor.serial memoryExec fuel order = some m ∧
        (∀ i, (c.proc i).returned (s.calls i).length = order.count i) ∧
        ((∀ i, ¬ Holds (c.proc i)) → c.shared.regs.value () = m.value ∧ c.shared.memory = m.cells) := by
  obtain ⟨order, fuel, m, ran, filled, serialized⟩ := serialized_reachable reach
  refine ⟨fun i j => serialized.one_holds, order, fuel, m, ran, serialized.counts ran, fun nobody => ?_⟩
  obtain ⟨_, value, memory⟩ := serialized.settled nobody
  exact ⟨value, memory⟩

section Progress

variable {t : Section} {ts : List Section}

/-- The party that has the event's value does its section to the end when the others let it. -/
theorem Entered.ends (entered : Entered m c i t ts) (admitted : t.entry.admits m.value = true) {n more : Nat}
    {value : Nat} (ended : ((t.work m.value).solo memoryExec m.cells (n + more)).1 = .ret value)
    (here : (c.proc i).running = Section.rest ((t.work m.value).solo memoryExec m.cells n).1)
    (memory : c.shared.memory = ((t.work m.value).solo memoryExec m.cells n).2) :
    ∃ schedule m', m.take memoryExec (n + more) i = some m' ∧ Filled m'.value ∧
      Settled m' (c.run (threadAct (exec overwrite)) schedule) := by
  induction more generalizing c n with
  | zero =>
    obtain ⟨m', taken, filled, settled⟩ := entered.leaves admitted ended here memory
    exact ⟨[i], m', taken, filled, settled⟩
  | succ more ih =>
    rcases next : ((t.work m.value).solo memoryExec m.cells n).1.nextOp with _ | a
    · obtain ⟨value, ended, _⟩ := ((t.formed m.value).solo memoryExec m.cells n).ended next
      obtain ⟨m', taken, filled, settled⟩ := entered.leaves admitted ended here memory
      exact ⟨[i], m', Monitor.take_more taken _, filled, settled⟩
    · obtain ⟨entered', here', memory'⟩ := entered.works (by simp [next]) here memory
      have total : n + (more + 1) = n + 1 + more := by omega
      rw [total] at ended ⊢
      obtain ⟨schedule, rest⟩ := ih entered' ended here' memory'
      exact ⟨i :: schedule, rest⟩

/-- A party that has a section before it comes to where it looks for the event's value. -/
theorem Settled.polls (settled : Settled m c) (more : m.left i ≠ []) :
    ∃ schedule t ts, Settled m (c.run (threadAct (exec overwrite)) schedule) ∧
      m.left i = (t :: ts).map Section.region ∧
      (c.run (threadAct (exec overwrite)) schedule).proc i = ⟨t.text.call, ts.map fun t => t.text.call⟩ := by
  obtain ⟨outside, value, memory⟩ := settled
  obtain ⟨ts, left, waiting⟩ := outside i
  generalize here : c.proc i = thread at waiting
  cases waiting with
  | between ts =>
    cases ts with
    | nil => exact absurd left more
    | cons t ts =>
      have stepped : Thread.step (exec overwrite i) (c.proc i) c.shared =
          (⟨t.text.call, ts.map fun t => t.text.call⟩, c.shared) := by
        rw [here]
        rfl
      refine ⟨[i], t, ts, .of_step (fun j _ => outside j) (fun _ _ => rfl) left ?_ ?_ ?_, left, ?_⟩
      · rw [stepped]
        exact .polling t ts
      · rwa [stepped]
      · rwa [stepped]
      · exact (World.step_proc_self c i).trans (congrArg Prod.fst stepped)
  | polling t ts => exact ⟨[], t, ts, ⟨outside, value, memory⟩, left, here⟩

theorem Settled.enters (settled : Settled m c) (filled : Filled m.value)
    (left : m.left i = (t :: ts).map Section.region) (admitted : t.entry.admits m.value = true)
    (here : c.proc i = ⟨t.text.call, ts.map fun t => t.text.call⟩) :
    Entered m (c.step (threadAct (exec overwrite)) i) i t ts ∧
      ((c.step (threadAct (exec overwrite)) i).proc i).running = Section.rest (t.work m.value) ∧
      (c.step (threadAct (exec overwrite)) i).shared.memory = m.cells := by
  obtain ⟨outside, value, memory⟩ := settled
  have full : c.shared.regs.value () ≠ 0 := by
    rw [value]
    exact Nat.ne_of_gt filled.1
  have stepped := poll_full (t := t) full (ts.map fun t => t.text.call) i
  rw [← here, value, if_pos admitted] at stepped
  refine ⟨.of_step (fun j _ => outside j) left ?_ ?_, ?_,
    (congrArg (fun after => after.2.memory) stepped).trans memory⟩
  · rw [stepped]
  · rw [stepped]
    exact read_value i c.shared
  · rw [World.step_proc_self]
    exact congrArg (fun after => after.1.running) stepped

/-- From where nobody has the event's value, a party can do the section that it has next in the monitor. -/
theorem Settled.follow_one (settled : Settled m c) (filled : Filled m.value) {fuel : Nat}
    (taken : m.take memoryExec fuel i = some m') :
    Filled m'.value ∧ ∃ schedule, Settled m' (c.run (threadAct (exec overwrite)) schedule) := by
  obtain ⟨r, rest, value, cells, next, admitted, ended, _⟩ := Monitor.take_eq_some.mp taken
  obtain ⟨first, t, ts, settled', left, here⟩ := settled.polls (i := i) (by simp [next])
  obtain ⟨rfl, rfl⟩ : r = t.region ∧ rest = ts.map Section.region := by
    rw [next] at left
    exact List.cons.inj left
  obtain ⟨entered, here', memory⟩ := settled'.enters filled left admitted here
  have stops : ((t.work m.value).solo memoryExec m.cells (0 + fuel)).1 = .ret value := by
    rw [Nat.zero_add]
    exact congrArg Prod.fst (Prog.result_eq_some.mp ended)
  obtain ⟨second, m'', taken', filled', last⟩ := entered.ends admitted stops here' memory
  rw [Nat.zero_add, taken] at taken'
  cases taken'
  refine ⟨filled', first ++ i :: second, ?_⟩
  rwa [World.run_append, World.run_cons]

theorem Settled.follow (settled : Settled m c) (filled : Filled m.value) {fuel : Nat} {order : List ι}
    (ran : m.serial memoryExec fuel order = some m') :
    ∃ schedule, Settled m' (c.run (threadAct (exec overwrite)) schedule) := by
  induction order generalizing m c with
  | nil =>
    cases ran
    exact ⟨[], settled⟩
  | cons i rest ih =>
    simp only [Monitor.serial, List.foldlM_cons, Option.bind_eq_bind] at ran
    obtain ⟨between, one, others⟩ := Option.bind_eq_some_iff.mp ran
    obtain ⟨filled', first, settled'⟩ := settled.follow_one filled one
    obtain ⟨second, last⟩ := ih settled' filled' others
    exact ⟨first ++ second, by rwa [World.run_append]⟩

/-- A party that has the event's value can always give one back. -/
theorem Serialized.settles (serialized : Serialized m c) (filled : Filled m.value)
    (ends : ∀ i, ∀ r ∈ m.left i, r.Ends memoryExec) :
    ∃ schedule order fuel m', m.serial memoryExec fuel order = some m' ∧ Filled m'.value ∧
      Settled m' (c.run (threadAct (exec overwrite)) schedule) := by
  cases serialized with
  | free settled => exact ⟨[], [], 0, m, rfl, filled, settled⟩
  | held i t ts entered holding =>
    generalize here : (c.proc i).running = running at holding
    generalize now : c.shared.memory = memory at holding
    cases holding with
    | back refused => exact ⟨[i], [], 0, m, rfl, filled, entered.gives_back filled refused here now⟩
    | inside admitted n =>
      obtain ⟨fuel, ⟨value, cells⟩, ended⟩ := ends i t.region (by simp [entered.left]) m.value m.cells admitted
      have stops : ((t.work m.value).solo memoryExec m.cells (n + fuel)).1 = .ret value := by
        rw [Nat.add_comm]
        exact congrArg Prod.fst (Prog.result_eq_some.mp (Prog.result_more ended n))
      obtain ⟨schedule, m', taken, filled', settled⟩ := entered.ends admitted stops here now
      exact ⟨schedule, [i], n + fuel, m', Monitor.serial_one taken, filled', settled⟩

omit [DecidableEq ι] in
theorem Settled.atRest (settled : Settled m c) : AtRest m c where
  free i := (settled.outside i).not_holds
  value := settled.value
  memory := settled.memory

/-- Whatever the parties have done can be brought to where nobody has the event's value, and from there every
    way in which the monitor can go on is one in which they can go on. -/
theorem sections_follow (s : Sharing ι) (ends : ∀ i, ∀ t ∈ s.calls i, t.region.Ends memoryExec)
    (c : SharingThreads ι) (reach : s.Reachable c) :
    ∃ order fuel m, s.monitor.serial memoryExec fuel order = some m ∧
      ∀ more fuel' m', m.serial memoryExec fuel' more = some m' →
        ∃ schedule, AtRest m' (c.run (threadAct (exec overwrite)) schedule) ∧
          ∀ i, ((c.run (threadAct (exec overwrite)) schedule).proc i).returned (s.calls i).length =
            (order ++ more).count i := by
  obtain ⟨order, fuel, m, ran, filled, serialized⟩ := serialized_reachable reach
  have endsLeft : ∀ i, ∀ r ∈ m.left i, r.Ends memoryExec := fun i r member => by
    obtain ⟨t, mine, rfl⟩ := List.mem_map.mp (Monitor.serial_mem ran member)
    exact ends i t mine
  obtain ⟨first, rest, enough, m₁, ran₁, filled₁, settled⟩ := serialized.settles filled endsLeft
  have ran' := Monitor.serial_append ran ran₁
  refine ⟨order ++ rest, fuel + enough, m₁, ran', fun more fuel' m' ran₂ => ?_⟩
  obtain ⟨second, settled'⟩ := settled.follow filled₁ ran₂
  rw [← World.run_append] at settled'
  exact ⟨first ++ second, settled'.atRest,
    (Serialized.free settled').counts (Monitor.serial_append ran' ran₂)⟩

end Progress

end Runs

end Invariant

section Mailbox

def putByte (byte : Nat) : Section where
  entry := .wait 1
  work _ := .op (.storeByte 0 byte) fun _ => .ret 2
  formed _ _ := show Filled 2 by decide

def addByte : Section where
  entry := .waitState 2
  work _ := .op (.loadByte 0) fun byte => .op (.loadByte 1) fun sum => .op (.storeByte 1 (sum + byte))
    fun _ => .ret 1
  formed _ _ _ _ := show Filled 1 by decide

/-- A task that puts bytes where a host thread takes them, each when the event says that it is its turn. -/
def mailbox : Sharing (Fin 2) where
  value := 1
  filled := by decide
  memory := fun _ => 0
  calls i := if i = 0 then [putByte 7, putByte 9] else [addByte, addByte]

/-- The host looks too early and gives the value back, and then they take turns. -/
def mailboxSchedule : List (Fin 2) :=
  List.replicate 3 1 ++ List.replicate 4 0 ++ List.replicate 6 1 ++ List.replicate 4 0 ++ List.replicate 6 1

theorem sections_atomic_mailbox : ∃ order fuel m,
    mailbox.monitor.serial memoryExec fuel order = some m ∧ m.cells 1 = 16 := by
  let c := mailbox.start.run (threadAct (exec overwrite)) mailboxSchedule
  obtain ⟨_, order, fuel, m, ran, _, stops⟩ := sections_atomic mailbox c ⟨mailboxSchedule, rfl⟩
  have ended : ∀ i, (c.proc i).running.nextOp = none := by decide +kernel
  obtain ⟨_, memory⟩ := stops fun i ⟨a, inside, _⟩ => by simp [ended i] at inside
  have sum : c.shared.memory 1 = 16 := by decide +kernel
  exact ⟨order, fuel, m, ran, by rw [← memory, sum]⟩

theorem mailbox_ends (i : Fin 2) (t : Section) (mine : t ∈ mailbox.calls i) : t.region.Ends memoryExec := by
  intro value cells _
  simp only [mailbox] at mine
  split at mine <;> simp only [List.mem_cons, List.not_mem_nil, or_false, or_self] at mine
  · rcases mine with rfl | rfl <;> exact ⟨1, _, rfl⟩
  · rw [mine]
    exact ⟨3, _, rfl⟩

/-- From where the host has found the wrong value and has not given it back yet. -/
theorem sections_follow_mailbox : ∃ order fuel m, mailbox.monitor.serial memoryExec fuel order = some m ∧
    ∀ more fuel' m', m.serial memoryExec fuel' more = some m' → ∃ schedule, AtRest m'
      ((mailbox.start.run (threadAct (exec overwrite)) [1, 1]).run (threadAct (exec overwrite)) schedule) := by
  obtain ⟨order, fuel, m, ran, follow⟩ := sections_follow mailbox mailbox_ends _ ⟨[1, 1], rfl⟩
  refine ⟨order, fuel, m, ran, fun more fuel' m' ran' => ?_⟩
  obtain ⟨schedule, rest, _⟩ := follow more fuel' m' ran'
  exact ⟨schedule, rest⟩

end Mailbox

end MangoModel
