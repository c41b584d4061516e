import LibMango.Interleave.World

namespace Interleave

variable {Op Val σ P C : Type}

/-- A thread: what is left of the call it is in, and the calls it has not entered yet. -/
structure Thread (Op Val : Type) where
  running : Prog Op Val
  calls : List (Prog Op Val)

namespace Thread

def start [Inhabited Val] (calls : List (Prog Op Val)) : Thread Op Val := ⟨.ret default, calls⟩

/-- Between two calls the thread enters the next one; inside a call it does the call's
    next operation. -/
def step (exec : Op → σ → Val × σ) (t : Thread Op Val) (shared : σ) : Thread Op Val × σ :=
  match t.running with
  | .ret value =>
    match t.calls with
    | [] => (⟨.ret value, []⟩, shared)
    | first :: rest => (⟨first, rest⟩, shared)
  | p => (⟨(p.step exec shared).1, t.calls⟩, (p.step exec shared).2)

def idle (t : Thread Op Val) : Bool := t.running.nextOp.isNone

def finished (t : Thread Op Val) : Bool := t.idle && t.calls.isEmpty

def entered (total : Nat) (t : Thread Op Val) : Nat := total - t.calls.length

def returned (total : Nat) (t : Thread Op Val) : Nat :=
  if t.idle then t.entered total else t.entered total - 1

end Thread

/-- The control points of a program: at each of them what is left to do, the operation
    that comes next, and where its answer leads. `none` is the end of a call. -/
structure Chart (Op Val P C : Type) [Inhabited Val] where
  prog : P → Prog Op Val
  op : P → Op
  next : P → Val → Option P
  code : C → Prog Op Val
  enter : C → Option P
  code_eq : ∀ c, code c = (enter c).elim (.ret default) prog
  step_eq : ∀ (σ : Type) (exec : Op → σ → Val × σ) p shared,
    (prog p).step exec shared =
      ((next p (exec (op p) shared).1).elim (.ret default) prog, (exec (op p) shared).2)
  nextOp_eq : ∀ p, (prog p).nextOp = some (op p)

structure Place (P C : Type) where
  point : Option P
  calls : List C
  deriving DecidableEq

namespace Chart

variable [Inhabited Val] (chart : Chart Op Val P C)

def thread (l : Place P C) : Thread Op Val :=
  ⟨l.point.elim (.ret default) chart.prog, l.calls.map chart.code⟩

def step (exec : Op → σ → Val × σ) (l : Place P C) (shared : σ) : Place P C × σ :=
  match l.point with
  | none =>
    match l.calls with
    | [] => (l, shared)
    | first :: rest => (⟨chart.enter first, rest⟩, shared)
  | some p => (⟨chart.next p (exec (chart.op p) shared).1, l.calls⟩, (exec (chart.op p) shared).2)

theorem step_at (exec : Op → σ → Val × σ) (p : P) (calls : List C) (shared : σ) :
    chart.step exec ⟨some p, calls⟩ shared =
      (⟨chart.next p (exec (chart.op p) shared).1, calls⟩, (exec (chart.op p) shared).2) := rfl

theorem step_enter (exec : Op → σ → Val × σ) (first : C) (rest : List C) (shared : σ) :
    chart.step exec ⟨none, first :: rest⟩ shared = (⟨chart.enter first, rest⟩, shared) := rfl

theorem step_finished (exec : Op → σ → Val × σ) (shared : σ) :
    chart.step exec ⟨none, []⟩ shared = (⟨none, []⟩, shared) := rfl

/-- The program text steps from point to point as the chart says. -/
theorem thread_step (exec : Op → σ → Val × σ) (l : Place P C) (shared : σ) :
    (chart.thread l).step exec shared =
      (chart.thread (chart.step exec l shared).1, (chart.step exec l shared).2) := by
  obtain ⟨point, calls⟩ := l
  cases point with
  | none =>
    cases calls with
    | nil => rfl
    | cons first rest => simp [thread, Thread.step, step, chart.code_eq]
  | some p =>
    have inside := chart.nextOp_eq p
    have stepped := chart.step_eq σ exec p shared
    simp only [thread, Option.elim_some, step]
    unfold Thread.step
    split
    · next value ended =>
      have ended' : chart.prog p = .ret value := ended
      rw [ended'] at inside
      cases inside
    · rw [stepped]

@[simp] theorem thread_nextOp (l : Place P C) :
    (chart.thread l).running.nextOp = l.point.map chart.op := by
  obtain ⟨point, calls⟩ := l
  cases point with
  | none => rfl
  | some p => exact chart.nextOp_eq p

@[simp] theorem thread_idle (l : Place P C) : (chart.thread l).idle = l.point.isNone := by
  simp [Thread.idle]

theorem thread_finished (l : Place P C) : (chart.thread l).finished = true ↔ l = ⟨none, []⟩ := by
  obtain ⟨point, calls⟩ := l
  cases point <;> cases calls <;> simp [Thread.finished, Thread.idle, thread, chart.nextOp_eq, Prog.nextOp]

@[simp] theorem thread_calls_length (l : Place P C) :
    (chart.thread l).calls.length = l.calls.length := by
  simp [thread]

end Chart

section Family

variable [Inhabited Val] {ι : Type} {Q D : ι → Type}

/-- Threads under an interleaving semantics: party `i` executes operations by `exec i`. -/
abbrev threadAct (exec : ι → Op → σ → Val × σ) (i : ι) : Thread Op Val → σ → Thread Op Val × σ :=
  Thread.step (exec i)

abbrev Threads (ι Op Val σ : Type) : Type := World (fun _ : ι => Thread Op Val) σ

abbrev placeAct (charts : ∀ i, Chart Op Val (Q i) (D i)) (exec : ι → Op → σ → Val × σ) (i : ι) :
    Place (Q i) (D i) → σ → Place (Q i) (D i) × σ :=
  (charts i).step (exec i)

abbrev Places (Q D : ι → Type) (σ : Type) : Type := World (fun i => Place (Q i) (D i)) σ

variable (charts : ∀ i, Chart Op Val (Q i) (D i)) (exec : ι → Op → σ → Val × σ)

abbrev Places.threads (w : Places Q D σ) : Threads ι Op Val σ :=
  w.map fun i => (charts i).thread

variable [DecidableEq ι] {init : Places Q D σ} {charts exec}

section Steps

variable {w : Places Q D σ} {i : ι}

theorem Places.step_op {p : Q i} {rest : List (D i)} (here : w.proc i = ⟨some p, rest⟩) :
    w.step (placeAct charts exec) i =
      ⟨Function.update w.proc i ⟨(charts i).next p (exec i ((charts i).op p) w.shared).1, rest⟩,
        (exec i ((charts i).op p) w.shared).2⟩ := by
  simp only [World.step, placeAct, here, Chart.step_at]

theorem Places.step_enter {first : D i} {rest : List (D i)} (here : w.proc i = ⟨none, first :: rest⟩) :
    w.step (placeAct charts exec) i =
      ⟨Function.update w.proc i ⟨(charts i).enter first, rest⟩, w.shared⟩ := by
  simp only [World.step, placeAct, here, Chart.step_enter]

theorem Places.step_finished (here : w.proc i = ⟨none, []⟩) :
    w.step (placeAct charts exec) i = w := by
  simp only [World.step, placeAct, here, Chart.step_finished]
  rw [← here, Function.update_eq_self]

end Steps

theorem reachable_places {c : Threads ι Op Val σ}
    (reach : World.Reachable (threadAct exec) (init.threads charts) c) :
    ∃ w : Places Q D σ, World.Reachable (placeAct charts exec) init w ∧ c = w.threads charts :=
  reach.of_map fun i l s => (charts i).thread_step (exec i) l s

theorem reachable_threads {w : Places Q D σ}
    (reach : World.Reachable (placeAct charts exec) init w) :
    World.Reachable (threadAct exec) (init.threads charts) (w.threads charts) :=
  reach.map fun i l s => (charts i).thread_step (exec i) l s

end Family

end Interleave
