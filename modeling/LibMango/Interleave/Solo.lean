import LibMango.Interleave.Prog
import Mathlib.Data.Set.Defs
import Mathlib.Algebra.Order.BigOperators.Group.List
import Mathlib.Algebra.Order.Ring.Nat

namespace Interleave

variable {Op Val σ α β ι : Type}

namespace Prog

/-- What is left of a program once its next operation has been answered. -/
def resumed (value : Val) (p : Prog Op Val) : Prog Op Val := (p.step (fun _ _ => (value, ())) ()).1

theorem step_resumed {p : Prog Op Val} {action : Op} (inside : p.nextOp = some action)
    (exec : Op → σ → Val × σ) (shared : σ) :
    p.step exec shared = (p.resumed (exec action shared).1, (exec action shared).2) := by
  induction p with
  | ret value => cases inside
  | op first next _ =>
    cases inside
    rfl
  | iterate running body again next ih _ _ =>
    simp only [resumed, step_iterate, ih inside]

theorem step_silent {p : Prog Op Val} (outside : p.nextOp = none) (exec : Op → σ → Val × σ) :
    ∃ rest : Prog Op Val, ∀ shared, p.step exec shared = (rest, shared) := by
  induction p with
  | ret value => exact ⟨.ret value, fun _ => rfl⟩
  | op action next _ => cases outside
  | iterate running body again next ih _ _ =>
    obtain ⟨rest, still⟩ := ih outside
    exact ⟨resume body again next rest, fun shared => by rw [step_iterate, still]⟩

/-- The program and what it works on after so many steps that nobody else comes between. -/
def solo (exec : Op → σ → Val × σ) (p : Prog Op Val) (shared : σ) : Nat → Prog Op Val × σ
  | 0 => (p, shared)
  | n + 1 => (solo exec p shared n).1.step exec (solo exec p shared n).2

variable {exec : Op → σ → Val × σ} {p : Prog Op Val} {shared : σ} {n : Nat}

theorem solo_step (exec : Op → σ → Val × σ) (p : Prog Op Val) (shared : σ) (n : Nat) :
    solo exec p shared (n + 1) = solo exec (p.step exec shared).1 (p.step exec shared).2 n := by
  induction n with
  | zero => rfl
  | succ n ih => rw [solo, ih, solo]

theorem solo_ret (exec : Op → σ → Val × σ) (value : Val) (shared : σ) (n : Nat) :
    solo exec (.ret value) shared n = (.ret value, shared) := by
  induction n with
  | zero => rfl
  | succ n ih => rw [solo, ih]; rfl

theorem solo_ended {value : Val} (ended : (solo exec p shared n).1 = .ret value) (more : Nat) :
    solo exec p shared (n + more) = solo exec p shared n := by
  induction more with
  | zero => rfl
  | succ more ih =>
    rw [← Nat.add_assoc, solo, ih, ended, step_ret]
    exact Prod.ext ended.symm rfl

theorem solo_unique {k : Nat} {value value' : Val} (ended : (solo exec p shared n).1 = .ret value)
    (ended' : (solo exec p shared k).1 = .ret value') : solo exec p shared n = solo exec p shared k := by
  rcases Nat.le_total n k with later | later
  · obtain ⟨more, rfl⟩ := Nat.exists_eq_add_of_le later
    exact (solo_ended ended more).symm
  · obtain ⟨more, rfl⟩ := Nat.exists_eq_add_of_le later
    exact solo_ended ended' more

theorem alone_solo {value : Val} (ended : (solo exec p shared n).1 = .ret value) :
    alone exec n p shared = some (solo exec p shared n).2 := by
  induction n generalizing p shared with
  | zero =>
    obtain rfl : p = .ret value := ended
    rfl
  | succ n ih =>
    cases p with
    | ret other => rw [alone_ret, solo_ret]
    | op action next =>
      rw [solo_step] at ended ⊢
      exact ih ended
    | iterate running body again next =>
      rw [solo_step] at ended ⊢
      exact ih ended

theorem solo_alone {fuel : Nat} {after : σ} (ended : alone exec fuel p shared = some after) :
    ∃ value, solo exec p shared fuel = (.ret value, after) := by
  induction fuel generalizing p shared with
  | zero =>
    cases p with
    | ret value =>
      cases ended
      exact ⟨value, rfl⟩
    | op action next => cases ended
    | iterate running body again next => cases ended
  | succ fuel ih =>
    cases p with
    | ret value =>
      cases ended
      exact ⟨value, solo_ret exec value _ _⟩
    | op action next =>
      rw [solo_step]
      exact ih ended
    | iterate running body again next =>
      rw [solo_step]
      exact ih ended

/-- Every operation of the program is of a kind. -/
def Only (kind : Op → Prop) : Prog Op Val → Prop
  | .ret _ => True
  | .op action next => kind action ∧ ∀ value, (next value).Only kind
  | .iterate running body _ next => running.Only kind ∧ (∀ value, (body value).Only kind) ∧
      ∀ value, (next value).Only kind

variable {kind : Op → Prop}

theorem Only.nextOp (only : p.Only kind) {action : Op} (inside : p.nextOp = some action) : kind action := by
  induction p with
  | ret value => cases inside
  | op first next _ =>
    cases inside
    exact only.1
  | iterate running body again next ih _ _ => exact ih only.1 inside

theorem Only.step (only : p.Only kind) (exec : Op → σ → Val × σ) (shared : σ) :
    (p.step exec shared).1.Only kind := by
  induction p with
  | ret value => exact only
  | op action next _ => exact only.2 _
  | iterate running body again next ih _ _ =>
    obtain ⟨inner, bodies, rest⟩ := only
    have stepped := ih inner
    rw [step_iterate]
    rcases now : (running.step exec shared).1 with value | ⟨action, later⟩ | ⟨deep, more, repeats, later⟩
    · dsimp only [resume]
      split
      · exact ⟨bodies value, bodies, rest⟩
      · exact rest value
    · exact ⟨now ▸ stepped, bodies, rest⟩
    · exact ⟨now ▸ stepped, bodies, rest⟩

theorem Only.solo (only : p.Only kind) (exec : Op → σ → Val × σ) (shared : σ) (n : Nat) :
    (p.solo exec shared n).1.Only kind := by
  induction n with
  | zero => exact only
  | succ n ih => exact ih.step exec _

end Prog

/-- Which cells an operation looks at, and which it may change. -/
structure Footprint (exec : Op → (α → β) → Val × (α → β)) where
  loads : Op → Set α
  stores : Op → Set α
  answer : ∀ a m m', (∀ x ∈ loads a, m x = m' x) → (exec a m).1 = (exec a m').1
  stored : ∀ a m m', (∀ x ∈ loads a, m x = m' x) → ∀ x ∈ stores a, (exec a m).2 x = (exec a m').2 x
  kept : ∀ a m, ∀ x ∉ stores a, (exec a m).2 x = m x

namespace Footprint

variable {exec : Op → (α → β) → Val × (α → β)} (f : Footprint exec)

/-- The cells that a program looks at when it runs alone. -/
def Reads (p : Prog Op Val) (m : α → β) : Set α :=
  {x | ∃ n a, (p.solo exec m n).1.nextOp = some a ∧ x ∈ f.loads a}

def Writes (p : Prog Op Val) (m : α → β) : Set α :=
  {x | ∃ n a, (p.solo exec m n).1.nextOp = some a ∧ x ∈ f.stores a}

/-- None of the programs writes, when it runs alone, what another one reads or writes alone. -/
def RaceFree (work : ι → Prog Op Val) (m : α → β) : Prop :=
  ∀ i j, i ≠ j → ∀ x ∈ f.Writes (work i) m, x ∉ f.Writes (work j) m ∧ x ∉ f.Reads (work j) m

variable {f} in
/-- Programs that keep to cells of their own, apart from those that nobody writes, have no races. -/
theorem RaceFree.of_owned {work : ι → Prog Op Val} (reads writes : ι → Set α)
    (within : ∀ i, (work i).Only fun a => f.loads a ⊆ reads i ∧ f.stores a ⊆ writes i)
    (apart : ∀ i j, i ≠ j → ∀ x ∈ writes i, x ∉ writes j ∧ x ∉ reads j) (m : α → β) : f.RaceFree work m := by
  have written : ∀ i, f.Writes (work i) m ⊆ writes i := fun i x ⟨n, a, inside, stored⟩ =>
    (((within i).solo exec m n).nextOp inside).2 stored
  have read : ∀ i, f.Reads (work i) m ⊆ reads i := fun i x ⟨n, a, inside, loaded⟩ =>
    (((within i).solo exec m n).nextOp inside).1 loaded
  intro i j other x mine
  obtain ⟨unwritten, unread⟩ := apart i j other x (written i mine)
  exact ⟨fun theirs => unwritten (written j theirs), fun theirs => unread (read j theirs)⟩

/-- Programs of which each has taken so many steps among the others', and finds what it would find alone. -/
structure Together (work : ι → Prog Op Val) (m : α → β) (steps : ι → Nat) (cells : α → β) : Prop where
  sees : ∀ i x, (∀ j, j ≠ i → x ∉ f.Writes (work j) m) → cells x = ((work i).solo exec m (steps i)).2 x
  untouched : ∀ x, (∀ j, x ∉ f.Writes (work j) m) → cells x = m x

theorem Together.start (work : ι → Prog Op Val) (m : α → β) : f.Together work m (fun _ => 0) m where
  sees _ _ _ := rfl
  untouched _ _ := rfl

variable {f} {work : ι → Prog Op Val} {steps steps' : ι → Nat} {m cells cells' : α → β}

section Steps

variable [DecidableEq ι] (together : f.Together work m steps cells) (free : f.RaceFree work m) {i : ι}

include together free

theorem Together.op {a : Op} (inside : ((work i).solo exec m (steps i)).1.nextOp = some a) :
    (exec a cells).1 = (exec a ((work i).solo exec m (steps i)).2).1 ∧
      f.Together work m (Function.update steps i (steps i + 1)) (exec a cells).2 := by
  have found : ∀ x ∈ f.loads a, cells x = ((work i).solo exec m (steps i)).2 x := fun x loaded =>
    together.sees i x fun j other written => (free j i other x written).2 ⟨_, a, inside, loaded⟩
  have next : ((work i).solo exec m (steps i + 1)).2 = (exec a ((work i).solo exec m (steps i)).2).2 := by
    rw [Prog.solo, Prog.step_resumed inside]
  have writes : ∀ x ∈ f.stores a, x ∈ f.Writes (work i) m := fun x stored => ⟨_, a, inside, stored⟩
  refine ⟨f.answer a cells _ found, fun j x others => ?_, fun x nobody => ?_⟩
  · by_cases mine : j = i
    · subst mine
      rw [Function.update_self, next]
      by_cases stored : x ∈ f.stores a
      · exact f.stored a _ _ found x stored
      · rw [f.kept a _ x stored, f.kept a _ x stored, together.sees j x others]
    · have apart : x ∉ f.stores a := fun stored => others i (Ne.symm mine) (writes x stored)
      rw [Function.update_of_ne mine, f.kept a _ x apart, together.sees j x others]
  · have apart : x ∉ f.stores a := fun stored => nobody i (writes x stored)
    rw [f.kept a _ x apart, together.untouched x nobody]

/-- Whichever of the programs takes a step, it takes the one that it would take alone. -/
theorem Together.step :
    (((work i).solo exec m (steps i)).1.step exec cells).1 = ((work i).solo exec m (steps i + 1)).1 ∧
      f.Together work m (Function.update steps i (steps i + 1))
        (((work i).solo exec m (steps i)).1.step exec cells).2 := by
  rcases inside : ((work i).solo exec m (steps i)).1.nextOp with _ | a
  · obtain ⟨rest, still⟩ := Prog.step_silent inside exec
    have next : (work i).solo exec m (steps i + 1) = (rest, ((work i).solo exec m (steps i)).2) := by
      rw [Prog.solo, still]
    rw [still, next]
    refine ⟨rfl, fun j x others => ?_, together.untouched⟩
    by_cases mine : j = i
    · subst mine
      rw [Function.update_self, next]
      exact together.sees j x others
    · rw [Function.update_of_ne mine]
      exact together.sees j x others
  · obtain ⟨same, together'⟩ := together.op free inside
    rw [Prog.step_resumed inside, Prog.solo, Prog.step_resumed inside, same]
    exact ⟨rfl, together'⟩

/-- One that has not begun and runs on by itself. -/
theorem Together.runs (fresh : steps i = 0) (n : Nat) :
    ((work i).solo exec cells n).1 = ((work i).solo exec m n).1 ∧
      f.Together work m (Function.update steps i n) ((work i).solo exec cells n).2 := by
  induction n with
  | zero =>
    rw [← fresh, Function.update_eq_self, fresh]
    exact ⟨rfl, together⟩
  | succ n ih =>
    obtain ⟨same, later⟩ := ih
    have next := later.step free (i := i)
    rw [Function.update_self, Function.update_idem, ← same] at next
    rw [Prog.solo]
    exact next

end Steps

/-- Programs that have all ended have left the same cells behind, in whatever order they ran. -/
theorem Together.unique (free : f.RaceFree work m) (together : f.Together work m steps cells)
    (together' : f.Together work m steps' cells')
    (ended : ∀ i, ∃ v, ((work i).solo exec m (steps i)).1 = .ret v)
    (ended' : ∀ i, ∃ v, ((work i).solo exec m (steps' i)).1 = .ret v) : cells = cells' := by
  funext x
  by_cases somebody : ∃ i, x ∈ f.Writes (work i) m
  · obtain ⟨i, written⟩ := somebody
    have others : ∀ j, j ≠ i → x ∉ f.Writes (work j) m := fun j other =>
      (free i j (Ne.symm other) x written).1
    obtain ⟨v, last⟩ := ended i
    obtain ⟨v', last'⟩ := ended' i
    rw [together.sees i x others, together'.sees i x others, Prog.solo_unique last last']
  · have nobody : ∀ i, x ∉ f.Writes (work i) m := fun i written => somebody ⟨i, written⟩
    rw [together.untouched x nobody, together'.untouched x nobody]

end Footprint

section InTurn

/-- The programs one after the other, in so many steps each. -/
def inTurn (exec : Op → σ → Val × σ) (fuel : Nat) (work : ι → Prog Op Val) : List ι → σ → Option σ
  | [], shared => some shared
  | i :: rest, shared => do inTurn exec fuel work rest (← (work i).alone exec fuel shared)

theorem inTurn_more (exec : Op → σ → Val × σ) {fuel : Nat} {work : ι → Prog Op Val} {ids : List ι}
    {shared after : σ} (ended : inTurn exec fuel work ids shared = some after) (extra : Nat) :
    inTurn exec (fuel + extra) work ids shared = some after := by
  induction ids generalizing shared with
  | nil => exact ended
  | cons i rest ih =>
    obtain ⟨between, first, others⟩ := Option.bind_eq_some_iff.mp ended
    simp only [inTurn, Prog.alone_more exec first extra, Option.bind_eq_bind, Option.bind_some]
    exact ih others

variable [DecidableEq ι] {exec : Op → (α → β) → Val × (α → β)} {f : Footprint exec} {work : ι → Prog Op Val}
  {steps : ι → Nat} {m cells : α → β}

theorem Footprint.Together.inTurn (free : f.RaceFree work m) {fuel : Nat}
    (ends : ∀ i, ∃ v, ((work i).solo exec m fuel).1 = .ret v) {ids : List ι} (once : ids.Nodup)
    (together : f.Together work m steps cells) (fresh : ∀ i ∈ ids, steps i = 0) :
    ∃ after, Interleave.inTurn exec fuel work ids cells = some after ∧
      f.Together work m (fun i => if i ∈ ids then fuel else steps i) after := by
  induction ids generalizing steps cells with
  | nil => exact ⟨cells, rfl, by simpa using together⟩
  | cons i rest ih =>
    obtain ⟨new, once⟩ := List.nodup_cons.mp once
    obtain ⟨same, together'⟩ := together.runs free (fresh i List.mem_cons_self) fuel
    obtain ⟨v, ended⟩ := ends i
    have first := Prog.alone_solo (same.trans ended)
    have fresh' : ∀ j ∈ rest, Function.update steps i fuel j = 0 := fun j member => by
      have other : j ≠ i := by
        rintro rfl
        exact new member
      rw [Function.update_of_ne other]
      exact fresh j (List.mem_cons_of_mem i member)
    obtain ⟨after, others, last⟩ := ih once together' fresh'
    refine ⟨after, ?_, ?_⟩
    · simp only [Interleave.inTurn, first, Option.bind_eq_bind, Option.bind_some]
      exact others
    · convert last using 1
      funext j
      by_cases mine : j = i
      · subst mine
        simp [new]
      · simp [mine]

/-- What programs without races leave behind when all of them have ended, they leave behind one after the
    other. -/
theorem Footprint.Together.serial (free : f.RaceFree work m) (together : f.Together work m steps cells)
    (ended : ∀ i, ∃ v, ((work i).solo exec m (steps i)).1 = .ret v) {ids : List ι} (once : ids.Nodup)
    (all : ∀ i, i ∈ ids) : ∃ fuel, Interleave.inTurn exec fuel work ids m = some cells := by
  have ends : ∀ i, ∃ v, ((work i).solo exec m (ids.map steps).sum).1 = .ret v := fun i => by
    obtain ⟨v, last⟩ := ended i
    have enough : steps i ≤ (ids.map steps).sum := List.le_sum_of_mem (List.mem_map_of_mem (all i))
    obtain ⟨more, total⟩ := Nat.exists_eq_add_of_le enough
    exact ⟨v, by rw [total, Prog.solo_ended last, last]⟩
  obtain ⟨after, ran, together'⟩ := (Together.start f work m).inTurn free ends once fun _ _ => rfl
  refine ⟨_, ran.trans (congrArg some (together'.unique free together (fun i => ?_) ended))⟩
  rw [if_pos (all i)]
  exact ends i

end InTurn

end Interleave
