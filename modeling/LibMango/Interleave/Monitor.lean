import LibMango.Interleave.Work
import Mathlib.Data.List.Count

namespace Interleave

variable {Op Op' Val σ ι : Type}

namespace Prog

/-- A program that goes on with what another one ends with. -/
def bind (p : Prog Op Val) (next : Val → Prog Op Val) : Prog Op Val :=
  match p with
  | .ret value => next value
  | .op action rest => .op action fun value => (rest value).bind next
  | .iterate running body again rest => .iterate running body again fun value => (rest value).bind next

variable {p : Prog Op Val} {next : Val → Prog Op Val}

theorem bind_resume (body : Val → Prog Op Val) (again : Val → Bool) (rest : Val → Prog Op Val) :
    (resume body again rest p).bind next = resume body again (fun value => (rest value).bind next) p := by
  cases p with
  | ret value => by_cases repeats : again value = true <;> simp [resume, bind, repeats]
  | op action later => rfl
  | iterate running inner repeated later => rfl

theorem bind_nextOp (busy : p.nextOp ≠ none) : (p.bind next).nextOp = p.nextOp := by
  cases p with
  | ret value => exact absurd rfl busy
  | op action rest => rfl
  | iterate running body again rest => rfl

theorem bind_step (busy : p.nextOp ≠ none) (exec : Op → σ → Val × σ) (shared : σ) :
    (p.bind next).step exec shared = ((p.step exec shared).1.bind next, (p.step exec shared).2) := by
  cases p with
  | ret value => exact absurd rfl busy
  | op action rest => rfl
  | iterate running body again rest => simp only [bind, step_iterate, bind_resume]

/-- What a program ends with and leaves behind when nobody else acts, if so many steps are enough. -/
def result (exec : Op → σ → Val × σ) (fuel : Nat) (p : Prog Op Val) (shared : σ) : Option (Val × σ) :=
  match p.solo exec shared fuel with
  | (.ret value, after) => some (value, after)
  | _ => none

variable {exec : Op → σ → Val × σ} {fuel : Nat} {shared after : σ} {value : Val}

theorem result_eq_some : p.result exec fuel shared = some (value, after) ↔
    p.solo exec shared fuel = (.ret value, after) := by
  unfold result
  split
  · next v s ended => simp [ended]
  · next busy =>
    simp only [reduceCtorEq, false_iff]
    exact busy value after

theorem result_more (ended : p.result exec fuel shared = some (value, after)) (extra : Nat) :
    p.result exec (fuel + extra) shared = some (value, after) := by
  rw [result_eq_some] at ended ⊢
  rw [solo_ended (congrArg Prod.fst ended), ended]

theorem Formed.solo {ends : Val → Prop} (formed : p.Formed ends) (exec : Op → σ → Val × σ) (shared : σ)
    (n : Nat) : (p.solo exec shared n).1.Formed ends := by
  induction n with
  | zero => exact formed
  | succ n ih => exact ih.step exec _

end Prog

theorem Thread.step_busy {t : Thread Op Val} (busy : t.running.nextOp ≠ none) (exec : Op → σ → Val × σ)
    (shared : σ) : t.step exec shared =
      (⟨(t.running.step exec shared).1, t.calls⟩, (t.running.step exec shared).2) := by
  unfold Thread.step
  split
  · next value ended =>
    rw [ended] at busy
    exact absurd rfl busy
  · rfl

/-- A program in the text of another one. -/
def Code.run (p : Prog Op Val) : Code Op Val Val := p.bind

/-- What a party does with the value and the cells of a monitor while it has them to itself: at which values
    it may begin, and a program that ends with the value to leave. -/
structure Region (Op Val : Type) where
  admits : Val → Bool
  work : Val → Prog Op Val

/-- Whenever the region is entered, it can be left. -/
def Region.Ends (exec : Op → σ → Val × σ) (r : Region Op Val) : Prop :=
  ∀ value cells, r.admits value = true → ∃ fuel after, (r.work value).result exec fuel cells = some after

/-- A value and cells that parties work on one at a time, and the regions that each of them still has before
    it. -/
structure Monitor (ι Op Val σ : Type) where
  value : Val
  cells : σ
  left : ι → List (Region Op Val)

namespace Monitor

variable [DecidableEq ι] (exec : Op → σ → Val × σ) (fuel : Nat)

/-- A party's next region, from its beginning to its end. -/
def take (m : Monitor ι Op Val σ) (i : ι) : Option (Monitor ι Op Val σ) :=
  match m.left i with
  | [] => none
  | r :: rest =>
    if r.admits m.value then do
      let (value, cells) ← (r.work m.value).result exec fuel m.cells
      some ⟨value, cells, Function.update m.left i rest⟩
    else none

/-- Regions one after the other, in the order that names the party of each. -/
def serial (m : Monitor ι Op Val σ) (order : List ι) : Option (Monitor ι Op Val σ) :=
  order.foldlM (take exec fuel) m

variable {exec fuel} {m m' : Monitor ι Op Val σ} {i : ι} {order : List ι}

theorem take_eq_some : m.take exec fuel i = some m' ↔ ∃ r rest value cells, m.left i = r :: rest ∧
    r.admits m.value = true ∧ (r.work m.value).result exec fuel m.cells = some (value, cells) ∧
    m' = ⟨value, cells, Function.update m.left i rest⟩ := by
  unfold take
  split
  · next nothing => simp [nothing]
  · next r rest here =>
    rw [here]
    by_cases admitted : r.admits m.value = true
    · rw [if_pos admitted]
      simp only [Option.bind_eq_bind, Option.bind_eq_some_iff, Option.some.injEq, Prod.exists, List.cons.injEq]
      constructor
      · rintro ⟨value, cells, ended, rfl⟩
        exact ⟨r, rest, value, cells, ⟨rfl, rfl⟩, admitted, ended, rfl⟩
      · rintro ⟨_, _, value, cells, ⟨rfl, rfl⟩, -, ended, rfl⟩
        exact ⟨value, cells, ended, rfl⟩
    · rw [if_neg admitted]
      simp only [reduceCtorEq, List.cons.injEq, false_iff]
      rintro ⟨_, _, value, cells, ⟨rfl, rfl⟩, admitted', -⟩
      exact admitted admitted'

theorem take_more (taken : m.take exec fuel i = some m') (extra : Nat) :
    m.take exec (fuel + extra) i = some m' := by
  rw [take_eq_some] at taken ⊢
  obtain ⟨r, rest, value, cells, here, admitted, ended, same⟩ := taken
  exact ⟨r, rest, value, cells, here, admitted, Prog.result_more ended extra, same⟩

theorem take_left (taken : m.take exec fuel i = some m') (j : ι) :
    (m.left j).length = (m'.left j).length + if i = j then 1 else 0 := by
  obtain ⟨r, rest, value, cells, here, -, -, rfl⟩ := take_eq_some.mp taken
  by_cases mine : i = j
  · subst mine
    simp [here]
  · simp [mine, Ne.symm mine]

theorem take_mem (taken : m.take exec fuel i = some m') {j : ι} {r : Region Op Val} (member : r ∈ m'.left j) :
    r ∈ m.left j := by
  obtain ⟨first, rest, value, cells, here, -, -, rfl⟩ := take_eq_some.mp taken
  by_cases mine : j = i
  · subst mine
    rw [here]
    exact List.mem_cons_of_mem _ (by simpa using member)
  · simpa [mine] using member

theorem serial_more (ran : m.serial exec fuel order = some m') (extra : Nat) :
    m.serial exec (fuel + extra) order = some m' := by
  induction order generalizing m with
  | nil => exact ran
  | cons i rest ih =>
    simp only [serial, List.foldlM_cons, Option.bind_eq_bind] at ran ⊢
    obtain ⟨between, first, others⟩ := Option.bind_eq_some_iff.mp ran
    rw [take_more first extra, Option.bind_some]
    exact ih others

theorem serial_append {last : Monitor ι Op Val σ} {enough : Nat} {more : List ι}
    (ran : m.serial exec fuel order = some m') (later : m'.serial exec enough more = some last) :
    m.serial exec (fuel + enough) (order ++ more) = some last := by
  have before := serial_more ran enough
  have after := serial_more later fuel
  rw [Nat.add_comm] at after
  unfold serial at before after ⊢
  rw [List.foldlM_append, before]
  exact after

theorem serial_one (taken : m.take exec fuel i = some m') : m.serial exec fuel [i] = some m' := by
  simp [serial, taken]

theorem serial_mem (ran : m.serial exec fuel order = some m') {j : ι} {r : Region Op Val} (member : r ∈ m'.left j) :
    r ∈ m.left j := by
  induction order generalizing m with
  | nil =>
    cases ran
    exact member
  | cons i rest ih =>
    simp only [serial, List.foldlM_cons, Option.bind_eq_bind] at ran
    obtain ⟨between, first, others⟩ := Option.bind_eq_some_iff.mp ran
    exact take_mem first (ih others)

/-- What a party has no longer before it are the regions that the order has of it. -/
theorem serial_left (ran : m.serial exec fuel order = some m') (j : ι) :
    (m.left j).length = (m'.left j).length + order.count j := by
  induction order generalizing m with
  | nil =>
    cases ran
    rfl
  | cons i rest ih =>
    simp only [serial, List.foldlM_cons, Option.bind_eq_bind] at ran
    obtain ⟨between, first, others⟩ := Option.bind_eq_some_iff.mp ran
    rw [take_left first j, ih others, List.count_cons]
    simp only [beq_iff_eq]
    omega

end Monitor

end Interleave
