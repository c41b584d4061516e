import LibMango.Interleave.Chart
import Mathlib.Data.Sum.Basic

namespace Interleave

variable {Op Op' Op₁ Op₂ Val σ₁ σ₂ P P₁ P₂ C C₁ C₂ : Type}

/-- Operations on two states that do not touch each other. -/
def execBoth (first : Op₁ → σ₁ → Val × σ₁) (second : Op₂ → σ₂ → Val × σ₂) :
    Op₁ ⊕ Op₂ → σ₁ × σ₂ → Val × (σ₁ × σ₂)
  | .inl a, s => ((first a s.1).1, ((first a s.1).2, s.2))
  | .inr a, s => ((second a s.2).1, (s.1, (second a s.2).2))

theorem Prog.mapOp_nextOp (embed : Op → Op') (p : Prog Op Val) : (p.mapOp embed).nextOp = p.nextOp.map embed := by
  induction p with
  | ret value => rfl
  | op action next _ => rfl
  | iterate running body again next ih _ _ => exact ih

section Charts

variable [Inhabited Val]

/-- The same control points, for the operations of a larger system. -/
def Chart.mapOp (embed : Op → Op') (chart : Chart Op Val P C) : Chart Op' Val P C where
  prog p := (chart.prog p).mapOp embed
  op p := embed (chart.op p)
  next := chart.next
  code c := (chart.code c).mapOp embed
  enter := chart.enter
  code_eq c := by
    rw [chart.code_eq]
    cases chart.enter c <;> rfl
  step_eq σ exec p shared := by
    rw [Prog.mapOp_step, chart.step_eq]
    dsimp only
    cases chart.next p (exec (embed (chart.op p)) shared).1 <;> rfl
  nextOp_eq p := by rw [Prog.mapOp_nextOp, chart.nextOp_eq]; rfl

/-- The calls of two kinds, one after the other in one thread. -/
def Chart.either (first : Chart Op Val P₁ C₁) (second : Chart Op Val P₂ C₂) :
    Chart Op Val (P₁ ⊕ P₂) (C₁ ⊕ C₂) where
  prog := Sum.elim first.prog second.prog
  op := Sum.elim first.op second.op
  next
    | .inl p, answer => (first.next p answer).map .inl
    | .inr p, answer => (second.next p answer).map .inr
  code := Sum.elim first.code second.code
  enter
    | .inl c => (first.enter c).map .inl
    | .inr c => (second.enter c).map .inr
  code_eq c := by
    cases c with
    | inl c =>
      rw [Sum.elim_inl, first.code_eq]
      dsimp only
      cases first.enter c <;> rfl
    | inr c =>
      rw [Sum.elim_inr, second.code_eq]
      dsimp only
      cases second.enter c <;> rfl
  step_eq σ exec p shared := by
    cases p with
    | inl p =>
      rw [Sum.elim_inl, first.step_eq]
      dsimp only [Sum.elim_inl]
      cases first.next p (exec (first.op p) shared).1 <;> rfl
    | inr p =>
      rw [Sum.elim_inr, second.step_eq]
      dsimp only [Sum.elim_inr]
      cases second.next p (exec (second.op p) shared).1 <;> rfl
  nextOp_eq p := by
    cases p with
    | inl p => exact first.nextOp_eq p
    | inr p => exact second.nextOp_eq p

/-- A thread whose calls are on either side. -/
def Chart.beside (first : Chart Op₁ Val P₁ C₁) (second : Chart Op₂ Val P₂ C₂) :
    Chart (Op₁ ⊕ Op₂) Val (P₁ ⊕ P₂) (C₁ ⊕ C₂) :=
  (first.mapOp .inl).either (second.mapOp .inr)

@[simp] theorem Chart.beside_inl (first : Chart Op₁ Val P₁ C₁) (second : Chart Op₂ Val P₂ C₂) (c : C₁) :
    (first.beside second).code (.inl c) = (first.code c).mapOp .inl := rfl

@[simp] theorem Chart.beside_inr (first : Chart Op₁ Val P₁ C₁) (second : Chart Op₂ Val P₂ C₂) (c : C₂) :
    (first.beside second).code (.inr c) = (second.code c).mapOp .inr := rfl

/-- What a thread does on the first side. -/
def Place.first (l : Place (P₁ ⊕ P₂) (C₁ ⊕ C₂)) : Place P₁ C₁ :=
  ⟨l.point.bind Sum.getLeft?, l.calls.filterMap Sum.getLeft?⟩

@[simp] theorem Place.first_mk (point : Option (P₁ ⊕ P₂)) (calls : List (C₁ ⊕ C₂)) :
    (Place.mk point calls).first = ⟨point.bind Sum.getLeft?, calls.filterMap Sum.getLeft?⟩ := rfl

variable {chart₁ : Chart Op₁ Val P₁ C₁} {chart₂ : Chart Op₂ Val P₂ C₂} {exec₁ : Op₁ → σ₁ → Val × σ₁}
  {exec₂ : Op₂ → σ₂ → Val × σ₂}

theorem map_inl_left (p : Option P₁) : (p.map (Sum.inl : P₁ → P₁ ⊕ P₂)).bind Sum.getLeft? = p := by
  cases p <;> rfl

theorem map_inr_left (p : Option P₂) : (p.map (Sum.inr : P₂ → P₁ ⊕ P₂)).bind Sum.getLeft? = none := by
  cases p <;> rfl

variable (chart₁ chart₂ exec₁ exec₂) in
/-- A step of the thread is one on the first side, or nothing there. -/
theorem Chart.beside_first (l : Place (P₁ ⊕ P₂) (C₁ ⊕ C₂)) (s : σ₁ × σ₂) :
    let after := (chart₁.beside chart₂).step (execBoth exec₁ exec₂) l s
    (after.1.first, after.2.1) = chart₁.step exec₁ l.first s.1 ∨ (after.1.first, after.2.1) = (l.first, s.1) := by
  obtain ⟨_ | p | p, calls⟩ := l
  · cases calls with
    | nil => exact .inr rfl
    | cons call rest =>
      cases call with
      | inl c =>
        refine .inl (Prod.ext ?_ rfl)
        exact congrArg (Place.mk · (rest.filterMap Sum.getLeft?)) (map_inl_left (chart₁.enter c))
      | inr c =>
        refine .inr (Prod.ext ?_ rfl)
        exact congrArg (Place.mk · (rest.filterMap Sum.getLeft?)) (map_inr_left (chart₂.enter c))
  · refine .inl (Prod.ext ?_ rfl)
    exact congrArg (Place.mk · (calls.filterMap Sum.getLeft?)) (map_inl_left (chart₁.next p _))
  · refine .inr (Prod.ext ?_ rfl)
    exact congrArg (Place.mk · (calls.filterMap Sum.getLeft?)) (map_inr_left (chart₂.next p _))

end Charts

section Family

variable [Inhabited Val] {ι : Type} [DecidableEq ι] {Q₁ Q₂ D₁ D₂ : ι → Type}

abbrev BesidePlaces (Q₁ Q₂ D₁ D₂ : ι → Type) (σ₁ σ₂ : Type) : Type :=
  Places (fun i => Q₁ i ⊕ Q₂ i) (fun i => D₁ i ⊕ D₂ i) (σ₁ × σ₂)

def BesidePlaces.first (w : BesidePlaces Q₁ Q₂ D₁ D₂ σ₁ σ₂) : Places Q₁ D₁ σ₁ :=
  ⟨fun i => (w.proc i).first, w.shared.1⟩

abbrev besideAct (charts₁ : ∀ i, Chart Op₁ Val (Q₁ i) (D₁ i)) (charts₂ : ∀ i, Chart Op₂ Val (Q₂ i) (D₂ i))
    (exec₁ : ι → Op₁ → σ₁ → Val × σ₁) (exec₂ : ι → Op₂ → σ₂ → Val × σ₂) :=
  placeAct (fun i => (charts₁ i).beside (charts₂ i)) fun i => execBoth (exec₁ i) (exec₂ i)

variable {charts₁ : ∀ i, Chart Op₁ Val (Q₁ i) (D₁ i)} {charts₂ : ∀ i, Chart Op₂ Val (Q₂ i) (D₂ i)}
  {exec₁ : ι → Op₁ → σ₁ → Val × σ₁} {exec₂ : ι → Op₂ → σ₂ → Val × σ₂}
  {init w : BesidePlaces Q₁ Q₂ D₁ D₂ σ₁ σ₂}

theorem first_update (proc : ∀ i, Place (Q₁ i ⊕ Q₂ i) (D₁ i ⊕ D₂ i)) (i : ι)
    (l : Place (Q₁ i ⊕ Q₂ i) (D₁ i ⊕ D₂ i)) :
    (fun j => (Function.update proc i l j).first) = Function.update (fun j => (proc j).first) i l.first := by
  funext j
  by_cases mine : j = i
  · subst mine
    simp
  · simp [mine]

variable (charts₁ charts₂ exec₁ exec₂) in
theorem first_step (w : BesidePlaces Q₁ Q₂ D₁ D₂ σ₁ σ₂) (i : ι) :
    BesidePlaces.first (w.step (besideAct charts₁ charts₂ exec₁ exec₂) i) =
        (BesidePlaces.first w).step (placeAct charts₁ exec₁) i ∨
      BesidePlaces.first (w.step (besideAct charts₁ charts₂ exec₁ exec₂) i) = BesidePlaces.first w := by
  rcases Chart.beside_first (charts₁ i) (charts₂ i) (exec₁ i) (exec₂ i) (w.proc i) w.shared with same | same
  · left
    simp only [BesidePlaces.first, World.step, first_update, ← same]
  · right
    obtain ⟨place, shared⟩ := Prod.mk.inj same
    simp only [BesidePlaces.first, World.step, first_update, place, shared, Function.update_eq_self]

theorem first_step_inl {i : ι} {p : Q₁ i} {calls : List (D₁ i ⊕ D₂ i)} (here : w.proc i = ⟨some (.inl p), calls⟩) :
    BesidePlaces.first (w.step (besideAct charts₁ charts₂ exec₁ exec₂) i) =
      (BesidePlaces.first w).step (placeAct charts₁ exec₁) i := by
  have there : (BesidePlaces.first w).proc i = ⟨some p, calls.filterMap Sum.getLeft?⟩ := by
    simp [BesidePlaces.first, here]
  rw [Places.step_op here, Places.step_op there]
  simp only [BesidePlaces.first, first_update]
  exact congrArg (fun l => World.mk (Function.update _ i l) _)
    (congrArg (Place.mk · (calls.filterMap Sum.getLeft?)) (map_inl_left ((charts₁ i).next p _)))

/-- What is reached by two systems beside each other, each of them reaches by itself. -/
theorem first_reachable (reach : World.Reachable (besideAct charts₁ charts₂ exec₁ exec₂) init w) :
    World.Reachable (placeAct charts₁ exec₁) (BesidePlaces.first init) (BesidePlaces.first w) := by
  refine reach.invariant (motive := fun w => World.Reachable (placeAct charts₁ exec₁) (BesidePlaces.first init)
    (BesidePlaces.first w)) (fun w i _ reached => ?_) (.refl _ _)
  rcases first_step charts₁ charts₂ exec₁ exec₂ w i with step | still
  · rw [step]
    exact reached.step i
  · rw [still]
    exact reached

end Family

end Interleave
