import LibMango.Fallible.Loops
import Mathlib.Data.Set.Lattice
import Mathlib.Order.CompletePartialOrder

namespace Fallible

section Related

variable {α β γ : Type} {R : α → β → Prop}

theorem rel_bind {δ : Type} {S : γ → δ → Prop} {x : Option α} {y : Option β} {f : α → Option γ}
    {g : β → Option δ} (start : Option.Rel R x y) (each : ∀ a b, R a b → Option.Rel S (f a) (g b)) :
    Option.Rel S (x >>= f) (y >>= g) := by
  cases start with
  | some related => exact each _ _ related
  | none => exact .none

theorem rel_trans {x y z : Option α} {S : α → α → Prop} (trans : ∀ a b c, S a b → S b c → S a c)
    (first : Option.Rel S x y) (rest : Option.Rel S y z) : Option.Rel S x z := by
  cases first with
  | none => exact rest
  | some related =>
    cases rest with
    | some more => exact .some (trans _ _ _ related more)

theorem rel_swap {x : Option α} {y : Option β} (related : Option.Rel R x y) :
    Option.Rel (fun b a => R a b) y x := by
  cases related with
  | some related => exact .some related
  | none => exact .none

theorem rel_some {x : α} {y : Option β} (related : Option.Rel R (some x) y) : ∃ b, y = some b ∧ R x b := by
  cases related with
  | some related => exact ⟨_, rfl, related⟩

end Related

section Owned

variable {ι β : Type} {V : ι → Type} (view : ∀ i, β → V i)

/-- Two states agree in some of their parts. -/
def AgreeOn (own : Set ι) (s t : β) : Prop := ∀ i ∈ own, view i s = view i t

/-- A step that touches its own parts of the state only, and of which the others tell nothing. -/
structure Within (own : Set ι) (f : β → Option β) : Prop where
  frame : ∀ s s', f s = some s' → ∀ i ∉ own, view i s' = view i s
  inside : ∀ s t, AgreeOn view own s t → Option.Rel (AgreeOn view own) (f s) (f t)

/-- Two states agree in all their parts. -/
abbrev Same (s t : β) : Prop := AgreeOn view Set.univ s t

variable {view} {own own' : Set ι} {f g : β → Option β} {s t u : β}

theorem AgreeOn.symm (agree : AgreeOn view own s t) : AgreeOn view own t s := fun i mine =>
  (agree i mine).symm

theorem AgreeOn.trans (first : AgreeOn view own s t) (rest : AgreeOn view own t u) :
    AgreeOn view own s u := fun i mine => (first i mine).trans (rest i mine)

theorem AgreeOn.mono (agree : AgreeOn view own s t) (part : own' ⊆ own) : AgreeOn view own' s t :=
  fun i mine => agree i (part mine)

theorem Within.skip : Within view own some where
  frame _ _ run _ _ := by
    cases run
    rfl
  inside _ _ agree := .some agree

theorem Within.fail : Within view own fun _ => none where
  frame _ _ run := by cases run
  inside _ _ _ := .none

theorem Within.bind (first : Within view own f) (rest : Within view own g) :
    Within view own fun s => f s >>= g where
  frame s s' run i other := by
    obtain ⟨t, one, more⟩ := Option.bind_eq_some_iff.mp run
    rw [rest.frame t s' more i other, first.frame s t one i other]
  inside s t agree := rel_bind (first.inside s t agree) rest.inside

/-- A step that first reads something from its own parts. -/
theorem Within.read {γ : Type} {value : β → Option γ} {g : γ → β → Option β}
    (known : ∀ s t, AgreeOn view own s t → value s = value t) (each : ∀ c, Within view own (g c)) :
    Within view own fun s => value s >>= fun c => g c s where
  frame s s' run i other := by
    obtain ⟨c, _, one⟩ := Option.bind_eq_some_iff.mp run
    exact (each c).frame s s' one i other
  inside s t agree := by
    rw [known s t agree]
    cases value t with
    | none => exact .none
    | some c => exact (each c).inside s t agree

theorem Within.fold {α : Type} {f : β → α → Option β} {items : List α}
    (each : ∀ item ∈ items, Within view own (f · item)) : Within view own (items.foldlM f) := by
  induction items with
  | nil => exact Within.skip
  | cons item rest ih =>
    have later := ih fun item' member => each item' (List.mem_cons_of_mem _ member)
    exact (each item List.mem_cons_self).bind later

theorem Within.mono (within : Within view own f) (part : own ⊆ own') : Within view own' f where
  frame s s' run i other := within.frame s s' run i fun mine => other (part mine)
  inside s t same := by
    have inside := within.inside s t (same.mono part)
    rcases here : f s with _ | s' <;> rcases there : f t with _ | t' <;> rw [here, there] at inside
    · exact .none
    · cases inside
    · cases inside
    · apply Option.Rel.some
      intro i listed
      by_cases mine : i ∈ own
      · cases inside with
        | some agree => exact agree i mine
      · rw [within.frame s s' here i mine, within.frame t t' there i mine]
        exact same i listed

theorem Within.respects (within : Within view own f) (same : Same view s t) :
    Option.Rel (Same view) (f s) (f t) := (within.mono (Set.subset_univ own)).inside s t same

/-- Steps of two owners can be exchanged. -/
theorem Within.swap (first : Within view own f) (second : Within view own' g) (apart : Disjoint own own')
    (s : β) : Option.Rel (Same view) (f s >>= g) (g s >>= f) := by
  have kept : ∀ t, f s = some t → AgreeOn view own' s t := fun t run i mine =>
    (first.frame s t run i fun other => Set.disjoint_left.mp apart other mine).symm
  have kept' : ∀ t, g s = some t → AgreeOn view own s t := fun t run i mine =>
    (second.frame s t run i fun other => Set.disjoint_left.mp apart mine other).symm
  rcases one : f s with _ | s₁ <;> rcases two : g s with _ | s₂
  · exact .none
  · have again := first.inside s s₂ (kept' s₂ two)
    rw [one] at again
    change Option.Rel _ none (f s₂)
    rcases last : f s₂ with _ | _
    · exact .none
    · rw [last] at again
      cases again
  · have again := second.inside s s₁ (kept s₁ one)
    rw [two] at again
    change Option.Rel _ (g s₁) none
    rcases last : g s₁ with _ | _
    · exact .none
    · rw [last] at again
      cases again
  · have again := first.inside s s₂ (kept' s₂ two)
    have again' := second.inside s s₁ (kept s₁ one)
    rw [one] at again
    rw [two] at again'
    obtain ⟨t₂, last, agree⟩ := rel_some again
    obtain ⟨t₁, last', agree'⟩ := rel_some again'
    change Option.Rel _ (g s₁) (f s₂)
    rw [last, last']
    apply Option.Rel.some
    intro i _
    by_cases mine : i ∈ own
    · have other : i ∉ own' := Set.disjoint_left.mp apart mine
      rw [second.frame s₁ t₁ last' i other]
      exact agree i mine
    · rw [first.frame s₂ t₂ last i mine]
      by_cases other : i ∈ own'
      · exact (agree' i other).symm
      · rw [second.frame s₁ t₁ last' i other, first.frame s s₁ one i mine, second.frame s s₂ two i other]

theorem same_trans {x y z : Option β} (first : Option.Rel (Same view) x y) (rest : Option.Rel (Same view) y z) :
    Option.Rel (Same view) x z := rel_trans (fun _ _ _ => AgreeOn.trans) first rest

theorem Within.bind_same {x y : Option β} (within : Within view own f) (same : Option.Rel (Same view) x y) :
    Option.Rel (Same view) (x >>= f) (y >>= f) := rel_bind same fun _ _ agree => within.respects agree

variable {α : Type} {f : β → α → Option β} {owns : α → Set ι} {items items' : List α}

/-- A fold over the steps of different owners does the same in any order of its items. -/
theorem foldlM_perm (perm : items.Perm items') (within : ∀ item ∈ items, Within view (owns item) (f · item))
    (apart : items.Pairwise fun a b => Disjoint (owns a) (owns b)) (same : Same view s t) :
    Option.Rel (Same view) (items.foldlM f s) (items'.foldlM f t) := by
  induction perm generalizing s t with
  | nil => exact .some same
  | cons a _ ih =>
    apply rel_bind ((within a List.mem_cons_self).respects same)
    intro s' t' same'
    exact ih (fun item member => within item (List.mem_cons_of_mem _ member)) (List.pairwise_cons.mp apart).2 same'
  | swap a b rest =>
    have stepA := within a (by simp)
    have stepB := within b (by simp)
    have later : Within view Set.univ (rest.foldlM f) := by
      apply Within.fold
      intro item member
      exact (within item (by simp [member])).mono (Set.subset_univ _)
    have disjoint : Disjoint (owns b) (owns a) := (List.pairwise_cons.mp apart).1 a List.mem_cons_self
    have exchanged := same_trans (stepA.bind_same (stepB.respects same)) (stepB.swap stepA disjoint t)
    simp only [List.foldlM_cons, ← bind_assoc]
    exact rel_bind exchanged fun s' t' same' => later.respects same'
  | trans first _ ih ih' =>
    have middle := ih within apart (fun i _ => rfl : Same view s s)
    have within' := fun item member => within item (first.mem_iff.mpr member)
    have apart' := (first.pairwise_iff fun disjoint => Disjoint.symm disjoint).mp apart
    exact same_trans middle (ih' within' apart' same)

end Owned

end Fallible
