import Mathlib.Data.List.Basic
import Mathlib.Data.List.Infix
import Mathlib.Data.List.Forall2

namespace Fallible

variable {α β : Type} {f : β → α → Option β}

/-- What each step of a fold keeps, with the items it has processed, holds at its end. -/
theorem foldlM_invariant {motive : List α → β → Prop} {items : List α} {s s' : β}
    (preserved : ∀ done item s s', done ++ [item] <+: items → motive done s → f s item = some s' →
      motive (done ++ [item]) s') (start : motive [] s) (run : items.foldlM f s = some s') :
    motive items s' := by
  suffices general : ∀ (done rest : List α) (s : β), done ++ rest <+: items → motive done s →
      rest.foldlM f s = some s' → motive (done ++ rest) s' from
    general [] items s (List.prefix_refl _) start run
  intro done rest
  induction rest generalizing done with
  | nil =>
    intro s _ kept ended
    cases ended
    rwa [List.append_nil]
  | cons item rest ih =>
    intro s within kept steps
    rw [List.foldlM_cons] at steps
    obtain ⟨next, one, more⟩ := Option.bind_eq_some_iff.mp steps
    rw [← List.singleton_append, ← List.append_assoc] at within ⊢
    have after := preserved done item s next (List.IsPrefix.trans (List.prefix_append _ _) within) kept one
    exact ih (done ++ [item]) next within after more

/-- A fold succeeds if and only if the condition on which a step succeeds holds of every item, where
    that condition may rest on what the steps before it keep. -/
theorem foldlM_isSome_iff {motive : List α → β → Prop} {ready : α → Prop} {items : List α} {s : β}
    (preserved : ∀ done item s s', done ++ [item] <+: items → motive done s → f s item = some s' →
      motive (done ++ [item]) s') (start : motive [] s)
    (progress : ∀ done item s, done ++ [item] <+: items → motive done s →
      ((∃ s', f s item = some s') ↔ ready item)) :
    (∃ s', items.foldlM f s = some s') ↔ ∀ item ∈ items, ready item := by
  suffices general : ∀ (done rest : List α) (s : β), done ++ rest <+: items → motive done s →
      ((∃ s', rest.foldlM f s = some s') ↔ ∀ item ∈ rest, ready item) from
    general [] items s (List.prefix_refl _) start
  intro done rest
  induction rest generalizing done with
  | nil =>
    intro s _ _
    simp
  | cons item rest ih =>
    intro s within kept
    rw [← List.singleton_append, ← List.append_assoc] at within
    have now := List.IsPrefix.trans (List.prefix_append _ _) within
    have step := progress done item s now kept
    rw [List.forall_mem_cons, ← step, List.foldlM_cons]
    constructor
    · rintro ⟨last, steps⟩
      obtain ⟨next, one, more⟩ := Option.bind_eq_some_iff.mp steps
      have after := preserved done item s next now kept one
      exact ⟨⟨next, one⟩, (ih (done ++ [item]) next within after).mp ⟨last, more⟩⟩
    · rintro ⟨⟨next, one⟩, others⟩
      have after := preserved done item s next now kept one
      obtain ⟨last, more⟩ := (ih (done ++ [item]) next within after).mpr others
      exact ⟨last, by rw [one]; exact more⟩

/-- What some of the items bring about and no item takes back. -/
theorem foldlM_gives {motive : β → Prop} (gives : α → Prop) {items : List α} {s s' : β}
    (each : ∀ item ∈ items, ∀ s s', f s item = some s' → motive s ∨ gives item → motive s')
    (run : items.foldlM f s = some s') (before : motive s ∨ ∃ item ∈ items, gives item) : motive s' := by
  induction items generalizing s with
  | nil =>
    cases run
    simpa using before
  | cons item rest ih =>
    rw [List.foldlM_cons] at run
    obtain ⟨t, one, more⟩ := Option.bind_eq_some_iff.mp run
    have first := each item List.mem_cons_self s t one
    refine ih (fun later member => each later (List.mem_cons_of_mem _ member)) more ?_
    rcases before with before | ⟨other, member, given⟩
    · exact .inl (first (.inl before))
    · rcases List.mem_cons.mp member with rfl | later
      · exact .inl (first (.inr given))
      · exact .inr ⟨other, later, given⟩

/-- In a fold that succeeds every item has had its step. -/
theorem foldlM_each {items : List α} {s s' : β} (run : items.foldlM f s = some s') :
    ∀ item ∈ items, ∃ t t', f t item = some t' := by
  induction items generalizing s with
  | nil => simp
  | cons item rest ih =>
    rw [List.foldlM_cons] at run
    obtain ⟨t, one, more⟩ := Option.bind_eq_some_iff.mp run
    exact List.forall_mem_cons.mpr ⟨⟨s, t, one⟩, ih more⟩

/-- A fold of which every step succeeds, by what the steps before it keep. -/
theorem foldlM_succeeds {motive : List α → β → Prop} {items : List α} {s : β}
    (each : ∀ done item s, done ++ [item] <+: items → motive done s →
      ∃ s', f s item = some s' ∧ motive (done ++ [item]) s') (start : motive [] s) :
    ∃ s', items.foldlM f s = some s' ∧ motive items s' := by
  have preserved : ∀ done item s s', done ++ [item] <+: items → motive done s → f s item = some s' →
      motive (done ++ [item]) s' := by
    intro done item s s' within kept one
    obtain ⟨next, one', after⟩ := each done item s within kept
    rwa [Option.some.inj (one.symm.trans one')]
  have ends : ∃ s', items.foldlM f s = some s' := by
    apply (foldlM_isSome_iff preserved start ?_).mpr fun _ _ => trivial
    intro done item s within kept
    obtain ⟨next, one, _⟩ := each done item s within kept
    exact iff_true_intro ⟨next, one⟩
  obtain ⟨s', run⟩ := ends
  exact ⟨s', run, foldlM_invariant preserved start run⟩

theorem foldlM_always {items : List α} (each : ∀ item ∈ items, ∀ s, ∃ s', f s item = some s') (s : β) :
    ∃ s', items.foldlM f s = some s' := by
  have run : ∃ s', items.foldlM f s = some s' ∧ True := by
    apply foldlM_succeeds (motive := fun _ _ => True)
    · intro done item t within _
      obtain ⟨t', one⟩ := each item (within.subset (by simp)) t
      exact ⟨t', one, trivial⟩
    · trivial
  obtain ⟨s', run, _⟩ := run
  exact ⟨s', run⟩

theorem foldlM_total_iff {ready : α → Prop} {items : List α} {s : β}
    (each : ∀ s item, (∃ s', f s item = some s') ↔ ready item) :
    (∃ s', items.foldlM f s = some s') ↔ ∀ item ∈ items, ready item :=
  foldlM_isSome_iff (motive := fun _ _ => True) (fun _ _ _ _ _ _ _ => trivial) trivial
    fun _ item s _ _ => each s item

theorem mapM_forall₂ {f : α → Option β} {items : List α} {results : List β}
    (run : items.mapM f = some results) : List.Forall₂ (fun item result => f item = some result) items results := by
  induction items generalizing results with
  | nil =>
    cases run
    exact .nil
  | cons item rest ih =>
    rw [List.mapM_cons] at run
    obtain ⟨result, one, run⟩ := Option.bind_eq_some_iff.mp run
    obtain ⟨others, more, run⟩ := Option.bind_eq_some_iff.mp run
    cases run
    exact .cons one (ih more)

theorem mapM_of_forall {f : α → Option β} {items : List α}
    (each : ∀ item ∈ items, ∃ result, f item = some result) : ∃ results, items.mapM f = some results := by
  induction items with
  | nil => exact ⟨[], rfl⟩
  | cons item rest ih =>
    obtain ⟨result, one⟩ := each item List.mem_cons_self
    obtain ⟨results, more⟩ := ih fun item later => each item (List.mem_cons_of_mem _ later)
    exact ⟨result :: results, by rw [List.mapM_cons, one, more]; rfl⟩

theorem mapM_succeeds {f : α → Option β} {good : β → Prop} {items : List α}
    (each : ∀ item ∈ items, ∃ result, f item = some result ∧ good result) :
    ∃ results, items.mapM f = some results ∧ ∀ result ∈ results, good result := by
  induction items with
  | nil => exact ⟨[], rfl, by simp⟩
  | cons item rest ih =>
    obtain ⟨result, one, first⟩ := each item List.mem_cons_self
    obtain ⟨results, more, others⟩ := ih fun item later => each item (List.mem_cons_of_mem _ later)
    refine ⟨result :: results, by rw [List.mapM_cons, one, more]; rfl, ?_⟩
    exact List.forall_mem_cons.mpr ⟨first, others⟩

theorem forall₂_right {R : α → β → Prop} {motive : β → Prop} {items : List α} {results : List β}
    (related : List.Forall₂ R items results) (each : ∀ item result, R item result → motive result) :
    ∀ result ∈ results, motive result := by
  induction related with
  | nil => simp
  | cons one _ ih => exact List.forall_mem_cons.mpr ⟨each _ _ one, ih⟩

theorem mapM_map {γ : Type} {f : α → Option α} {part : α → γ} {items results : List α}
    (run : items.mapM f = some results)
    (kept : ∀ item result, f item = some result → part result = part item) :
    results.map part = items.map part := by
  have related := mapM_forall₂ run
  clear run
  induction related with
  | nil => rfl
  | cons one _ ih => rw [List.map_cons, List.map_cons, kept _ _ one, ih]

theorem forall₂_getElem? {R : α → β → Prop} {items : List α} {results : List β}
    (related : List.Forall₂ R items results) {i : Nat} {item : α} (found : items[i]? = some item) :
    ∃ result, results[i]? = some result ∧ R item result := by
  induction related generalizing i with
  | nil => simp at found
  | cons one _ ih =>
    cases i with
    | zero =>
      cases found
      exact ⟨_, rfl, one⟩
    | succ i => exact ih found

end Fallible
