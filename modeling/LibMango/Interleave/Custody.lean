import LibMango.Interleave.World

namespace Interleave

/-- Registers whose value is taken out by a read, with the party that took it last. -/
structure Custody (ι ρ V : Type) where
  value : ρ → V
  taker : ρ → Option ι

inductive Access (ρ V : Type) where
  | take (e : ρ)
  | put (e : ρ) (v : V)
  | none

namespace Custody

variable {ι ρ V : Type}

/-- Who has to put a value back into which register: such a party took that value, nobody
    else took or wrote the register since, and the register is empty. -/
def Sound [Zero V] (owes : ι → Option ρ) (c : Custody ι ρ V) : Prop :=
  ∀ i e, owes i = some e → c.value e = 0 ∧ c.taker e = some i

theorem Sound.owner_unique [Zero V] {owes : ι → Option ρ} {c : Custody ι ρ V} {i j : ι} {e : ρ}
    (sound : Sound owes c) (mine : owes i = some e) (theirs : owes j = some e) : j = i := by
  have first := (sound i e mine).2
  rw [(sound j e theirs).2] at first
  exact Option.some.inj first

variable [DecidableEq ρ]

section Put

/-- An atomic write; `combine` says what becomes of the old value. -/
def put (combine : V → V → V) (e : ρ) (v : V) (c : Custody ι ρ V) : Custody ι ρ V :=
  ⟨Function.update c.value e (combine (c.value e) v), Function.update c.taker e none⟩

variable (c : Custody ι ρ V) (e : ρ) (combine : V → V → V) (v : V)

@[simp] theorem put_value_self : (c.put combine e v).value e = combine (c.value e) v := by simp [put]

theorem put_value_other {f : ρ} (other : f ≠ e) : (c.put combine e v).value f = c.value f := by
  simp [put, other]

@[simp] theorem put_taker_self : (c.put combine e v).taker e = none := by simp [put]

theorem put_taker_other {f : ρ} (other : f ≠ e) : (c.put combine e v).taker f = c.taker f := by
  simp [put, other]

theorem put_congr [Zero V] {combine combine' : V → V → V} (empty : c.value e = 0)
    (agree : combine 0 v = combine' 0 v) : c.put combine e v = c.put combine' e v := by
  simp only [put, empty, agree]

end Put

variable [Zero V] [DecidableEq V]

/-- An atomic read that leaves 0 behind. -/
def take (i : ι) (e : ρ) (c : Custody ι ρ V) : Custody ι ρ V :=
  ⟨Function.update c.value e 0, if c.value e = 0 then c.taker else Function.update c.taker e (some i)⟩

def apply (combine : V → V → V) (i : ι) : Access ρ V → Custody ι ρ V → Custody ι ρ V
  | .take e, c => c.take i e
  | .put e v, c => c.put combine e v
  | .none, c => c

section Take

variable (c : Custody ι ρ V) (i : ι) (e : ρ)

@[simp] theorem take_value_self : (c.take i e).value e = 0 := by simp [take]

theorem take_value_other {f : ρ} (other : f ≠ e) : (c.take i e).value f = c.value f := by
  simp [take, other]

theorem take_taker_other {f : ρ} (other : f ≠ e) : (c.take i e).taker f = c.taker f := by
  simp only [take]
  split <;> simp [other]

theorem take_taker_filled (filled : c.value e ≠ 0) : (c.take i e).taker e = some i := by
  simp [take, filled]

theorem take_empty (empty : c.value e = 0) : c.take i e = c := by
  have unchanged : Function.update c.value e 0 = c.value := by
    rw [← empty, Function.update_eq_self]
  simp only [take, empty, unchanged, ↓reduceIte]

end Take

variable [DecidableEq ι] {owes : ι → Option ρ} {c : Custody ι ρ V} {i : ι} {e : ρ}

theorem Sound.take (sound : Sound owes c) (free : owes i = none) {debt : Option ρ}
    (settled : debt = none ∨ debt = some e ∧ c.value e ≠ 0) :
    Sound (Function.update owes i debt) (c.take i e) := by
  intro j f owed
  by_cases same : j = i
  · subst same
    rw [Function.update_self] at owed
    rcases settled with rfl | ⟨rfl, filled⟩
    · cases owed
    · cases owed
      exact ⟨c.take_value_self j e, c.take_taker_filled j e filled⟩
  · rw [Function.update_of_ne same] at owed
    have held := sound j f owed
    by_cases register : f = e
    · subst register
      rw [c.take_empty i f held.1]
      exact held
    · rw [c.take_value_other i e register, c.take_taker_other i e register]
      exact held

omit [DecidableEq V] in
theorem Sound.put (sound : Sound owes c) (mine : owes i = some e) (combine : V → V → V) (v : V) :
    Sound (Function.update owes i none) (c.put combine e v) := by
  intro j f owed
  by_cases same : j = i
  · subst same
    rw [Function.update_self] at owed
    cases owed
  · rw [Function.update_of_ne same] at owed
    have other : f ≠ e := by
      rintro rfl
      exact same (sound.owner_unique mine owed)
    rw [c.put_value_other e combine v other, c.put_taker_other e combine v other]
    exact sound j f owed

/-- The debt a party may have after an access, from its debt before it: a read starts from
    no debt and may leave one if it found a value, a write pays the debt, nothing else
    changes it. -/
def Disciplined (access : Access ρ V) (found : V) (before after : Option ρ) : Prop :=
  match access with
  | .take e => before = none ∧ (after = none ∨ after = some e ∧ found ≠ 0)
  | .put e _ => before = some e ∧ after = none
  | .none => after = before

/-- Lock discipline is an invariant of any interleaving of disciplined steps. -/
theorem Sound.apply (sound : Sound owes c) (combine : V → V → V) (access : Access ρ V)
    {found : V} (answer : ∀ e, access = .take e → found = c.value e) {debt : Option ρ}
    (disciplined : Disciplined access found (owes i) debt) :
    Sound (Function.update owes i debt) (c.apply combine i access) := by
  cases access with
  | take e =>
    obtain ⟨free, settled⟩ := disciplined
    rw [answer e rfl] at settled
    exact sound.take free settled
  | put e v =>
    obtain ⟨mine, rfl⟩ := disciplined
    exact sound.put mine combine v
  | none =>
    have unchanged : debt = owes i := disciplined
    rw [unchanged, Function.update_eq_self]
    exact sound

def Lost (owes : ι → Option ρ) (c : Custody ι ρ V) (e : ρ) : Prop :=
  c.value e = 0 ∧ ∀ i, owes i ≠ some e

/-- A value that is lost never comes back. -/
theorem Lost.apply (lost : Lost owes c e) (combine : V → V → V) (access : Access ρ V)
    {found : V} (answer : ∀ f, access = .take f → found = c.value f) {debt : Option ρ}
    (disciplined : Disciplined access found (owes i) debt) :
    Lost (Function.update owes i debt) (c.apply combine i access) e := by
  obtain ⟨empty, nobody⟩ := lost
  have others : debt ≠ some e → ∀ j, Function.update owes i debt j ≠ some e := by
    intro mine j
    by_cases same : j = i
    · subst same
      rwa [Function.update_self]
    · rw [Function.update_of_ne same]
      exact nobody j
  cases access with
  | take f =>
    obtain ⟨_, settled⟩ := disciplined
    have free : debt ≠ some e := by
      rintro rfl
      rcases settled with none | ⟨same, filled⟩
      · cases none
      · cases same
        exact filled ((answer e rfl).trans empty)
    refine ⟨?_, others free⟩
    by_cases register : e = f
    · subst register
      exact c.take_value_self i e
    · exact (c.take_value_other i f register).trans empty
  | put f v =>
    obtain ⟨mine, rfl⟩ := disciplined
    have other : e ≠ f := by
      rintro rfl
      exact nobody i mine
    exact ⟨(c.put_value_other f combine v other).trans empty, others (by simp)⟩
  | none =>
    have unchanged : debt = owes i := disciplined
    exact ⟨empty, others (unchanged ▸ nobody i)⟩

end Custody

end Interleave
