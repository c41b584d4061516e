import LibMango.Interleave.Chart

namespace Interleave

variable {Op Val P C β : Type}

namespace Prog

def value : Prog Op Val → Option Val
  | .ret value => some value
  | _ => none

theorem value_of_busy {p : Prog Op Val} (busy : p.nextOp ≠ none) : p.value = none := by
  cases p with
  | ret value => exact absurd rfl busy
  | op action next => rfl
  | iterate running body again next => rfl

variable (answers : Nat → Val)

/-- The step at the given time, in an environment of which only its answers are known. -/
def answered (time : Nat) (p : Prog Op Val) : Prog Op Val :=
  (p.step (fun _ _ => (answers time, ())) ()).1

/-- What is left of a program after the given number of steps. -/
def left (p : Prog Op Val) : Nat → Prog Op Val
  | 0 => p
  | time + 1 => answered answers time (left p time)

/-- The operations of these steps. -/
def performed (p : Prog Op Val) : Nat → List Op
  | 0 => []
  | time + 1 => performed p time ++ (left answers p time).nextOp.toList

/-- The value that an iteration of the outermost loop ends with, if the next step ends one. -/
def turn (time : Nat) : Prog Op Val → Option Val
  | .iterate running _ _ _ => (running.answered answers time).value
  | _ => none

/-- The values that the iterations of the outermost loop ended with. -/
def turns (p : Prog Op Val) : Nat → List Val
  | 0 => []
  | time + 1 => turns p time ++ ((left answers p time).turn answers time).toList

variable {answers} {p : Prog Op Val} {time : Nat} {result : Val}

theorem answered_of_value (ended : p.value = some result) : p.answered answers time = p := by
  cases p with
  | ret value => rfl
  | op action next => cases ended
  | iterate running body again next => cases ended

theorem nextOp_of_value (ended : p.value = some result) : p.nextOp = none := by
  by_contra busy
  rw [value_of_busy busy] at ended
  cases ended

theorem turn_of_value (ended : p.value = some result) : p.turn answers time = none := by
  cases p with
  | iterate running body again next => cases ended
  | _ => rfl

theorem left_of_value (ended : (p.left answers time).value = some result) {later : Nat}
    (order : time ≤ later) : p.left answers later = p.left answers time := by
  induction later, order using Nat.le_induction with
  | base => rfl
  | succ later _ ih =>
    rw [← ih] at ended
    rw [left, answered_of_value ended, ih]

theorem performed_of_value (ended : (p.left answers time).value = some result) {later : Nat}
    (order : time ≤ later) : p.performed answers later = p.performed answers time := by
  induction later, order using Nat.le_induction with
  | base => rfl
  | succ later order ih =>
    rw [performed, left_of_value ended order, nextOp_of_value ended, ih]
    exact List.append_nil _

theorem turns_of_value (ended : (p.left answers time).value = some result) {later : Nat}
    (order : time ≤ later) : p.turns answers later = p.turns answers time := by
  induction later, order using Nat.le_induction with
  | base => rfl
  | succ later order ih =>
    rw [turns, left_of_value ended order, turn_of_value ended, ih]
    exact List.append_nil _

theorem turns_mono {later : Nat} (order : time ≤ later) :
    p.turns answers time <+: p.turns answers later := by
  induction later, order using Nat.le_induction with
  | base => exact List.prefix_rfl
  | succ later _ ih => exact ih.trans (List.prefix_append _ _)

theorem turns_prefix_of_value (ended : (p.left answers time).value = some result) (other : Nat) :
    p.turns answers other <+: p.turns answers time := by
  rcases Nat.le_total other time with before | after
  · exact turns_mono before
  · exact ⟨[], by rw [List.append_nil, turns_of_value ended after]⟩

theorem performed_unique {other : Nat} {found : Val} (ended : (p.left answers time).value = some result)
    (also : (p.left answers other).value = some found) :
    p.performed answers time = p.performed answers other := by
  rcases Nat.le_total other time with before | after
  · exact performed_of_value also before
  · exact (performed_of_value ended after).symm

end Prog

namespace Chart

variable [Inhabited Val] (chart : Chart Op Val P C) (answers : Nat → Val)

/-- The control point that a call is at, after the given number of steps. -/
def points (c : C) : Nat → Option P
  | 0 => chart.enter c
  | time + 1 => (points c time).bind fun p => chart.next p (answers time)

theorem left_code (c : C) (time : Nat) :
    (chart.code c).left answers time =
      (chart.points answers c time).elim (.ret default) chart.prog := by
  induction time with
  | zero => exact chart.code_eq c
  | succ time ih =>
    rw [Prog.left, ih, points]
    cases chart.points answers c time with
    | none => rfl
    | some p => exact congrArg Prod.fst (chart.step_eq Unit _ p ())

/-- The call is at the given place, with these observations made of its operations and
    these values at the ends of its iterations. -/
structure At (observe : Op → Option β) (c : C) (time : Nat) (place : Option P) (seen : List β)
    (ends : List Val) : Prop where
  place_eq : chart.points answers c time = place
  seen_eq : ((chart.code c).performed answers time).filterMap observe = seen
  ends_eq : (chart.code c).turns answers time = ends

variable {chart answers} {observe : Op → Option β} {c : C} {time : Nat} {seen : List β}
  {ends : List Val}

theorem At.start : At chart answers observe c 0 (chart.enter c) [] [] := ⟨rfl, rfl, rfl⟩

theorem At.step {p : P} (reached : At chart answers observe c time (some p) seen ends) :
    At chart answers observe c (time + 1) (chart.next p (answers time))
      (seen ++ (observe (chart.op p)).toList)
      (ends ++ ((chart.prog p).turn answers time).toList) := by
  have here : (chart.code c).left answers time = chart.prog p := by
    rw [chart.left_code, reached.place_eq]
    rfl
  constructor
  · rw [points, reached.place_eq]
    rfl
  · rw [Prog.performed, here, chart.nextOp_eq, List.filterMap_append, reached.seen_eq]
    cases observed : observe (chart.op p) <;> simp [observed]
  · rw [Prog.turns, here, reached.ends_eq]

/-- A step inside an iteration. -/
theorem At.inside {p : P} {place : Option P} (reached : At chart answers observe c time (some p) seen ends)
    (next : chart.next p (answers time) = place)
    (within : (chart.prog p).turn answers time = none) :
    At chart answers observe c (time + 1) place (seen ++ (observe (chart.op p)).toList) ends := by
  have stepped := reached.step
  rwa [next, within, Option.toList_none, List.append_nil] at stepped

/-- A step inside an iteration that is not observed. -/
theorem At.pass {p : P} {place : Option P} (reached : At chart answers observe c time (some p) seen ends)
    (next : chart.next p (answers time) = place) (unseen : observe (chart.op p) = none)
    (within : (chart.prog p).turn answers time = none) :
    At chart answers observe c (time + 1) place seen ends := by
  have stepped := reached.inside next within
  rwa [unseen, Option.toList_none, List.append_nil] at stepped

theorem At.nextOp {place : Option P} (reached : At chart answers observe c time place seen ends) :
    ((chart.code c).left answers time).nextOp = place.map chart.op := by
  rw [chart.left_code, reached.place_eq]
  cases place with
  | none => rfl
  | some p => exact chart.nextOp_eq p

theorem At.ended (reached : At chart answers observe c time none seen ends) :
    ((chart.code c).left answers time).value = some default := by
  rw [chart.left_code, reached.place_eq]
  rfl

end Chart

end Interleave
