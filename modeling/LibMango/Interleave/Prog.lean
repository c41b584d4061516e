import Mathlib.Logic.Function.Basic

namespace Interleave

/-- A sequential program over atomic operations. `iterate` is a do-while loop in
    the middle of an iteration, of which `running` is what is left to do. -/
inductive Prog (Op Val : Type) where
  | ret (value : Val)
  | op (action : Op) (next : Val → Prog Op Val)
  | iterate (running : Prog Op Val) (body : Val → Prog Op Val) (again : Val → Bool)
      (next : Val → Prog Op Val)

variable {Op Op' Val σ α β : Type}

namespace Prog

/-- What a loop does once its current iteration has become the given program. -/
def resume (body : Val → Prog Op Val) (again : Val → Bool) (next : Val → Prog Op Val) :
    Prog Op Val → Prog Op Val
  | .ret value => if again value then .iterate (body value) body again next else next value
  | .op action rest => .iterate (.op action rest) body again next
  | .iterate running inner repeated rest =>
    .iterate (.iterate running inner repeated rest) body again next

@[simp] theorem resume_op (body : Val → Prog Op Val) (again : Val → Bool)
    (next : Val → Prog Op Val) (action : Op) (rest : Val → Prog Op Val) :
    resume body again next (.op action rest) = .iterate (.op action rest) body again next := rfl

@[simp] theorem resume_iterate (body : Val → Prog Op Val) (again : Val → Bool)
    (next : Val → Prog Op Val) (running : Prog Op Val) (inner : Val → Prog Op Val)
    (repeated : Val → Bool) (rest : Val → Prog Op Val) :
    resume body again next (.iterate running inner repeated rest) =
      .iterate (.iterate running inner repeated rest) body again next := rfl

def step (exec : Op → σ → Val × σ) : Prog Op Val → σ → Prog Op Val × σ
  | .ret value, shared => (.ret value, shared)
  | .op action next, shared => (next (exec action shared).1, (exec action shared).2)
  | .iterate running body again next, shared =>
    (resume body again next (step exec running shared).1, (step exec running shared).2)

@[simp] theorem step_ret (exec : Op → σ → Val × σ) (value : Val) (shared : σ) :
    step exec (.ret value) shared = (.ret value, shared) := rfl

@[simp] theorem step_op (exec : Op → σ → Val × σ) (action : Op) (next : Val → Prog Op Val)
    (shared : σ) :
    step exec (.op action next) shared = (next (exec action shared).1, (exec action shared).2) := rfl

@[simp] theorem step_iterate (exec : Op → σ → Val × σ) (running : Prog Op Val)
    (body : Val → Prog Op Val) (again : Val → Bool) (next : Val → Prog Op Val) (shared : σ) :
    step exec (.iterate running body again next) shared =
      (resume body again next (step exec running shared).1, (step exec running shared).2) := rfl

def nextOp : Prog Op Val → Option Op
  | .ret _ => none
  | .op action _ => some action
  | .iterate running _ _ _ => running.nextOp

/-- The first of the relevant operations the program comes to; the operations before it
    are answered by a default value. -/
def firstOp [Inhabited Val] (relevant : Op → Bool) : Prog Op Val → Option Op
  | .ret _ => none
  | .op action next => if relevant action then some action else firstOp relevant (next default)
  | .iterate running _ _ _ => firstOp relevant running

theorem resume_busy {body : Val → Prog Op Val} {again : Val → Bool} {next : Val → Prog Op Val}
    {p : Prog Op Val} (busy : p.nextOp ≠ none) :
    resume body again next p = .iterate p body again next := by
  cases p with
  | ret value => exact absurd rfl busy
  | op action rest => rfl
  | iterate running inner repeated rest => rfl

/-- What the program leaves behind when nobody else acts, if `fuel` steps are enough. -/
def alone (exec : Op → σ → Val × σ) (fuel : Nat) (p : Prog Op Val) (shared : σ) : Option σ :=
  match p, fuel with
  | .ret _, _ => some shared
  | _, 0 => none
  | p, fuel + 1 => alone exec fuel (p.step exec shared).1 (p.step exec shared).2

theorem alone_ret (exec : Op → σ → Val × σ) (fuel : Nat) (value : Val) (shared : σ) :
    alone exec fuel (.ret value) shared = some shared := by
  cases fuel <;> rfl

theorem alone_zero (exec : Op → σ → Val × σ) {p : Prog Op Val} (busy : p.nextOp ≠ none) (shared : σ) :
    alone exec 0 p shared = none := by
  cases p with
  | ret value => exact absurd rfl busy
  | op action next => rfl
  | iterate running body again next => rfl

theorem alone_step (exec : Op → σ → Val × σ) {p : Prog Op Val} (busy : p.nextOp ≠ none)
    (fuel : Nat) (shared : σ) :
    alone exec (fuel + 1) p shared = alone exec fuel (p.step exec shared).1 (p.step exec shared).2 := by
  cases p with
  | ret value => exact absurd rfl busy
  | op action next => rfl
  | iterate running body again next => rfl

theorem alone_more (exec : Op → σ → Val × σ) {fuel : Nat} {p : Prog Op Val} {shared after : σ}
    (ended : alone exec fuel p shared = some after) (extra : Nat) :
    alone exec (fuel + extra) p shared = some after := by
  induction fuel generalizing p shared with
  | zero =>
    cases p with
    | ret value => rw [alone_ret] at ended ⊢; exact ended
    | op action next => cases ended
    | iterate running body again next => cases ended
  | succ fuel ih =>
    rw [Nat.succ_add]
    cases p with
    | ret value => rw [alone_ret] at ended ⊢; exact ended
    | op action next => exact ih ended
    | iterate running body again next => exact ih ended

/-- The same program among the operations of a larger system. -/
def mapOp (embed : Op → Op') : Prog Op Val → Prog Op' Val
  | .ret value => .ret value
  | .op action next => .op (embed action) fun value => mapOp embed (next value)
  | .iterate running body again next =>
    .iterate (mapOp embed running) (fun value => mapOp embed (body value)) again
      (fun value => mapOp embed (next value))

theorem mapOp_resume (embed : Op → Op') (body : Val → Prog Op Val) (again : Val → Bool)
    (next : Val → Prog Op Val) (p : Prog Op Val) :
    (resume body again next p).mapOp embed =
      resume (fun value => (body value).mapOp embed) again (fun value => (next value).mapOp embed)
        (p.mapOp embed) := by
  cases p with
  | ret value => by_cases repeats : again value = true <;> simp [resume, mapOp, repeats]
  | op action rest => rfl
  | iterate running inner repeated rest => rfl

theorem mapOp_step (embed : Op → Op') (exec : Op' → σ → Val × σ) (p : Prog Op Val) (shared : σ) :
    (p.mapOp embed).step exec shared =
      ((p.step (fun action => exec (embed action)) shared).1.mapOp embed,
        (p.step (fun action => exec (embed action)) shared).2) := by
  induction p with
  | ret value => rfl
  | op action next _ => rfl
  | iterate running body again next ih _ _ => simp only [mapOp, step_iterate, ih, mapOp_resume]

end Prog

/-- Program text in continuation style, so that `do` blocks read like the source. -/
def Code (Op Val α : Type) : Type := (α → Prog Op Val) → Prog Op Val

namespace Code

instance : Monad (Code Op Val) where
  pure value := fun next => next value
  bind code rest := fun next => code fun value => rest value next

def perform (action : Op) : Code Op Val Val := fun next => .op action next

/-- `do { value = body; } while (again(value));` -/
def doWhile (body : Code Op Val Val) (again : Val → Bool) : Code Op Val Val := fun next =>
  .iterate (body .ret) (fun _ => body .ret) again next

/-- `for (value = init; again(value); value = body(value)) ;` -/
def forLoop (init : Val) (again : Val → Bool) (body : Val → Code Op Val Val) :
    Code Op Val Val := fun next =>
  if again init then .iterate (body init .ret) (fun value => body value .ret) again next
  else next init

def call [Inhabited Val] (code : Code Op Val α) : Prog Op Val := code fun _ => .ret default

@[simp] theorem pure_apply (value : α) (next : α → Prog Op Val) :
    (pure value : Code Op Val α) next = next value := rfl

@[simp] theorem bind_apply (code : Code Op Val α) (rest : α → Code Op Val β)
    (next : β → Prog Op Val) : (code >>= rest) next = code fun value => rest value next := rfl

@[simp] theorem perform_apply (action : Op) (next : Val → Prog Op Val) :
    perform action next = .op action next := rfl

end Code

end Interleave
