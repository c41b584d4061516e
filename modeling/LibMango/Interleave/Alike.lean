import LibMango.Interleave.Chart
import LibMango.Interleave.Solo

namespace Interleave

variable {Op Val σ τ ι : Type}

theorem Prog.Only.mapOp {Op' : Type} {kind : Op' → Prop} {embed : Op → Op'} {p : Prog Op Val}
    (only : p.Only fun a => kind (embed a)) : (p.mapOp embed).Only kind := by
  induction p with
  | ret value => exact True.intro
  | op action next ih => exact ⟨only.1, fun value => ih value (only.2 value)⟩
  | iterate running body again next first bodies later =>
    exact ⟨first only.1, fun value => bodies value (only.2.1 value), fun value => later value (only.2.2 value)⟩

namespace Code

variable {α β : Type} {kind : Op → Prop}

/-- Whatever comes after the code, up to there every operation is of a kind. -/
def Only (kind : Op → Prop) (code : Code Op Val α) : Prop :=
  ∀ next : α → Prog Op Val, (∀ value, (next value).Only kind) → (code next).Only kind

theorem Only.pure (value : α) : (Pure.pure value : Code Op Val α).Only kind := fun _ later => later value

theorem Only.perform {action : Op} (own : kind action) : (Code.perform action : Code Op Val Val).Only kind :=
  fun _ later => ⟨own, later⟩

theorem Only.bind {code : Code Op Val α} {rest : α → Code Op Val β} (first : code.Only kind)
    (others : ∀ value, (rest value).Only kind) : (code >>= rest).Only kind :=
  fun next later => first _ fun value => others value next later

theorem Only.doWhile {body : Code Op Val Val} (again : Val → Bool) (own : body.Only kind) :
    (Code.doWhile body again).Only kind := by
  have once : (body .ret).Only kind := own .ret fun _ => True.intro
  exact fun next later => ⟨once, fun _ => once, later⟩

theorem Only.ite {p : Prop} [Decidable p] {code code' : Code Op Val α} (first : code.Only kind)
    (other : code'.Only kind) : (if p then code else code').Only kind := by
  split
  · exact first
  · exact other

theorem Only.call [Inhabited Val] {code : Code Op Val α} (own : code.Only kind) : code.call.Only kind :=
  own _ fun _ => True.intro

end Code

/-- Every operation of the thread's calls is of a kind. -/
def Thread.Only (kind : Op → Prop) (t : Thread Op Val) : Prop :=
  t.running.Only kind ∧ ∀ call ∈ t.calls, call.Only kind

/-- The second way to execute operations answers those of a kind as the first one does, and keeps what
    relates the states. -/
def Alike (kind : Op → Prop) (R : σ → τ → Prop) (exec : Op → σ → Val × σ) (exec' : Op → τ → Val × τ) : Prop :=
  ∀ a s t, kind a → R s t → (exec' a t).1 = (exec a s).1 ∧ R (exec a s).2 (exec' a t).2

namespace Alike

variable {kind : Op → Prop} {R : σ → τ → Prop} {exec : Op → σ → Val × σ} {exec' : Op → τ → Val × τ}
  {s : σ} {s' : τ}

theorem prog (alike : Alike kind R exec exec') (related : R s s') {p : Prog Op Val} (only : p.Only kind) :
    (p.step exec' s').1 = (p.step exec s).1 ∧ R (p.step exec s).2 (p.step exec' s').2 := by
  induction p with
  | ret value => exact ⟨rfl, related⟩
  | op action next _ =>
    obtain ⟨same, later⟩ := alike action s s' only.1 related
    exact ⟨congrArg next same, later⟩
  | iterate running body again next ih _ _ =>
    obtain ⟨same, later⟩ := ih only.1
    exact ⟨congrArg (Prog.resume body again next) same, later⟩

theorem thread (alike : Alike kind R exec exec') (related : R s s') {t : Thread Op Val} (only : t.Only kind) :
    (t.step exec' s').1 = (t.step exec s).1 ∧ R (t.step exec s).2 (t.step exec' s').2 ∧
      (t.step exec s).1.Only kind := by
  obtain ⟨running, calls⟩ := t
  obtain ⟨now, later⟩ := only
  have next := now.step exec s
  obtain ⟨same, related'⟩ := alike.prog related now
  cases running with
  | ret value =>
    cases calls with
    | nil => exact ⟨rfl, related, now, later⟩
    | cons first rest =>
      exact ⟨rfl, related, later first List.mem_cons_self,
        fun call member => later call (List.mem_cons_of_mem first member)⟩
  | op action rest => exact ⟨congrArg (Thread.mk · calls) same, related', next, later⟩
  | iterate running body again rest => exact ⟨congrArg (Thread.mk · calls) same, related', next, later⟩

end Alike

/-- Threads that keep to such operations go through the same calls, whatever the schedule. -/
theorem threads_alike [DecidableEq ι] {kind : ι → Op → Prop} {R : σ → τ → Prop}
    {exec : ι → Op → σ → Val × σ} {exec' : ι → Op → τ → Val × τ}
    (alike : ∀ i, Alike (kind i) R (exec i) (exec' i)) {w : Threads ι Op Val σ} {v : Threads ι Op Val τ}
    (same : v.proc = w.proc) (related : R w.shared v.shared) (only : ∀ i, (w.proc i).Only (kind i))
    (schedule : List ι) :
    (v.run (threadAct exec') schedule).proc = (w.run (threadAct exec) schedule).proc ∧
      R (w.run (threadAct exec) schedule).shared (v.run (threadAct exec') schedule).shared := by
  induction schedule generalizing w v with
  | nil => exact ⟨same, related⟩
  | cons i rest ih =>
    obtain ⟨stepped, related', only'⟩ := (alike i).thread related (only i)
    refine ih ?_ ?_ fun j => ?_
    · change Function.update v.proc i _ = Function.update w.proc i _
      rw [same]
      exact congrArg _ stepped
    · rw [World.step_shared, World.step_shared, same]
      exact related'
    · by_cases mine : j = i
      · subst mine
        rw [World.step_proc_self]
        exact only'
      · rw [World.step_proc_other mine]
        exact only j

end Interleave
