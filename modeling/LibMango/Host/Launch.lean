import LibMango.Host.Event

namespace MangoModel.Host

open Interleave Device

/-- What host and kernels do to the hardware: the termination register, and `hn_run_kernel`. -/
inductive HnOp where
  | event (op : Op Unit)
  | runKernel
  deriving DecidableEq, Repr

/-- `Context::start_kernel` once image and arguments are in place. -/
def startKernel : Code HnOp Nat Unit := do
  let _ ← Code.perform (.event (.writeSynchronization () 0))
  let _ ← Code.perform .runKernel

/-- `mango_gn_close` up to the exit of the process. -/
def mangoGnClose (eventExit : Unit) : Text Unit Unit := mangoWriteSynchronization eventExit 1

inductive HostCall where
  | launch
  | wait
  deriving DecidableEq, Repr

def HostCall.text : HostCall → Prog HnOp Nat
  | .launch => startKernel.call
  | .wait => (eventWait () false).call.mapOp .event

/-- The host thread, and one process of the kernel for each launch. -/
inductive Party where
  | host
  | kernel (launch : Nat)
  deriving DecidableEq, Repr

structure Hn where
  shared : Shared Party Unit
  launched : Nat

def hnExec (i : Party) : HnOp → Hn → Nat × Hn
  | .event op, s => ((exec overwrite i op s.shared).1, { s with shared := (exec overwrite i op s.shared).2 })
  | .runKernel, s => (0, { s with launched := s.launched + 1 })

/-- The process of a launch exists once `hn_run_kernel` has been called for it. -/
def launchAct : ∀ _ : Party, Thread HnOp Nat → Hn → Thread HnOp Nat × Hn
  | .host, t, s => t.step (hnExec .host) s
  | .kernel j, t, s => if j < s.launched then t.step (hnExec (.kernel j)) s else (t, s)

def launchStart (calls : List HostCall) : Threads Party HnOp Nat Hn where
  proc
    | .host => .start (calls.map HostCall.text)
    | .kernel _ => .start [(mangoGnClose ()).call.mapOp .event]
  shared := ⟨.start (fun _ => 0) (fun _ => 0) (fun _ => 0), 0⟩

def launches (calls : List HostCall) : Nat := calls.count .launch

/-- When a wait has returned, the launch before it has ended. -/
def WaitsMeanEnded (calls : List HostCall) : Prop :=
  ∀ c, World.Reachable launchAct (launchStart calls) c →
    ∀ i j, calls[i]? = some .wait → launches (calls.take i) = j + 1 →
      i < (c.proc .host).returned calls.length → (c.proc (.kernel j)).finished = true

/-- Every wait that returns follows one launch since the wait before it; `n` launches have
    not been waited for. A wait that follows none never returns. -/
def Paired : Nat → List HostCall → Prop
  | _, [] => True
  | n, .launch :: rest => Paired (n + 1) rest
  | 0, .wait :: _ => True
  | 1, .wait :: rest => Paired 0 rest
  | _ + 2, .wait :: _ => False

inductive HostPoint where
  | reset
  | run
  | wait (p : WaitPoint)
  deriving DecidableEq, Repr

def hostChart : Chart HnOp Nat HostPoint HostCall where
  prog
    | .reset => startKernel.call
    | .run => .op .runKernel fun _ => .ret 0
    | .wait p => (p.prog () 1).mapOp .event
  op
    | .reset => .event (.writeSynchronization () 0)
    | .run => .runKernel
    | .wait p => .event (p.op ())
  next
    | .reset, _ => some .run
    | .run, _ => none
    | .wait p, answer => (p.next 1 answer).map .wait
  code := HostCall.text
  enter
    | .launch => some .reset
    | .wait => some (.wait .poll)
  code_eq c := by cases c <;> rfl
  step_eq _ exec p shared := by
    cases p with
    | reset => rfl
    | run => rfl
    | wait p =>
      rw [Prog.mapOp_step, WaitPoint.prog_step]
      dsimp only
      cases p.next 1 (exec (.event (p.op ())) shared).1 <;> rfl
  nextOp_eq p := by
    cases p with
    | reset => rfl
    | run => rfl
    | wait p => cases p <;> rfl

def kernelChart : Chart HnOp Nat Unit Unit where
  prog _ := (mangoGnClose ()).call.mapOp .event
  op _ := .event (.writeSynchronization () 1)
  next _ _ := none
  code _ := (mangoGnClose ()).call.mapOp .event
  enter _ := some ()
  code_eq _ := rfl
  step_eq _ _ _ _ := rfl
  nextOp_eq _ := rfl

section Places

abbrev PartyPoint : Party → Type
  | .host => HostPoint
  | .kernel _ => Unit

abbrev PartyCall : Party → Type
  | .host => HostCall
  | .kernel _ => Unit

def partyChart : ∀ i, Chart HnOp Nat (PartyPoint i) (PartyCall i)
  | .host => hostChart
  | .kernel _ => kernelChart

abbrev LaunchPlaces : Type := Places PartyPoint PartyCall Hn

def launchPlaceAct : ∀ i : Party, Place (PartyPoint i) (PartyCall i) → Hn →
    Place (PartyPoint i) (PartyCall i) × Hn
  | .host, l, s => hostChart.step (hnExec .host) l s
  | .kernel j, l, s => if j < s.launched then kernelChart.step (hnExec (.kernel j)) l s else (l, s)

def launchPlaces (calls : List HostCall) : LaunchPlaces where
  proc
    | .host => ⟨none, calls⟩
    | .kernel _ => ⟨none, [()]⟩
  shared := ⟨.start (fun _ => 0) (fun _ => 0) (fun _ => 0), 0⟩

theorem launchStart_eq (calls : List HostCall) :
    launchStart calls = (launchPlaces calls).threads partyChart := by
  simp only [launchStart, launchPlaces, World.map, World.mk.injEq, and_true]
  funext i
  cases i <;> rfl

theorem launchAct_refines (i : Party) (l : Place (PartyPoint i) (PartyCall i)) (s : Hn) :
    launchAct i ((partyChart i).thread l) s =
      ((partyChart i).thread (launchPlaceAct i l s).1, (launchPlaceAct i l s).2) := by
  cases i with
  | host => exact hostChart.thread_step _ l s
  | kernel j =>
    by_cases running : j < s.launched
    · simp only [launchAct, launchPlaceAct, running, ↓reduceIte]
      exact kernelChart.thread_step _ l s
    · simp only [launchAct, launchPlaceAct, running, ↓reduceIte]

variable {w : LaunchPlaces}

abbrev register (w : LaunchPlaces) : Nat := w.shared.shared.regs.value ()

def Ended (w : LaunchPlaces) (j : Nat) : Prop := w.proc (.kernel j) = ⟨none, []⟩

def Staged (w : LaunchPlaces) (j : Nat) : Prop :=
  w.proc (.kernel j) = ⟨none, [()]⟩ ∨ w.proc (.kernel j) = ⟨some (), []⟩ ∨ Ended w j

@[simp] theorem hostStep_kernel (w : LaunchPlaces) (j : Nat) :
    (w.step launchPlaceAct .host).proc (.kernel j) = w.proc (.kernel j) :=
  World.step_proc_other (by simp) w

@[simp] theorem kernelStep_host (w : LaunchPlaces) (j : Nat) :
    (w.step launchPlaceAct (.kernel j)).proc .host = w.proc .host :=
  World.step_proc_other (by simp) w

theorem kernelStep_other {j k : Nat} (other : k ≠ j) :
    (w.step launchPlaceAct (.kernel j)).proc (.kernel k) = w.proc (.kernel k) :=
  World.step_proc_other (by simpa using other) w

theorem hostStep_enter {first : HostCall} {rest : List HostCall}
    (here : w.proc .host = ⟨none, first :: rest⟩) :
    (w.step launchPlaceAct .host).proc .host = ⟨hostChart.enter first, rest⟩ ∧
      (w.step launchPlaceAct .host).shared = w.shared := by
  have entered : launchPlaceAct .host (w.proc .host) w.shared =
      (⟨hostChart.enter first, rest⟩, w.shared) := by
    rw [here]
    exact hostChart.step_enter (hnExec .host) first rest w.shared
  rw [World.step_proc_self, World.step_shared, entered]
  exact ⟨rfl, rfl⟩

theorem hostStep_op {p : HostPoint} {rest : List HostCall}
    (here : w.proc .host = ⟨some p, rest⟩) :
    (w.step launchPlaceAct .host).proc .host =
        ⟨hostChart.next p (hnExec .host (hostChart.op p) w.shared).1, rest⟩ ∧
      (w.step launchPlaceAct .host).shared = (hnExec .host (hostChart.op p) w.shared).2 := by
  have stepped : launchPlaceAct .host (w.proc .host) w.shared =
      (⟨hostChart.next p (hnExec .host (hostChart.op p) w.shared).1, rest⟩,
        (hnExec .host (hostChart.op p) w.shared).2) := by
    rw [here]
    exact hostChart.step_at (hnExec .host) p rest w.shared
  rw [World.step_proc_self, World.step_shared, stepped]
  exact ⟨rfl, rfl⟩

theorem hostStep_finished (here : w.proc .host = ⟨none, []⟩) :
    (w.step launchPlaceAct .host).proc .host = ⟨none, []⟩ ∧
      (w.step launchPlaceAct .host).shared = w.shared := by
  have stayed : launchPlaceAct .host (w.proc .host) w.shared = (⟨none, []⟩, w.shared) := by
    rw [here]
    exact hostChart.step_finished (hnExec .host) w.shared
  rw [World.step_proc_self, World.step_shared, stayed]
  exact ⟨rfl, rfl⟩

theorem kernelStep_enter {j : Nat} (running : j < w.shared.launched)
    (here : w.proc (.kernel j) = ⟨none, [()]⟩) :
    (w.step launchPlaceAct (.kernel j)).proc (.kernel j) = ⟨some (), []⟩ ∧
      (w.step launchPlaceAct (.kernel j)).shared = w.shared := by
  have entered : launchPlaceAct (.kernel j) (w.proc (.kernel j)) w.shared =
      (⟨some (), []⟩, w.shared) := by
    rw [here]
    exact if_pos running
  rw [World.step_proc_self, World.step_shared, entered]
  exact ⟨rfl, rfl⟩

theorem kernelStep_write {j : Nat} (running : j < w.shared.launched)
    (here : w.proc (.kernel j) = ⟨some (), []⟩) :
    Ended (w.step launchPlaceAct (.kernel j)) j ∧
      (w.step launchPlaceAct (.kernel j)).shared.launched = w.shared.launched ∧
      register (w.step launchPlaceAct (.kernel j)) = 1 := by
  have stepped : launchPlaceAct (.kernel j) (w.proc (.kernel j)) w.shared =
      (⟨none, []⟩, (hnExec (.kernel j) (.event (.writeSynchronization () 1)) w.shared).2) := by
    rw [here]
    exact if_pos running
  rw [Ended, World.step_proc_self, register, World.step_shared, stepped]
  refine ⟨rfl, rfl, ?_⟩
  simp [hnExec, Op.access, Custody.apply, overwrite, uint32]

theorem kernelStep_stay {j : Nat} (idle : w.shared.launched ≤ j ∨ Ended w j) :
    (w.step launchPlaceAct (.kernel j)).proc (.kernel j) = w.proc (.kernel j) ∧
      (w.step launchPlaceAct (.kernel j)).shared = w.shared := by
  have stayed : launchPlaceAct (.kernel j) (w.proc (.kernel j)) w.shared =
      (w.proc (.kernel j), w.shared) := by
    by_cases running : j < w.shared.launched
    · have ended : w.proc (.kernel j) = ⟨none, []⟩ := idle.resolve_left (Nat.not_le_of_lt running)
      rw [ended]
      exact if_pos running
    · exact if_neg running
  rw [World.step_proc_self, World.step_shared, stayed]
  exact ⟨rfl, rfl⟩

theorem kernelStep_cases {j : Nat} (place : Staged w j) :
    let v := w.step launchPlaceAct (.kernel j)
    (v.proc (.kernel j) = w.proc (.kernel j) ∧ v.shared = w.shared) ∨
    (j < w.shared.launched ∧ w.proc (.kernel j) = ⟨none, [()]⟩ ∧
      v.proc (.kernel j) = ⟨some (), []⟩ ∧ v.shared = w.shared) ∨
    (j < w.shared.launched ∧ w.proc (.kernel j) = ⟨some (), []⟩ ∧
      Ended v j ∧ v.shared.launched = w.shared.launched ∧ register v = 1) := by
  by_cases running : j < w.shared.launched
  · rcases place with here | here | here
    · exact .inr (.inl ⟨running, here, kernelStep_enter running here⟩)
    · exact .inr (.inr ⟨running, here, kernelStep_write running here⟩)
    · exact .inl (kernelStep_stay (.inr here))
  · exact .inl (kernelStep_stay (.inl (Nat.le_of_not_lt running)))

theorem kernelStep_launched {k : Nat} (place : Staged w k) :
    (w.step launchPlaceAct (.kernel k)).shared.launched = w.shared.launched := by
  rcases kernelStep_cases place with ⟨-, shared⟩ | ⟨-, -, -, shared⟩ | ⟨-, -, -, launched, -⟩
  · rw [shared]
  · rw [shared]
  · exact launched

theorem Ended.kernelStep {j k : Nat} (place : Staged w k) (ended : Ended w j) :
    Ended (w.step launchPlaceAct (.kernel k)) j := by
  by_cases same : j = k
  · subst same
    have here : w.proc (.kernel j) = ⟨none, []⟩ := ended
    rcases kernelStep_cases place with ⟨kept, -⟩ | ⟨-, before, -⟩ | ⟨-, before, -⟩
    · exact kept.trans here
    · rw [here] at before
      cases before
    · rw [here] at before
      cases before
  · exact (kernelStep_other same).trans ended

/-- `n` launches have not been waited for, and register and processes are as if no launch
    had overlapped another one. -/
def Clean (w : LaunchPlaces) : Nat → Prop
  | 0 => register w = 0 ∧ ∀ j < w.shared.launched, Ended w j
  | 1 => ∃ last, w.shared.launched = last + 1 ∧ (∀ j < last, Ended w j) ∧
      (register w = 1 ∧ Ended w last ∨ register w = 0 ∧ ¬ Ended w last)
  | _ + 2 => True

/-- What lies behind the host: its launches, and its waits that are done. -/
structure Told (calls : List HostCall) (w : LaunchPlaces) (past todo : List HostCall) : Prop where
  split : calls = past ++ todo
  launched : w.shared.launched = launches past
  answered : ∀ i j, past[i]? = some .wait → launches (past.take i) = j + 1 → Ended w j

inductive Standing (calls : List HostCall) (w : LaunchPlaces) : Prop
  | between {past rest : List HostCall} {n : Nat} (here : w.proc .host = ⟨none, rest⟩)
      (told : Told calls w past rest) (paired : Paired n rest) (clean : Clean w n)
  | reset {past rest : List HostCall} {n : Nat} (here : w.proc .host = ⟨some .reset, rest⟩)
      (told : Told calls w past (.launch :: rest)) (paired : Paired (n + 1) rest) (clean : Clean w n)
  | run {past rest : List HostCall} {n : Nat} (here : w.proc .host = ⟨some .run, rest⟩)
      (told : Told calls w past (.launch :: rest)) (paired : Paired (n + 1) rest)
      (clean : n = 0 → Clean w 0)
  | wait {past rest : List HostCall} {n : Nat} (here : w.proc .host = ⟨some (.wait .poll), rest⟩)
      (told : Told calls w past (.wait :: rest)) (paired : n = 0 ∨ n = 1 ∧ Paired 0 rest)
      (clean : Clean w n)

structure LaunchKept (calls : List HostCall) (w : LaunchPlaces) : Prop where
  place : ∀ j, Staged w j
  fresh : ∀ j, w.shared.launched ≤ j → w.proc (.kernel j) = ⟨none, [()]⟩
  standing : Standing calls w

theorem Told.kernelStep {calls past todo : List HostCall} {k : Nat}
    (place : Staged w k) (told : Told calls w past todo) :
    Told calls (w.step launchPlaceAct (.kernel k)) past todo := by
  exact ⟨told.split, (kernelStep_launched place).trans told.launched,
    fun i j waited before => (told.answered i j waited before).kernelStep place⟩

theorem Clean.kernelStep {n k : Nat}
    (place : Staged w k) (clean : Clean w n) :
    Clean (w.step launchPlaceAct (.kernel k)) n := by
  -- only the last launch can be in flight
  match n with
  | 0 =>
    obtain ⟨empty, all⟩ := clean
    have ended : ∀ j < w.shared.launched, Ended (w.step launchPlaceAct (.kernel k)) j :=
      fun j before => (all j before).kernelStep place
    rcases kernelStep_cases place with ⟨-, shared⟩ | ⟨running, before, -⟩ | ⟨running, before, -⟩
    · rw [Clean, register, shared]
      exact ⟨empty, ended⟩
    · have gone : w.proc (.kernel k) = ⟨none, []⟩ := all k running
      rw [gone] at before
      cases before
    · have gone : w.proc (.kernel k) = ⟨none, []⟩ := all k running
      rw [gone] at before
      cases before
  | 1 =>
    obtain ⟨last, count, older, held⟩ := clean
    have ended : ∀ j < last, Ended (w.step launchPlaceAct (.kernel k)) j :=
      fun j before => (older j before).kernelStep place
    have youngest : k < w.shared.launched → ¬ Ended w k → k = last := by
      intro running unfinished
      by_contra other
      exact unfinished (older k (by omega))
    rcases kernelStep_cases place with ⟨kept, shared⟩ | ⟨running, before, after, shared⟩ |
        ⟨running, before, after, launched, written⟩
    · have same : Ended (w.step launchPlaceAct (.kernel k)) last ↔ Ended w last := by
        by_cases here : last = k
        · subst here
          simp only [Ended, kept]
        · simp only [Ended, kernelStep_other here]
      refine ⟨last, by rw [shared, count], ended, ?_⟩
      rw [same, register, shared]
      exact held
    · have here := youngest running (by simp [Ended, before])
      subst here
      have unfinished : ¬ Ended w k := by simp [Ended, before]
      refine ⟨k, by rw [shared, count], ended, .inr ⟨?_, by rw [Ended, after]; simp⟩⟩
      rw [register, shared]
      exact (held.resolve_left fun found => unfinished found.2).1
    · have here := youngest running (by simp [Ended, before])
      subst here
      exact ⟨k, launched.trans count, ended, .inl ⟨written, after⟩⟩
  | _ + 2 => trivial

theorem LaunchKept.kernelStep {calls : List HostCall} (kept : LaunchKept calls w) (k : Nat) :
    LaunchKept calls (w.step launchPlaceAct (.kernel k)) := by
  have place := kept.place k
  refine ⟨fun j => ?_, fun j beyond => ?_, ?_⟩
  · by_cases same : j = k
    · subst same
      rcases kernelStep_cases place with ⟨stayed, -⟩ | ⟨-, -, after, -⟩ | ⟨-, -, after, -⟩
      · rw [Staged, Ended, stayed]
        exact place
      · exact .inr (.inl after)
      · exact .inr (.inr after)
    · rw [Staged, Ended, kernelStep_other same]
      exact kept.place j
  · rw [kernelStep_launched place] at beyond
    by_cases same : j = k
    · subst same
      rcases kernelStep_cases place with ⟨stayed, -⟩ | ⟨running, -⟩ | ⟨running, -⟩
      · rw [stayed]
        exact kept.fresh j beyond
      · omega
      · omega
    · rw [kernelStep_other same]
      exact kept.fresh j beyond
  · cases kept.standing with
    | between here told paired clean =>
      exact .between ((kernelStep_host w k).trans here) (told.kernelStep place) paired
        (clean.kernelStep place)
    | reset here told paired clean =>
      exact .reset ((kernelStep_host w k).trans here) (told.kernelStep place) paired
        (clean.kernelStep place)
    | run here told paired clean =>
      exact .run ((kernelStep_host w k).trans here) (told.kernelStep place) paired
        fun first => (clean first).kernelStep place
    | wait here told paired clean =>
      exact .wait ((kernelStep_host w k).trans here) (told.kernelStep place) paired
        (clean.kernelStep place)

theorem ended_hostStep {j : Nat} : Ended (w.step launchPlaceAct .host) j ↔ Ended w j := by
  simp only [Ended, hostStep_kernel]

theorem Told.hostStep {calls past todo : List HostCall}
    (launched : (w.step launchPlaceAct .host).shared.launched = w.shared.launched)
    (told : Told calls w past todo) : Told calls (w.step launchPlaceAct .host) past todo :=
  ⟨told.split, launched.trans told.launched,
    fun i j waited before => ended_hostStep.mpr (told.answered i j waited before)⟩

theorem Told.past_launch {calls past rest : List HostCall}
    (launched : (w.step launchPlaceAct .host).shared.launched = w.shared.launched + 1)
    (told : Told calls w past (.launch :: rest)) :
    Told calls (w.step launchPlaceAct .host) (past ++ [.launch]) rest := by
  refine ⟨by rw [told.split]; simp, ?_, fun i j waited before => ended_hostStep.mpr ?_⟩
  · rw [launched, told.launched]
    simp [launches]
  · have inside : i < past.length := by
      by_contra beyond
      have last : i = past.length := by
        have bound := (List.getElem?_eq_some_iff.mp waited).1
        simp at bound
        omega
      simp [last] at waited
    rw [List.getElem?_append_left inside] at waited
    rw [List.take_append_of_le_length (Nat.le_of_lt inside)] at before
    exact told.answered i j waited before

theorem Told.past_wait {calls past rest : List HostCall}
    (launched : (w.step launchPlaceAct .host).shared.launched = w.shared.launched)
    (all : ∀ j < w.shared.launched, Ended w j) (told : Told calls w past (.wait :: rest)) :
    Told calls (w.step launchPlaceAct .host) (past ++ [.wait]) rest := by
  refine ⟨by rw [told.split]; simp, ?_, fun i j waited before => ended_hostStep.mpr (all j ?_)⟩
  · rw [launched, told.launched]
    simp [launches]
  · have within : i ≤ past.length := by
      have bound := (List.getElem?_eq_some_iff.mp waited).1
      simp at bound
      omega
    rw [List.take_append_of_le_length within] at before
    have fewer : launches (past.take i) ≤ launches past := (List.take_sublist i past).count_le _
    rw [told.launched]
    omega

theorem Clean.hostStep {n : Nat} (clean : Clean w n)
    (value : register (w.step launchPlaceAct .host) = register w)
    (launched : (w.step launchPlaceAct .host).shared.launched = w.shared.launched) :
    Clean (w.step launchPlaceAct .host) n := by
  match n with
  | 0 => simpa only [Clean, value, launched, ended_hostStep] using clean
  | 1 => simpa only [Clean, value, launched, ended_hostStep] using clean
  | _ + 2 => trivial

theorem Standing.between_step {calls past rest : List HostCall} {n : Nat}
    (here : w.proc .host = ⟨none, rest⟩) (told : Told calls w past rest) (paired : Paired n rest)
    (clean : Clean w n) : Standing calls (w.step launchPlaceAct .host) := by
  have carried : (w.step launchPlaceAct .host).shared = w.shared →
      Told calls (w.step launchPlaceAct .host) past rest ∧ Clean (w.step launchPlaceAct .host) n := by
    intro shared
    exact ⟨told.hostStep (by rw [shared]),
      clean.hostStep (by rw [register, shared]) (by rw [shared])⟩
  cases rest with
  | nil =>
    obtain ⟨after, shared⟩ := hostStep_finished here
    exact .between after (carried shared).1 paired (carried shared).2
  | cons first rest =>
    obtain ⟨after, shared⟩ := hostStep_enter here
    obtain ⟨told, clean⟩ := carried shared
    cases first with
    | launch => exact .reset after told paired clean
    | wait =>
      match n with
      | 0 => exact .wait after told (.inl rfl) clean
      | 1 => exact .wait after told (.inr ⟨rfl, paired⟩) clean
      | _ + 2 => exact paired.elim

theorem Standing.reset_step {calls past rest : List HostCall} {n : Nat}
    (here : w.proc .host = ⟨some .reset, rest⟩) (told : Told calls w past (.launch :: rest))
    (paired : Paired (n + 1) rest) (clean : Clean w n) :
    Standing calls (w.step launchPlaceAct .host) := by
  obtain ⟨after, shared⟩ := hostStep_op here
  have launched : (w.step launchPlaceAct .host).shared.launched = w.shared.launched := by
    rw [shared]; rfl
  refine .run after (told.hostStep launched) paired fun first => ?_
  subst first
  refine clean.hostStep ?_ launched
  rw [clean.1, register, shared]
  simp [hostChart, hnExec, Op.access, Custody.apply, overwrite, uint32]

theorem Standing.run_step {calls past rest : List HostCall} {n : Nat}
    (fresh : w.proc (.kernel w.shared.launched) = ⟨none, [()]⟩)
    (here : w.proc .host = ⟨some .run, rest⟩) (told : Told calls w past (.launch :: rest))
    (paired : Paired (n + 1) rest) (clean : n = 0 → Clean w 0) :
    Standing calls (w.step launchPlaceAct .host) := by
  obtain ⟨after, shared⟩ := hostStep_op here
  have launched : (w.step launchPlaceAct .host).shared.launched = w.shared.launched + 1 := by
    rw [shared]; rfl
  have value : register (w.step launchPlaceAct .host) = register w := by rw [register, shared]; rfl
  refine .between after (told.past_launch launched) paired ?_
  match n with
  | 0 =>
    obtain ⟨empty, all⟩ := clean rfl
    refine ⟨w.shared.launched, launched, fun j older => ended_hostStep.mpr (all j older), .inr ?_⟩
    refine ⟨value.trans empty, fun ended => ?_⟩
    have gone : w.proc (.kernel w.shared.launched) = ⟨none, []⟩ := ended_hostStep.mp ended
    rw [fresh] at gone
    cases gone
  | _ + 1 => trivial

theorem Standing.wait_step {calls past rest : List HostCall} {n : Nat}
    (here : w.proc .host = ⟨some (.wait .poll), rest⟩) (told : Told calls w past (.wait :: rest))
    (paired : n = 0 ∨ n = 1 ∧ Paired 0 rest) (clean : Clean w n) :
    Standing calls (w.step launchPlaceAct .host) := by
  obtain ⟨after, shared⟩ := hostStep_op here
  have launched : (w.step launchPlaceAct .host).shared.launched = w.shared.launched := by
    rw [shared]; rfl
  have taken : register (w.step launchPlaceAct .host) = 0 := by
    rw [register, shared]
    simp [hostChart, hnExec, WaitPoint.op, Op.access, Custody.apply]
  -- an empty register is read again
  have again : register w = 0 → Standing calls (w.step launchPlaceAct .host) := by
    intro empty
    refine .wait (n := n) ?_ (told.hostStep launched) paired (clean.hostStep (taken.trans empty.symm) launched)
    rw [after]
    simp [hostChart, hnExec, WaitPoint.op, WaitPoint.next, Device.await, Op.answer, empty]
  rcases paired with first | ⟨first, paired⟩
  · subst first
    exact again clean.1
  · subst first
    obtain ⟨last, count, older, ⟨written, ended⟩ | ⟨empty, -⟩⟩ := clean
    · have all : ∀ j < w.shared.launched, Ended w j := by
        intro j running
        by_cases youngest : j = last
        · exact youngest ▸ ended
        · exact older j (by omega)
      refine .between ?_ (told.past_wait launched all) paired
        ⟨taken, fun j running => ended_hostStep.mpr (all j (launched ▸ running))⟩
      rw [after]
      simp [hostChart, hnExec, WaitPoint.op, WaitPoint.next, Device.await, Op.answer, written]
    · exact again empty

theorem hostStep_launched (w : LaunchPlaces) :
    w.shared.launched ≤ (w.step launchPlaceAct .host).shared.launched := by
  match here : w.proc .host with
  | ⟨none, []⟩ => exact Nat.le_of_eq (by rw [(hostStep_finished here).2])
  | ⟨none, first :: rest⟩ => exact Nat.le_of_eq (by rw [(hostStep_enter here).2])
  | ⟨some p, rest⟩ =>
    rw [(hostStep_op here).2]
    cases hostChart.op p with
    | event op => exact Nat.le_refl _
    | runKernel => exact Nat.le_succ _

theorem LaunchKept.hostStep {calls : List HostCall} (kept : LaunchKept calls w) :
    LaunchKept calls (w.step launchPlaceAct .host) := by
  refine ⟨fun j => ?_, fun j beyond => ?_, ?_⟩
  · rw [Staged, Ended, hostStep_kernel]
    exact kept.place j
  · rw [hostStep_kernel]
    exact kept.fresh j (Nat.le_trans (hostStep_launched w) beyond)
  · have fresh := kept.fresh w.shared.launched (Nat.le_refl _)
    cases kept.standing with
    | between here told paired clean => exact .between_step here told paired clean
    | reset here told paired clean => exact .reset_step here told paired clean
    | run here told paired clean => exact .run_step fresh here told paired clean
    | wait here told paired clean => exact .wait_step here told paired clean

theorem launchKept_start (calls : List HostCall) (paired : Paired 0 calls) :
    LaunchKept calls (launchPlaces calls) := by
  have told : Told calls (launchPlaces calls) [] calls :=
    ⟨rfl, rfl, fun i j waited => by simp at waited⟩
  have clean : Clean (launchPlaces calls) 0 :=
    ⟨rfl, fun j running => absurd running (Nat.not_lt_zero j)⟩
  exact ⟨fun _ => .inl rfl, fun _ _ => rfl, .between rfl told paired clean⟩

theorem launchKept_reachable {calls : List HostCall} (paired : Paired 0 calls)
    (reach : World.Reachable launchPlaceAct (launchPlaces calls) w) : LaunchKept calls w := by
  refine reach.invariant (fun w i _ kept => ?_) (launchKept_start calls paired)
  cases i with
  | host => exact kept.hostStep
  | kernel k => exact kept.kernelStep k

theorem Standing.answered {calls : List HostCall} (standing : Standing calls w) {i j : Nat}
    (waited : calls[i]? = some .wait) (before : launches (calls.take i) = j + 1)
    (returned : i < (hostChart.thread (w.proc .host)).returned calls.length) : Ended w j := by
  have history : ∃ past todo, Told calls w past todo ∧
      (hostChart.thread (w.proc .host)).returned calls.length = past.length := by
    cases standing with
    | @between past rest _ here told =>
      refine ⟨past, rest, told, ?_⟩
      simp [Thread.returned, Thread.entered, here, told.split]
    | @reset past rest _ here told =>
      refine ⟨past, _, told, ?_⟩
      simp [Thread.returned, Thread.entered, here, told.split]
      omega
    | @run past rest _ here told =>
      refine ⟨past, _, told, ?_⟩
      simp [Thread.returned, Thread.entered, here, told.split]
      omega
    | @wait past rest _ here told =>
      refine ⟨past, _, told, ?_⟩
      simp [Thread.returned, Thread.entered, here, told.split]
      omega
  obtain ⟨past, todo, told, count⟩ := history
  rw [count] at returned
  rw [told.split, List.getElem?_append_left returned] at waited
  rw [told.split, List.take_append_of_le_length (Nat.le_of_lt returned)] at before
  exact told.answered i j waited before

/-- The host is between two calls, the last `flying` of its launches have not begun to end,
    and the register holds `value`. -/
structure Flying (calls : List HostCall) (value flying : Nat) (todo : List HostCall)
    (w : LaunchPlaces) : Prop where
  host : w.proc .host = ⟨none, todo⟩
  past : ∃ past, calls = past ++ todo ∧ w.shared.launched = launches past
  register : register w = value
  bound : flying ≤ w.shared.launched
  older : ∀ j < w.shared.launched - flying, Ended w j
  youngest : ∀ j, w.shared.launched - flying ≤ j → w.proc (.kernel j) = ⟨none, [()]⟩

theorem Flying.launch {calls rest : List HostCall} {flying : Nat}
    (held : Flying calls 0 flying (.launch :: rest) w) :
    Flying calls 0 (flying + 1) rest (w.run launchPlaceAct [.host, .host, .host]) := by
  obtain ⟨host, ⟨past, split, count⟩, value, bound, older, youngest⟩ := held
  obtain ⟨entered, shared⟩ := hostStep_enter host
  obtain ⟨reset, shared'⟩ := hostStep_op entered
  obtain ⟨run, shared''⟩ := hostStep_op reset
  have launched : (w.run launchPlaceAct [.host, .host, .host]).shared.launched =
      w.shared.launched + 1 := by
    simp only [World.run_cons, World.run_nil, shared'', shared', shared]; rfl
  have kernels : ∀ j, (w.run launchPlaceAct [.host, .host, .host]).proc (.kernel j) =
      w.proc (.kernel j) := by
    intro j
    simp only [World.run_cons, World.run_nil, hostStep_kernel]
  refine ⟨run, ⟨past ++ [.launch], by rw [split]; simp, ?_⟩, ?_, ?_, ?_, ?_⟩
  · rw [launched, count]
    simp [launches]
  · simp only [World.run_cons, World.run_nil, MangoModel.Host.register, shared'', shared', shared]
    simp [hostChart, hnExec, Op.access, Custody.apply, overwrite, uint32]
  · rw [launched]
    omega
  · intro j before
    rw [Ended, kernels]
    exact older j (by omega)
  · intro j after
    rw [kernels]
    exact youngest j (by omega)

theorem Flying.close {calls todo : List HostCall} {flying : Nat}
    (held : Flying calls 0 (flying + 1) todo w) :
    ∃ schedule, Flying calls 1 flying todo (w.run launchPlaceAct schedule) := by
  obtain ⟨host, ⟨past, split, count⟩, value, bound, older, youngest⟩ := held
  obtain ⟨first, here⟩ : ∃ first, w.shared.launched = first + (flying + 1) :=
    ⟨_, (Nat.sub_add_cancel bound).symm⟩
  obtain ⟨entered, shared⟩ := kernelStep_enter (by omega) (youngest first (by omega))
  obtain ⟨ended, launched, written⟩ := kernelStep_write (by rw [shared]; omega) entered
  rw [shared] at launched
  have others : ∀ j, j ≠ first →
      (w.run launchPlaceAct [.kernel first, .kernel first]).proc (.kernel j) = w.proc (.kernel j) := by
    intro j other
    simp only [World.run_cons, World.run_nil, kernelStep_other other]
  refine ⟨[.kernel first, .kernel first], by simpa using host, ⟨past, split, launched.trans count⟩,
    written, ?_, ?_, ?_⟩
  · exact Nat.le_trans (by omega) (Nat.le_of_eq launched.symm)
  · intro j before
    have within : j < w.shared.launched - flying := launched ▸ before
    by_cases same : j = first
    · exact same ▸ ended
    · rw [Ended, others j same]
      exact older j (by omega)
  · intro j after
    have beyond : w.shared.launched - flying ≤ j := launched ▸ after
    rw [others j (by omega)]
    exact youngest j (by omega)

theorem Flying.wait {calls rest : List HostCall} {flying : Nat}
    (held : Flying calls 1 flying (.wait :: rest) w) :
    Flying calls 0 flying rest (w.run launchPlaceAct [.host, .host]) := by
  obtain ⟨host, ⟨past, split, count⟩, value, bound, older, youngest⟩ := held
  obtain ⟨entered, shared⟩ := hostStep_enter host
  obtain ⟨polled, shared'⟩ := hostStep_op entered
  have launched : (w.run launchPlaceAct [.host, .host]).shared.launched = w.shared.launched := by
    simp only [World.run_cons, World.run_nil, shared', shared]; rfl
  have kernels : ∀ j, (w.run launchPlaceAct [.host, .host]).proc (.kernel j) =
      w.proc (.kernel j) := by
    intro j
    simp only [World.run_cons, World.run_nil, hostStep_kernel]
  refine ⟨polled.trans ?_, ⟨past ++ [.wait], by rw [split]; simp, ?_⟩, ?_, ?_, ?_, ?_⟩
  · rw [shared]
    simp [hostChart, hnExec, WaitPoint.op, WaitPoint.next, Device.await, Op.answer, value]
  · rw [launched, count]
    simp [launches]
  · simp only [World.run_cons, World.run_nil, MangoModel.Host.register, shared']
    simp [hostChart, hnExec, WaitPoint.op, Op.access, Custody.apply]
  · rw [launched]
    exact bound
  · intro j before
    rw [Ended, kernels]
    exact older j (launched ▸ before)
  · intro j after
    rw [kernels]
    exact youngest j (launched ▸ after)

def Broken (calls : List HostCall) (w : LaunchPlaces) : Prop :=
  ∃ past rest j, w.proc .host = ⟨none, rest⟩ ∧ calls = past ++ .wait :: rest ∧
    launches past = j + 1 ∧ ¬ Ended w j

theorem unpaired_broken {calls todo : List HostCall} {flying : Nat} (unpaired : ¬ Paired flying todo)
    (held : Flying calls 0 flying todo w) : ∃ schedule, Broken calls (w.run launchPlaceAct schedule) := by
  induction todo generalizing w flying with
  | nil => exact absurd trivial unpaired
  | cons first rest ih =>
    cases first with
    | launch =>
      obtain ⟨schedule, broken⟩ := ih unpaired held.launch
      exact ⟨_ ++ schedule, by rwa [World.run_append]⟩
    | wait =>
      match flying with
      | 0 => exact absurd trivial unpaired
      | flying + 1 =>
        obtain ⟨closed, held⟩ := held.close
        have waited := held.wait
        match flying with
        | 0 =>
          obtain ⟨schedule, broken⟩ := ih unpaired waited
          exact ⟨closed ++ [.host, .host] ++ schedule, by rwa [World.run_append, World.run_append]⟩
        | flying + 1 =>
          -- the wait took the value of an older launch than the last one
          refine ⟨closed ++ [.host, .host], ?_⟩
          rw [World.run_append]
          obtain ⟨past, split, count⟩ := held.past
          obtain ⟨j, here⟩ : ∃ j, (w.run launchPlaceAct closed).shared.launched = j + 1 :=
            Nat.exists_eq_succ_of_ne_zero (by have := held.bound; omega)
          refine ⟨past, rest, j, waited.host, split, count ▸ here, fun ended => ?_⟩
          have gone : (w.run launchPlaceAct closed).proc (.kernel j) = ⟨none, []⟩ :=
            ended_hostStep.mp (ended_hostStep.mp ended)
          rw [held.youngest j (by omega)] at gone
          cases gone

end Places

theorem unpaired_waits {calls : List HostCall} (unpaired : ¬ Paired 0 calls) :
    ¬ WaitsMeanEnded calls := by
  intro kept
  have held : Flying calls 0 0 calls (launchPlaces calls) :=
    ⟨rfl, ⟨[], rfl, rfl⟩, rfl, Nat.le_refl 0, fun j before => absurd before (Nat.not_lt_zero j),
      fun _ _ => rfl⟩
  obtain ⟨schedule, past, rest, j, host, split, count, running⟩ := unpaired_broken unpaired held
  have reach : World.Reachable launchAct (launchStart calls)
      (Places.threads partyChart ((launchPlaces calls).run launchPlaceAct schedule)) := by
    rw [launchStart_eq]
    exact World.Reachable.map launchAct_refines ⟨schedule, rfl⟩
  have ended := kept _ reach past.length j (by simp [split]) (by simp [split, count]) ?_
  · exact running (((partyChart (.kernel j)).thread_finished _).mp ended)
  · have returned : (hostChart.thread ⟨none, rest⟩).returned calls.length = past.length + 1 := by
      simp [Thread.returned, Thread.entered, split]
      omega
    rw [World.map_proc, host]
    exact returned ▸ Nat.lt_succ_self past.length

/-- A wait that returns means that the launch before it has ended, in every interleaving,
    exactly when no launch is issued while an earlier one has not been waited for. -/
theorem waits_mean_ended_iff (calls : List HostCall) : WaitsMeanEnded calls ↔ Paired 0 calls := by
  constructor
  · intro kept
    by_contra unpaired
    exact unpaired_waits unpaired kept
  · intro paired c reach i j waited before returned
    rw [launchStart_eq] at reach
    obtain ⟨w, run, rfl⟩ := reach.of_map launchAct_refines
    have kept := launchKept_reachable paired run
    have ended := kept.standing.answered waited before returned
    exact ((partyChart (.kernel j)).thread_finished _).mpr ended

theorem wait_after_two_launches : ¬ WaitsMeanEnded [.launch, .launch, .wait] :=
  unpaired_waits (by simp [Paired])

end MangoModel.Host
