import LibMango.Group.Leaving
import LibMango.Host.Launch
import LibMango.Interleave.Work

namespace MangoModel

open Interleave Device

/-- What a task does to the memory between two calls of the runtime. -/
inductive MemoryOp where
  | loadByte (addr : Nat)
  | storeByte (addr byte : Nat)
  deriving DecidableEq, Repr

def memoryExec : MemoryOp → (Nat → Nat) → Nat × (Nat → Nat)
  | .loadByte addr, m => (m addr, m)
  | .storeByte addr byte, m => (0, Function.update m addr byte)

def memoryFootprint : Footprint memoryExec where
  loads
    | .loadByte addr => {addr}
    | .storeByte _ _ => ∅
  stores
    | .loadByte _ => ∅
    | .storeByte addr _ => {addr}
  answer a m m' same := by
    cases a with
    | loadByte addr => exact same addr rfl
    | storeByte addr byte => rfl
  stored a m m' _ x stored := by
    cases a with
    | loadByte addr => cases stored
    | storeByte addr byte =>
      cases stored
      simp [memoryExec]
  kept a m x apart := by
    cases a with
    | loadByte addr => rfl
    | storeByte addr byte => exact Function.update_of_ne apart _ _

/-- What host and kernel do outside the group: to the termination event and to the memory. -/
inductive KernelOp where
  | exit (action : Op Unit)
  | cell (action : MemoryOp)
  deriving DecidableEq, Repr

structure Beyond (ι : Type) where
  exit : Shared ι Unit
  memory : Nat → Nat

def kernelExec {ι : Type} (i : ι) : KernelOp → Beyond ι → Nat × Beyond ι
  | .exit a, s => ((exec overwrite i a s.exit).1, { s with exit := (exec overwrite i a s.exit).2 })
  | .cell a, s => ((memoryExec a s.memory).1, { s with memory := (memoryExec a s.memory).2 })

/-- A kernel that spawns a group: how often its tasks meet, and what each of them does before the first
    barrier, between two of them and after the last one. -/
structure GroupKernel (N : Nat) where
  barriers : Nat
  work : Fin N → Nat → Work MemoryOp Nat
  memory : Nat → Nat

variable {N : Nat}

abbrev KernelThreads (N : Nat) : Type :=
  Threads (Party N) (Op GroupReg ⊕ KernelOp) Nat (Shared (Party N) GroupReg × Beyond (Party N))

abbrev partyExec (i : Party N) :
    Op GroupReg ⊕ KernelOp → Shared (Party N) GroupReg × Beyond (Party N) →
      Nat × (Shared (Party N) GroupReg × Beyond (Party N)) :=
  execBoth (exec overwrite i) (kernelExec i)

namespace GroupKernel

variable (kernel : GroupKernel N)

def inGroup (p : Prog (Op GroupReg) Nat) : Prog (Op GroupReg ⊕ KernelOp) Nat := p.mapOp .inl

def onExit (p : Prog (Op Unit) Nat) : Prog (Op GroupReg ⊕ KernelOp) Nat := (p.mapOp .exit).mapOp .inr

def onCells (p : Prog MemoryOp Nat) : Prog (Op GroupReg ⊕ KernelOp) Nat := (p.mapOp .cell).mapOp .inr

/-- The calls of a task from its `k`-th piece of work on. -/
def taskTexts (i : Fin N) (k : Nat) : Nat → List (Prog (Op GroupReg ⊕ KernelOp) Nat)
  | 0 => [onCells (kernel.work i k).text, inGroup (mangoExit (spawnArgs N i)).call]
  | left + 1 => onCells (kernel.work i k).text :: inGroup (mangoBarrier (spawnArgs N i) none).call ::
      taskTexts i (k + 1) left

def shared : Shared (Party N) GroupReg × Beyond (Party N) :=
  (.start (spawnValues N MangoEventStatus.WRITE.value) (fun _ => 0) fun _ => 0,
    ⟨.start (fun _ => 0) (fun _ => 0) fun _ => 0, kernel.memory⟩)

/-- The kernel after `mango_spawn`, with a host thread that waits for it; `hn_run_kernel` has found the
    termination event at 0. -/
def start : KernelThreads N where
  proc
    | .spawner => .start [inGroup (mangoJoin GroupReg.eventA).call, onExit (Host.mangoGnClose ()).call]
    | .task i => .start (kernel.taskTexts i 0 kernel.barriers)
    | .host => .start []
    | .waiter => .start [onExit (Host.eventWait () false).call]
  shared := kernel.shared

abbrev Reachable (c : KernelThreads N) : Prop := World.Reachable (threadAct partyExec) kernel.start c

/-- The pieces of work one task after the other, and only then the next ones. -/
def serial (fuel : Nat) : Nat → Option (Nat → Nat)
  | 0 => some kernel.memory
  | k + 1 => do inTurn memoryExec fuel (fun i => (kernel.work i k).text) (List.finRange N) (← serial fuel k)

/-- Between two barriers no task writes what another one reads or writes. -/
def RaceFree : Prop :=
  ∀ k ≤ kernel.barriers, ∀ m, (∃ fuel, kernel.serial fuel k = some m) →
    memoryFootprint.RaceFree (fun i => (kernel.work i k).text) m

theorem serial_more {fuel : Nat} {k : Nat} {m : Nat → Nat} (ran : kernel.serial fuel k = some m) (extra : Nat) :
    kernel.serial (fuel + extra) k = some m := by
  induction k generalizing m with
  | zero => exact ran
  | succ k ih =>
    obtain ⟨before, earlier, last⟩ := Option.bind_eq_some_iff.mp ran
    simp only [serial, ih earlier, Option.bind_eq_bind, Option.bind_some]
    exact inTurn_more memoryExec last extra

theorem serial_next {k : Nat} {m after : Nat → Nat} (before : ∃ fuel, kernel.serial fuel k = some m)
    (ran : ∃ fuel, inTurn memoryExec fuel (fun i => (kernel.work i k).text) (List.finRange N) m = some after) :
    ∃ fuel, kernel.serial fuel (k + 1) = some after := by
  obtain ⟨fuel, earlier⟩ := before
  obtain ⟨enough, last⟩ := ran
  refine ⟨fuel + enough, ?_⟩
  simp only [serial, kernel.serial_more earlier, Option.bind_eq_bind, Option.bind_some]
  rw [Nat.add_comm]
  exact inTurn_more memoryExec last fuel

end GroupKernel

section Places

abbrev OwnPoint : Party N → Type
  | .spawner => Unit
  | .task _ => Work.Running MemoryOp Nat
  | .host => Empty
  | .waiter => Host.WaitPoint

abbrev OwnCall : Party N → Type
  | .spawner => Unit
  | .task _ => Work MemoryOp Nat
  | .host => Empty
  | .waiter => Unit

abbrev KernelPlaces (N : Nat) : Type :=
  BesidePlaces (ι := Party N) PartyPoint OwnPoint PartyCall OwnCall (Shared (Party N) GroupReg) (Beyond (Party N))

namespace GroupKernel

variable (kernel : GroupKernel N)

/-- The group of the kernel's tasks, without their work. -/
abbrev group : Group N := deviceGroup fun _ => kernel.barriers

def ownCharts : ∀ i : Party N, Chart KernelOp Nat (OwnPoint i) (OwnCall i)
  | .spawner => (Host.postChart () 1).mapOp .exit
  | .task _ => workChart.mapOp .cell
  | .host => { prog := nofun, op := nofun, next := nofun, code := nofun, enter := nofun, code_eq := nofun
               step_eq := fun _ _ => nofun, nextOp_eq := nofun }
  | .waiter => (Host.waitChart () 1).mapOp .exit

abbrev charts (i : Party N) :
    Chart (Op GroupReg ⊕ KernelOp) Nat (PartyPoint i ⊕ OwnPoint i) (PartyCall i ⊕ OwnCall i) :=
  (kernel.group.charts i).beside (ownCharts i)

abbrev act := besideAct kernel.group.charts (ownCharts (N := N)) (exec (ι := Party N) overwrite) kernelExec

def taskCalls (i : Fin N) (k : Nat) : Nat → List (TaskCall ⊕ Work MemoryOp Nat)
  | 0 => [.inr (kernel.work i k), .inl .exit]
  | left + 1 => .inr (kernel.work i k) :: .inl .barrier :: taskCalls i (k + 1) left

def places : KernelPlaces N where
  proc
    | .spawner => ⟨none, [.inl (), .inr ()]⟩
    | .task i => ⟨none, kernel.taskCalls i 0 kernel.barriers⟩
    | .host => ⟨none, []⟩
    | .waiter => ⟨none, [.inr ()]⟩
  shared := kernel.shared

theorem group_fifo : kernel.group.fifo = none := rfl

theorem work_code (i : Fin N) (w : Work MemoryOp Nat) :
    (kernel.charts (.task i)).code (.inr w) = onCells w.text := rfl

theorem task_code (i : Fin N) (c : TaskCall) : (kernel.charts (.task i)).code (.inl c) =
    inGroup ((taskChart (spawnArgs N i) none).code c) := by
  rw [Chart.beside_inl, Group.charts, group_fifo, inGroup]

theorem taskTexts_eq (i : Fin N) (k left : Nat) :
    kernel.taskTexts i k left = (kernel.taskCalls i k left).map (kernel.charts (.task i)).code := by
  induction left generalizing k with
  | zero =>
    rw [taskTexts, taskCalls, List.map_cons, List.map_cons, work_code, task_code]
    rfl
  | succ left ih =>
    rw [taskTexts, taskCalls, List.map_cons, List.map_cons, ih, work_code, task_code]
    rfl

theorem start_eq : kernel.start = kernel.places.threads kernel.charts := by
  simp only [start, places, World.map, World.mk.injEq, and_true]
  funext i
  cases i with
  | task i =>
    simp only [Thread.start, Chart.thread, Option.elim_none, taskTexts_eq]
  | spawner => rfl
  | host => rfl
  | waiter => rfl

theorem reachable_places {c : KernelThreads N} (reach : kernel.Reachable c) :
    ∃ w : KernelPlaces N, World.Reachable kernel.act kernel.places w ∧ c = w.threads kernel.charts := by
  unfold Reachable at reach
  rw [start_eq] at reach
  exact Interleave.reachable_places reach

theorem taskCalls_first (i : Fin N) (k left : Nat) :
    (kernel.taskCalls i k left).filterMap Sum.getLeft? = List.replicate left .barrier ++ [.exit] := by
  induction left generalizing k with
  | zero => rfl
  | succ left ih =>
    rw [taskCalls, List.replicate_succ, List.cons_append, ← ih (k + 1)]
    rfl

theorem places_first : BesidePlaces.first kernel.places = kernel.group.places := by
  have shared : (BesidePlaces.first kernel.places).shared = kernel.group.places.shared := rfl
  refine (World.mk.injEq _ _ _ _).mpr ⟨?_, shared⟩
  funext i
  cases i with
  | task i => exact congrArg (Place.mk none) (kernel.taskCalls_first i 0 kernel.barriers)
  | spawner => rfl
  | host => rfl
  | waiter => rfl

/-- What the group does is what it does without the work of its tasks. -/
theorem reachable_first {w : KernelPlaces N} (reach : World.Reachable kernel.act kernel.places w) :
    World.Reachable (kernel.group.act overwrite) kernel.group.places (BesidePlaces.first w) := by
  have reached := first_reachable reach
  rwa [places_first] at reached

end GroupKernel

end Places

end MangoModel
