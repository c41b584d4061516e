import LibMango.Interleave.Discipline
import LibMango.Host.Burst

namespace MangoModel

open Interleave Device Host

inductive GroupReg where
  | eventA
  | eventB
  | eventR
  | fifo
  deriving DecidableEq, Repr

/-- The registers after `mango_gn_spawn`. -/
def spawnValues (range fifo : Nat) : GroupReg → Nat
  | .eventA => uint32 (range + 1)
  | .eventB => uint32 (range + 1)
  | .eventR => 2
  | .fifo => fifo

def spawnArgs (range : Nat) (i : Fin range) : TaskArgs GroupReg where
  event := .eventA
  tid := i
  barrier := .eventB
  release := .eventR
  ntasks := range

inductive Party (N : Nat) where
  | spawner
  | task (i : Fin N)
  | host
  | waiter
  deriving DecidableEq, Repr

variable {N : Nat}

/-- What the tasks of a group, its spawner and the host do. -/
structure Group (N : Nat) where
  rounds : Fin N → Nat
  usesFifo : Bool
  joins : Nat
  bursts : Nat
  waits : Nat
  phyAddr : Nat
  size : Nat
  data : Nat → Nat
  globalSize : Nat
  memory : Nat → Nat

abbrev GroupThreads (N : Nat) : Type :=
  Threads (Party N) (Op GroupReg) Nat (Shared (Party N) GroupReg)

namespace Group

variable (g : Group N)

def fifo : Option GroupReg := if g.usesFifo then some .fifo else none

def buffer : FifoBuffer GroupReg := ⟨.fifo, g.phyAddr, g.size⟩

def shared : Shared (Party N) GroupReg :=
  .start (spawnValues N MangoEventStatus.WRITE.value) g.memory fun _ => 0

def start : GroupThreads N where
  proc
    | .spawner => .start (List.replicate g.joins (mangoJoin GroupReg.eventA).call)
    | .task i => .start (List.replicate (g.rounds i) (mangoBarrier (spawnArgs N i) g.fifo).call ++
        [(mangoExit (spawnArgs N i)).call])
    | .host => .start (List.replicate g.bursts (synchWrite g.buffer g.data g.globalSize).call)
    | .waiter => .start (List.replicate g.waits (eventWait GroupReg.fifo true).call)
  shared := g.shared

abbrev Reachable (combine : Nat → Nat → Nat) (g : Group N) (c : GroupThreads N) : Prop :=
  World.Reachable (threadAct (exec combine)) g.start c

end Group

/-- A group that no host thread interferes with, joined once. -/
def deviceGroup (rounds : Fin N → Nat) : Group N where
  rounds := rounds
  usesFifo := false
  joins := 1
  bursts := 0
  waits := 0
  phyAddr := 0
  size := 0
  data := fun _ => 0
  globalSize := 0
  memory := fun _ => 0

section Places

abbrev PartyPoint : Party N → Type
  | .spawner => JoinPoint
  | .task _ => TaskPoint GroupReg
  | .host => SynchPoint .WRITE Nat
  | .waiter => WaitPoint

abbrev PartyCall : Party N → Type
  | .task _ => TaskCall
  | _ => Unit

abbrev GroupPlaces (N : Nat) : Type :=
  Places (ι := Party N) PartyPoint PartyCall (Shared (Party N) GroupReg)

namespace Group

variable (g : Group N)

def charts : ∀ i : Party N, Chart (Op GroupReg) Nat (PartyPoint i) (PartyCall i)
  | .spawner => joinChart .eventA
  | .task i => taskChart (spawnArgs N i) g.fifo
  | .host => writeChart g.buffer g.data g.globalSize
  | .waiter => waitChart .fifo MangoEventStatus.END_FIFO_OPERATION.value

def places : GroupPlaces N where
  proc
    | .spawner => ⟨none, List.replicate g.joins ()⟩
    | .task i => ⟨none, List.replicate (g.rounds i) .barrier ++ [.exit]⟩
    | .host => ⟨none, List.replicate g.bursts ()⟩
    | .waiter => ⟨none, List.replicate g.waits ()⟩
  shared := g.shared

abbrev act (combine : Nat → Nat → Nat) := placeAct g.charts (exec (ι := Party N) combine)

theorem start_eq : g.start = g.places.threads g.charts := by
  simp only [start, places, World.map, World.mk.injEq, and_true]
  funext i
  cases i <;>
    simp only [Thread.start, Chart.thread, List.map_append, List.map_replicate, List.map_cons,
      List.map_nil, Option.elim_none] <;> rfl

theorem reachable_places {combine : Nat → Nat → Nat} {c : GroupThreads N}
    (reach : g.Reachable combine c) :
    ∃ w : GroupPlaces N, World.Reachable (g.act combine) g.places w ∧ c = w.threads g.charts := by
  unfold Reachable at reach
  rw [start_eq] at reach
  exact Interleave.reachable_places reach

theorem reachable_run {combine : Nat → Nat → Nat} (schedule : List (Party N)) :
    g.start.run (threadAct (exec combine)) schedule =
      Places.threads g.charts (g.places.run (g.act combine) schedule) := by
  rw [start_eq]
  exact World.map_run (fun i l s => (g.charts i).thread_step (exec combine i) l s) g.places schedule

end Group

theorem step_keeps_value {g : Group N} {w : GroupPlaces N} {j : Party N} {e : GroupReg}
    {combine : Nat → Nat → Nat}
    (apart : ∀ p, (g.charts j).op p ≠ .readSynchronization e ∧ ((g.charts j).op p).written ≠ some e) :
    (w.step (g.act combine) j).shared.regs.value e = w.shared.regs.value e := by
  rcases here : w.proc j with ⟨_ | p, _ | ⟨call, calls⟩⟩
  · rw [Places.step_finished here]
  · rw [Places.step_enter here]
  · rw [Places.step_op here]
    exact exec_value_other _ _ _ _ (apart p).1 (apart p).2
  · rw [Places.step_op here]
    exact exec_value_other _ _ _ _ (apart p).1 (apart p).2

end Places

end MangoModel
