import LibMango.Host.Construction
import LibMango.Vectors.Remove

namespace MangoModel.Host

open Vectors

variable {κ β ε : Type} [DecidableEq κ] [DecidableEq β] [DecidableEq ε]

/-- The lists of a task graph as its vectors of shared pointers; `none` is the null pointer. -/
structure TaskPointers (κ β ε : Type) where
  kernels : List (Option κ)
  buffers : List (Option β)
  events : List (Option ε)
  deriving DecidableEq

namespace TaskPointers

/-- What is removed from a graph. -/
inductive Pointer (κ β ε : Type) where
  | kernel (k : Option κ)
  | buffer (b : Option β)
  | event (e : Option ε)

/-- `operator-=`; `none` where the behaviour is undefined. -/
def sub (tg : TaskPointers κ β ε) : Pointer κ β ε → Option (TaskPointers κ β ε)
  | .kernel k => do return { tg with kernels := ← eraseRemove tg.kernels k }
  | .buffer b => do return { tg with buffers := ← eraseRemove tg.buffers b }
  | .event e => do return { tg with events := ← eraseRemove tg.events e }

/-- The graph without the pointer. -/
def without (tg : TaskPointers κ β ε) : Pointer κ β ε → TaskPointers κ β ε
  | .kernel k => { tg with kernels := tg.kernels.filter (· ≠ k) }
  | .buffer b => { tg with buffers := tg.buffers.filter (· ≠ b) }
  | .event e => { tg with events := tg.events.filter (· ≠ e) }

def occurrences (tg : TaskPointers κ β ε) : Pointer κ β ε → Nat
  | .kernel k => tg.kernels.count k
  | .buffer b => tg.buffers.count b
  | .event e => tg.events.count e

variable (tg : TaskPointers κ β ε) (x : Pointer κ β ε)

/-- Exactly the pointers that occur once are removed as they should be. -/
theorem sub_eq_without_iff : tg.sub x = some (tg.without x) ↔ tg.occurrences x = 1 := by
  cases x with
  | kernel k =>
    rw [occurrences, ← eraseRemove_eq_filter_iff]
    cases erased : eraseRemove tg.kernels k <;> simp [sub, without, erased]
  | buffer b =>
    rw [occurrences, ← eraseRemove_eq_filter_iff]
    cases erased : eraseRemove tg.buffers b <;> simp [sub, without, erased]
  | event e =>
    rw [occurrences, ← eraseRemove_eq_filter_iff]
    cases erased : eraseRemove tg.events e <;> simp [sub, without, erased]

end TaskPointers

namespace TaskGraph

/-- Objects are the same where their ids are. -/
def pointers (tg : TaskGraph) : TaskPointers Nat Nat Nat where
  kernels := tg.kernels.map fun k => some k.id
  buffers := tg.buffers.map fun b => some b.id
  events := tg.events.map fun e => some e.id

/-- The graph without the objects of the given id. -/
def without (tg : TaskGraph) : TaskPointers.Pointer Nat Nat Nat → TaskGraph
  | .kernel id => { tg with kernels := tg.kernels.filter fun k => some k.id ≠ id }
  | .buffer id => { tg with buffers := tg.buffers.filter fun b => some b.id ≠ id }
  | .event id => { tg with events := tg.events.filter fun e => some e.id ≠ id }

theorem pointers_without (tg : TaskGraph) (x : TaskPointers.Pointer Nat Nat Nat) :
    (tg.without x).pointers = tg.pointers.without x := by
  cases x <;> simp only [without, pointers, TaskPointers.without, List.filter_map] <;> rfl

end TaskGraph

/-- `operator-=` removes exactly the given object where it is in its list once. -/
theorem removal_exact_iff :
    (∀ (tg : TaskPointers κ β ε) (x : TaskPointers.Pointer κ β ε),
      tg.sub x = some (tg.without x) ↔ tg.occurrences x = 1) ∧
    ∀ (tg : TaskGraph) (x : TaskPointers.Pointer Nat Nat Nat),
      tg.pointers.sub x = some (tg.without x).pointers ↔ tg.pointers.occurrences x = 1 := by
  constructor
  · intro tg x
    exact tg.sub_eq_without_iff x
  · intro tg x
    rw [TaskGraph.pointers_without, TaskPointers.sub_eq_without_iff]

/-- A graph of a context with one object of each kind, made with the event among its arguments. -/
def eventGraph : Option TaskGraph := do
  let h ← History.registerAll 0 [.kernel 1 oneKernel [1] [], .memory 1 64 .BUFFER [0] [1], .event [1] [0]]
  mangoTaskGraphCreate h.2.cxt [1] [1] [5]

/-- The event stays in the graph, which has it twice; to remove it from a graph that does not have
    it is undefined. -/
theorem removal_of_repeated_event : ∃ tg, eventGraph = some tg ∧
    (tg.pointers.sub (.event (some 5))).map (·.events) = some ([0, 1, 2, 3, 4, 5].map some) ∧
    (tg.without (.event (some 5))).pointers.events = [0, 1, 2, 3, 4].map some ∧
    tg.pointers.sub (.event (some 6)) = none ∧
    (tg.without (.event (some 6))).pointers = tg.pointers := by
  have facts : (eventGraph.map fun tg =>
      decide ((tg.pointers.sub (.event (some 5))).map (·.events) = some ([0, 1, 2, 3, 4, 5].map some) ∧
        (tg.without (.event (some 5))).pointers.events = [0, 1, 2, 3, 4].map some ∧
        tg.pointers.sub (.event (some 6)) = none ∧
        (tg.without (.event (some 6))).pointers = tg.pointers)) = some true := by
    decide
  obtain ⟨tg, built, computed⟩ := Option.map_eq_some_iff.mp facts
  exact ⟨tg, built, of_decide_eq_true computed⟩

end MangoModel.Host
