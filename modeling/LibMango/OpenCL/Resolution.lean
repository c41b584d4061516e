import LibMango.Host.Addresses
import LibMango.Host.Usability
import LibMango.OpenCL.Queues

namespace MangoModel.OpenCL

open Host

section Resolution

variable {h : History} {tg : TaskGraph} {k : Kernel} {s : Mm}

theorem buffer_unique {r : Registry} {answers : List Answer} (recorded : History.Recorded (answers, r))
    (built : Built r tg) : ∀ b ∈ tg.buffers, ∀ b' ∈ tg.buffers, b.id = b'.id → b = b' := by
  intro b inside b' inside' same
  obtain ⟨bid, found⟩ := built.buffers b inside
  obtain ⟨bid', found'⟩ := built.buffers b' inside'
  rw [← recorded.ids bid b found] at found
  rw [← recorded.ids bid' b' found', ← same] at found'
  exact Option.some.inj (found.symm.trans found')

theorem announced_of_few {r : Registry} {answers : List Answer}
    (recorded : History.Recorded (answers, r)) (built : Built r tg) (few : r.created ≤ 2^32)
    (member : k ∈ tg.kernels) : Announced s tg k := by
  obtain ⟨kid, found⟩ := built.kernels k member
  obtain ⟨event, named⟩ := recorded.kernels few kid k found
  exact .inr (.inl ⟨k.terminationEvent, (built.events _).mpr ⟨_, event⟩, named, rfl⟩)

variable {answer : BbqueGraph → BbqueGraph} {outcome : Nat → Bool} {regs : Registers} {r : Allocated}

/-- After an allocation that returns, the arguments of a kernel resolve if and only if its buffers have it
    in their lists and its termination event is its own; in a graph of the public interface a buffer is
    the only one of its id, and the event is the kernel's own while the ids of events last. -/
theorem arguments_resolve_iff (run : resourceAllocation answer outcome tg regs s = some r)
    (member : k ∈ tg.kernels) :
    ((AllResolve tg k (r.mm.tlb k) ∧
        ∀ buffers : List Buffer, (∀ b ∈ buffers, b ∈ tg.buffers ∧ b.id ∈ k.buffersIn ++ k.buffersOut) →
          (KernelArguments.setup (r.mm.tlb k) (buffers.map Arg.ofBuffer) k).isSome) ↔
      Announced s tg k ∧ Supplied s tg k) ∧
    ∀ created h, PublicGraph created h tg →
      (Supplied s tg k ↔ Agreed s tg k) ∧ (h.2.created ≤ 2^32 → Announced s tg k) := by
  constructor
  · rw [← allResolve_iff run member]
    exact and_iff_left_of_imp fun resolve buffers mine => resolve.setup mine
  · intro created h made
    obtain ⟨recorded, built⟩ := made.built
    exact ⟨supplied_iff_agreed (buffer_unique recorded built),
      fun few => announced_of_few recorded built few member⟩

/-- A kernel that reads one buffer, which is registered with some readers, and what comes of it. -/
def oneBuffer (kernelsOut : List Nat) : Option (History × TaskGraph × Allocated) := do
  let h ← History.registerAll 0 [.kernel 1 oneKernel [1] [], .memory 1 64 .BUFFER [0] kernelsOut]
  let tg ← mangoTaskGraphCreate h.2.cxt [1] [1] []
  let r ← resourceAllocation (placeOn fun _ => (5, .GN)) (fun _ => true) tg (fun _ _ => 0) .start
  return (h, tg, r)

theorem oneBuffer_cases {kernelsOut : List Nat} (run : oneBuffer kernelsOut = some (h, tg, r)) :
    PublicGraph 0 h tg ∧
      resourceAllocation (placeOn fun _ => (5, .GN)) (fun _ => true) tg (fun _ _ => 0) .start = some r := by
  simp only [oneBuffer, Option.bind_eq_bind, Option.bind_eq_some_iff] at run
  obtain ⟨_, registered, _, built, _, allocated, run⟩ := run
  cases run
  exact ⟨.create registered built, allocated⟩

theorem arguments_resolve_one_reader : ∃ h tg r, oneBuffer [1] = some (h, tg, r) ∧ ∀ k ∈ tg.kernels,
    ((AllResolve tg k (r.mm.tlb k) ∧
        ∀ buffers : List Buffer, (∀ b ∈ buffers, b ∈ tg.buffers ∧ b.id ∈ k.buffersIn ++ k.buffersOut) →
          (KernelArguments.setup (r.mm.tlb k) (buffers.map Arg.ofBuffer) k).isSome) ↔
      Announced .start tg k ∧ Supplied .start tg k) ∧
    (Supplied .start tg k ↔ Agreed .start tg k) ∧ (h.2.created ≤ 2^32 → Announced .start tg k) := by
  have returns : (oneBuffer [1]).isSome := by decide
  obtain ⟨⟨h, tg, r⟩, run⟩ := Option.isSome_iff_exists.mp returns
  obtain ⟨made, allocated⟩ := oneBuffer_cases run
  refine ⟨h, tg, r, run, ?_⟩
  intro k member
  obtain ⟨resolves, public_⟩ := arguments_resolve_iff allocated member
  exact ⟨resolves, public_ 0 h made⟩

/-- The lists of a buffer need not be set, and then the kernel that reads it has no address for it. -/
theorem arguments_no_reader : ∃ h tg r, oneBuffer [] = some (h, tg, r) ∧ r.code = .SUCCESS ∧
    ∃ k ∈ tg.kernels, ¬ AllResolve tg k (r.mm.tlb k) := by
  have returns : (oneBuffer []).map (fun (_, tg, r) => (r.code, tg.buffers.map Buffer.id,
      tg.kernels.map fun k => (k.buffersIn, (r.mm.tlb k).buffers 1))) =
    some (.SUCCESS, [1], [([1], none)]) := by decide
  obtain ⟨⟨h, tg, r⟩, run, found⟩ := Option.map_eq_some_iff.mp returns
  simp only [Prod.mk.injEq] at found
  obtain ⟨code, buffers, kernels⟩ := found
  obtain ⟨k, list, lists⟩ := List.map_eq_singleton_iff.mp kernels
  obtain ⟨b, others, id⟩ := List.map_eq_singleton_iff.mp buffers
  simp only [Prod.mk.injEq] at lists
  refine ⟨h, tg, r, run, code, k, by simp [list], ?_⟩
  intro resolve
  have addressed := resolve.buffers b (by simp [others]) (by simp [id, lists])
  rw [id, lists.2] at addressed
  cases addressed

end Resolution

end MangoModel.OpenCL
