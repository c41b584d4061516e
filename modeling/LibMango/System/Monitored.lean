import LibMango.Group.Serialized
import LibMango.System.Parties

namespace MangoModel.System

open Host Device OpenCL Interleave Layout Fallible

section Operations

variable {ι ρ : Type}

/-- What an operation is on a platform; what a party prints or keeps for itself is not on it. -/
def touchOf : Op ρ → Touch ρ
  | .readSynchronization e => .take e
  | .writeSynchronization e value => .put e value
  | .storeByte addr byte => .store addr byte
  | .loadByte addr => .load addr
  | .dprint _ | .keepByte _ _ => .nothing

def commonOf (s : Shared ι ρ) : Common ρ := ⟨s.regs.value, s.memory⟩

theorem exec_touch [DecidableEq ρ] (i : ι) (a : Op ρ) (s : Shared ι ρ) :
    ((exec overwrite i a s).1, commonOf (exec overwrite i a s).2) = (touchOf a).exec (commonOf s) := by
  cases a <;> rfl

/-- A program of a party does the same on a platform as on registers and bytes of its own. -/
theorem Placed.operations [DecidableEq ρ] {p : Application} {f : Platform} {names : Naming ρ} {way : Way ρ}
    (placed : Placed p f) (sound : names.Sound p) (leads : way.Leads p names) (base : Contents) (i : ι) :
    Alike (fun a => way.Gets p names (touchOf a))
      (fun (s : Shared ι ρ) h => ∃ t, Shows p f.cxt t h ∧ names.Holds base t (commonOf s)) (exec overwrite i)
      (fun a => f.touch names way (touchOf a)) := by
  intro a s h gets related
  have touched := placed.touch sound leads base (touchOf a) (commonOf s) h gets related
  have same := exec_touch i a s
  rw [← same] at touched
  exact touched

/-- The operations of parties on a platform. -/
def Platform.parties (f : Platform) (names : Naming ρ) (ways : ι → Way ρ) (i : ι) (a : Op ρ) :
    Hardware → Nat × Hardware :=
  f.touch names (ways i) (touchOf a)

end Operations

section Calls

variable {ρ : Type} {kind : Op ρ → Prop} {e : ρ}

theorem write_only (own : ∀ value, kind (.writeSynchronization e value)) (value : Nat) :
    (mangoWriteSynchronization e value).Only kind := .bind (.perform (own value)) fun _ => .pure ()

theorem lock_only (own : kind (.readSynchronization e)) : (mangoLock e).Only kind :=
  Code.Only.doWhile _ (.perform own)

theorem wait_only (enter : kind (.readSynchronization e))
    (leave : ∀ value, kind (.writeSynchronization e value)) (state : Nat) : (mangoWait e state).Only kind := by
  refine Code.Only.bind (.doWhile _ ((lock_only enter).bind fun value => ?_)) fun _ => .pure ()
  exact .ite (.bind (write_only leave value) fun _ => .bind (.pure ()) fun _ => .pure value) (.pure value)

end Calls

section Texts

variable {kind : Op Unit → Prop} {t : Section}

theorem rest_only {p : Prog MemoryOp Nat} (leave : ∀ value, kind (.writeSynchronization () value))
    (only : p.Only fun a => kind a.op) : (Section.rest p).Only kind := by
  induction p with
  | ret value => exact ⟨leave value, fun _ => True.intro⟩
  | op action next ih => exact ⟨only.1, fun value => ih value (only.2 value)⟩
  | iterate running body again next _ _ ih =>
    refine ⟨?_, fun value => ?_, fun value => ih value (only.2.2 value)⟩
    · exact only.1.mapOp
    · exact (only.2.1 value).mapOp

theorem enter_only (enter : kind (.readSynchronization ()))
    (leave : ∀ value, kind (.writeSynchronization () value)) (e : Entry) : (e.enter ()).Only kind := by
  cases e with
  | lock => exact lock_only enter
  | wait state => exact (wait_only enter leave state).bind fun _ => .pure state
  | waitState state => exact (wait_only enter leave state).bind fun _ => .pure state

theorem text_only (enter : kind (.readSynchronization ()))
    (leave : ∀ value, kind (.writeSynchronization () value))
    (work : ∀ value, (t.work value).Only fun a => kind a.op) : t.text.call.Only kind := by
  rw [Section.text_eq]
  exact enter_only enter leave t.entry _ fun value => rest_only leave (work value)

end Texts

section Sections

variable {ι : Type} [DecidableEq ι] {p : Application} {names : Naming Unit} {ways : ι → Way Unit}

/-- Parties that share an event and bytes go through the same calls on a platform. -/
theorem Placed.sections {f : Platform} (placed : Placed p f) (sound : names.Sound p)
    (leads : ∀ i, (ways i).Leads p names) {s : Sharing ι}
    (gets : ∀ i, ∀ t ∈ s.calls i, ∀ value,
      (t.work value).Only fun a => (ways i).Gets p names (touchOf a.op))
    {contents : Contents} {h : Hardware} (shown : Shows p f.cxt contents h)
    (holds : names.Holds contents contents ⟨fun _ => s.value, s.memory⟩) (schedule : List ι) :
    (World.run (threadAct (f.parties names ways)) ⟨s.start.proc, h⟩ schedule).proc =
        (s.start.run (threadAct (exec overwrite)) schedule).proc ∧
      ∃ contents', Shows p f.cxt contents'
          (World.run (threadAct (f.parties names ways)) ⟨s.start.proc, h⟩ schedule).shared ∧
        names.Holds contents contents' (commonOf (s.start.run (threadAct (exec overwrite)) schedule).shared) := by
  have only : ∀ i, (s.start.proc i).Only fun a => (ways i).Gets p names (touchOf a) := by
    intro i
    refine ⟨True.intro, fun call member => ?_⟩
    obtain ⟨t, mine, rfl⟩ := List.mem_map.mp member
    exact text_only True.intro (fun _ => True.intro) (gets i t mine)
  exact threads_alike (fun i => placed.operations sound (leads i) contents i) (w := s.start) rfl
    ⟨contents, shown, holds⟩ only schedule

variable {created : Nat} {registrations : List Registration} {given : List Answer} {s : Registry}
  {kernels buffers events : List Nat} {manager : BbqueGraph → BbqueGraph} {outcome : Nat → Bool}
  {regs : Registers} {mm : Mm} {r : Allocated} {w : Nat}

/-- Host threads and kernels that take turns by an event of an allocated graph, each through its own addresses,
    do their work on the buffers as if each section were one step. -/
theorem sections_deployed (registered : History.registerAll created registrations = some (given, s))
    (few : s.created ≤ 2^32) (made : mangoTaskGraphCreate s.cxt kernels buffers events = some p.tg)
    (kernelIds : kernels.Nodup) (bufferIds : buffers.Nodup) (provided : Provided p manager outcome)
    (run : resourceAllocation manager outcome p.tg regs mm = some r) (long : 32 ≤ w)
    (sound : names.Sound p) (leads : ∀ i, (ways i).Leads p names) (sharing : Sharing ι)
    (gets : ∀ i, ∀ t ∈ sharing.calls i, ∀ value,
      (t.work value).Only fun a => (ways i).Gets p names (touchOf a.op))
    {contents : Contents} {h : Hardware} (shown : Shows p (OpenCL.store s.cxt r.tg) contents h)
    (holds : names.Holds contents contents ⟨fun _ => sharing.value, sharing.memory⟩)
    (c : Threads ι (Op Unit) Nat Hardware)
    (reach : World.Reachable (threadAct ((p.deploy s.cxt r w).platform.parties names ways))
      ⟨sharing.start.proc, h⟩ c) :
    (∀ i j, Holds (c.proc i) → Holds (c.proc j) → i = j) ∧
      ∃ order fuel m, sharing.monitor.serial memoryExec fuel order = some m ∧
        (∀ i, (c.proc i).returned (sharing.calls i).length = order.count i) ∧
        ((∀ i, ¬ Holds (c.proc i)) → ∃ contents', Shows p (OpenCL.store s.cxt r.tg) contents' c.shared ∧
          names.Holds contents contents' ⟨fun _ => m.value, m.cells⟩) := by
  have placed := (constructed_deployed registered few made kernelIds bufferIds provided run).placed long
  obtain ⟨schedule, rfl⟩ := reach
  obtain ⟨same, contents', shown', holds'⟩ := placed.sections sound leads gets shown holds schedule
  obtain ⟨order, fuel, m, ran, filled, serialized⟩ := serialized_reachable (s := sharing) ⟨schedule, rfl⟩
  rw [same]
  refine ⟨fun i j => serialized.one_holds, order, fuel, m, ran, serialized.counts ran, fun nobody => ?_⟩
  obtain ⟨_, value, memory⟩ := serialized.settled nobody
  have common : commonOf (sharing.start.run (threadAct (exec overwrite)) schedule).shared =
      ⟨fun _ => m.value, m.cells⟩ := by
    simp only [commonOf, memory, Common.mk.injEq, and_true]
    exact funext fun _ => value
  exact ⟨contents', shown', common ▸ holds'⟩

end Sections

section Mailbox

/-- The mailbox is the second buffer of the pipeline with its event, between the PEAK kernel and the host. -/
def mailboxNames : Naming Unit where
  event _ := 10
  place addr := if addr < 64 then some (11, addr) else none

def mailboxWays (i : Fin 2) : Way Unit := if i.val = 0 then .kernel 1 (fun _ => .param 2) fun _ => 1 else .host

theorem mailbox_sound : mailboxNames.Sound pipelineApplication where
  events _ := ⟨_, rfl⟩
  distinct _ _ _ := rfl
  inside addr l place := by
    simp only [mailboxNames, Option.ite_none_right_eq_some, Option.some.injEq] at place
    obtain ⟨below, rfl⟩ := place
    exact ⟨_, rfl, below⟩
  apart addr addr' l place place' := by
    simp only [mailboxNames, Option.ite_none_right_eq_some, Option.some.injEq] at place place'
    obtain ⟨_, rfl⟩ := place
    obtain ⟨_, same⟩ := place'
    exact (Prod.mk.inj same).2.symm

theorem mailbox_gets (i : Fin 2) (t : Section) (mine : t ∈ mailbox.calls i) (value : Nat) :
    (t.work value).Only fun a => (mailboxWays i).Gets pipelineApplication mailboxNames (touchOf a.op) := by
  have reads : ∀ addr < 64, ∀ i, (mailboxWays i).Gets pipelineApplication mailboxNames (.load addr) := by
    intro addr below i
    refine ⟨(11, addr), if_pos below, ?_⟩
    unfold mailboxWays
    split
    · exact ⟨_, rfl, rfl⟩
    · exact True.intro
  simp only [mailbox] at mine
  split at mine <;> simp only [List.mem_cons, List.not_mem_nil, or_false, or_self] at mine
  · rcases mine with rfl | rfl <;> exact ⟨reads 0 (by decide) i, fun _ => True.intro⟩
  · subst mine
    exact ⟨reads 0 (by decide) i, fun _ => ⟨reads 1 (by decide) i, fun _ => ⟨reads 1 (by decide) i,
      fun _ => True.intro⟩⟩⟩

theorem sections_deployed_mailbox : ∃ cxt r order fuel m,
    resourceAllocation pipelineManager (fun _ => true) pipelineGraph (fun _ _ => 0) .start = some r ∧
      mailbox.monitor.serial memoryExec fuel order = some m ∧ order.count 0 = 2 ∧ order.count 1 = 2 ∧
        ∃ contents', Shows pipelineApplication (OpenCL.store cxt r.tg) contents'
            (World.run (threadAct ((pipelineApplication.deploy cxt r 32).platform.parties mailboxNames mailboxWays))
              ⟨mailbox.start.proc, ⟨fun _ _ _ => 0, fun _ _ => 1⟩⟩ mailboxSchedule).shared ∧
          contents'.arrays 11 1 = m.cells 1 := by
  obtain ⟨given, s, registered, count, made⟩ := pipeline_constructed
  obtain ⟨r, run⟩ := pipeline_allocated
  have few : s.created ≤ 2^32 := by
    rw [count]
    decide
  let contents : Contents := ⟨fun _ _ => 0, fun _ => 1⟩
  let h : Hardware := ⟨fun _ _ _ => 0, fun _ _ => 1⟩
  have shown : Shows pipelineApplication (OpenCL.store s.cxt r.tg) contents h :=
    ⟨fun _ _ _ => rfl, fun _ _ _ => rfl⟩
  have holds : mailboxNames.Holds contents contents ⟨fun _ => mailbox.value, mailbox.memory⟩ :=
    ⟨fun _ => rfl, fun _ _ _ => rfl, fun _ _ => rfl, fun _ _ => rfl⟩
  have leads : ∀ i, (mailboxWays i).Leads pipelineApplication mailboxNames := by
    intro i
    unfold mailboxWays
    split
    · exact fun _ => ⟨_, rfl, rfl⟩
    · exact True.intro
  obtain ⟨_, order, fuel, m, ran, counts, rest⟩ := sections_deployed (p := pipelineApplication) registered few made
    (by decide) (by decide) pipeline_provided run (Nat.le_refl 32) mailbox_sound leads mailbox mailbox_gets shown
    holds _ ⟨mailboxSchedule, rfl⟩
  have placed := (constructed_deployed (p := pipelineApplication) registered few made (by decide) (by decide)
    pipeline_provided run).placed (Nat.le_refl 32)
  have same := (placed.sections mailbox_sound leads mailbox_gets shown holds mailboxSchedule).1
  rw [same] at counts rest
  have ended : ∀ i, ((mailbox.start.run (threadAct (exec overwrite)) mailboxSchedule).proc i).running.nextOp =
      none := by decide +kernel
  have first := counts 0
  have second := counts 1
  obtain ⟨contents', shown', holds'⟩ := rest fun i ⟨a, inside, _⟩ => by simp [ended i] at inside
  have returned : ((mailbox.start.run (threadAct (exec overwrite)) mailboxSchedule).proc 0).returned 2 = 2 ∧
      ((mailbox.start.run (threadAct (exec overwrite)) mailboxSchedule).proc 1).returned 2 = 2 := by decide +kernel
  exact ⟨s.cxt, r, order, fuel, m, run, ran, first.symm.trans returned.1, second.symm.trans returned.2, contents',
    shown', holds'.cells 1 (11, 1) rfl⟩

end Mailbox

end MangoModel.System
