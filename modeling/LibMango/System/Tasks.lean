import LibMango.Group.Returning
import LibMango.System.Emulation
import LibMango.System.Monitored

namespace MangoModel.System

open Host Device OpenCL Interleave Layout Simulation

section Model

variable {ρ : Type} {N : Nat}

/-- The registers that every kernel has a pointer to. -/
inductive OwnReg where
  | exit
  | a
  | b
  | r
  deriving DecidableEq, Repr

def OwnReg.device : OwnReg → DeviceEvent
  | .exit => .exit
  | .a => .a
  | .b => .b
  | .r => .r

def ownReg : GroupReg → Option OwnReg
  | .eventA => some .a
  | .eventB => some .b
  | .eventR => some .r
  | .fifo => none

/-- What an operation of a kernel with tasks is on a platform. -/
def kernelTouch : Op GroupReg ⊕ KernelOp → Touch OwnReg
  | .inl (.readSynchronization e) => (ownReg e).elim .nothing .take
  | .inl (.writeSynchronization e value) => (ownReg e).elim .nothing (.put · value)
  | .inr (.exit (.readSynchronization _)) => .take .exit
  | .inr (.exit (.writeSynchronization _ value)) => .put .exit value
  | .inr (.cell (.loadByte addr)) => .load addr
  | .inr (.cell (.storeByte addr byte)) => .store addr byte
  | _ => .nothing

def kernelCommon (s : Shared (Party N) GroupReg × Beyond (Party N)) : Common OwnReg where
  values
    | .exit => s.2.exit.regs.value ()
    | .a => s.1.regs.value .eventA
    | .b => s.1.regs.value .eventB
    | .r => s.1.regs.value .eventR
  cells := s.2.memory

/-- The spawner and its tasks share the pointers of their kernel; the others are host threads. -/
def Way.ofParty (way : Way OwnReg) : Party N → Way OwnReg
  | .spawner | .task _ => way
  | .host | .waiter => .host

/-- The operations of a kernel's parties on a platform. -/
def Platform.tasks (f : Platform) (names : Naming OwnReg) (way : Way OwnReg) (i : Party N)
    (a : Op GroupReg ⊕ KernelOp) : Hardware → Nat × Hardware :=
  f.touch names (way.ofParty i) (kernelTouch a)

/-- What `mango_gn_spawn` writes before it makes the threads. -/
def mangoGnSpawn (kid range : Nat) : List Command :=
  [.deviceWriteSynchronization kid .a (range + 1), .deviceWriteSynchronization kid .b (range + 1),
    .deviceWriteSynchronization kid .r 2]

/-- An operation on known registers, or on what nobody else sees. -/
def Plain (known : ρ → Prop) : Op ρ → Prop
  | .readSynchronization e | .writeSynchronization e _ => known e
  | .storeByte _ _ | .loadByte _ => False
  | .dprint _ | .keepByte _ _ => True

/-- An operation that a platform has something for. -/
def Deployable (gets : Touch OwnReg → Prop) : Op GroupReg ⊕ KernelOp → Prop
  | .inl a => Plain (· ≠ .fifo) a
  | .inr (.exit a) => Plain (fun _ => True) a
  | .inr (.cell a) => gets (kernelTouch (.inr (.cell a)))

end Model

section Operations

variable {N : Nat} {gets : Touch OwnReg → Prop} {a : Op GroupReg ⊕ KernelOp}

theorem exec_kernelTouch (deployable : Deployable gets a) (i : Party N)
    (s : Shared (Party N) GroupReg × Beyond (Party N)) :
    ((partyExec i a s).1, kernelCommon (partyExec i a s).2) = (kernelTouch a).exec (kernelCommon s) := by
  have values : ∀ {f g : OwnReg → Nat} {cells : Nat → Nat} (answer : Nat), f .exit = g .exit → f .a = g .a →
      f .b = g .b → f .r = g .r → (answer, Common.mk f cells) = (answer, ⟨g, cells⟩) := by
    intro f g cells answer exit a b r
    have same : f = g := by
      funext e
      cases e
      · exact exit
      · exact a
      · exact b
      · exact r
    rw [same]
  rcases a with a | a | a
  · cases a with
    | readSynchronization e => cases e <;> first | exact absurd rfl deployable | exact values _ rfl rfl rfl rfl
    | writeSynchronization e value =>
      cases e <;> first | exact absurd rfl deployable | exact values _ rfl rfl rfl rfl
    | dprint line => rfl
    | storeByte addr byte => exact deployable.elim
    | loadByte addr => exact deployable.elim
    | keepByte offset byte => rfl
  · cases a with
    | readSynchronization e => exact values _ rfl rfl rfl rfl
    | writeSynchronization e value => exact values _ rfl rfl rfl rfl
    | dprint line => rfl
    | storeByte addr byte => exact deployable.elim
    | loadByte addr => exact deployable.elim
    | keepByte offset byte => rfl
  · cases a <;> rfl

theorem gets_of_deployable {p : Application} {names : Naming OwnReg} {way : Way OwnReg}
    (deployable : Deployable (way.Gets p names) a) : way.Gets p names (kernelTouch a) := by
  rcases a with a | a | a
  · cases a with
    | readSynchronization e => cases e <;> exact True.intro
    | writeSynchronization e value => cases e <;> exact True.intro
    | _ => exact True.intro
  · cases a <;> exact True.intro
  · exact deployable

/-- A program of a party does the same on a platform as on the registers and the memory of the model. -/
theorem Placed.tasks {p : Application} {f : Platform} {names : Naming OwnReg} {way : Way OwnReg}
    (placed : Placed p f) (sound : names.Sound p) (leads : way.Leads p names) (base : Contents) (i : Party N) :
    Alike (Deployable ((way.ofParty i).Gets p names))
      (fun s h => ∃ t, Shows p f.cxt t h ∧ names.Holds base t (kernelCommon s)) (partyExec i)
      (f.tasks names way i) := by
  intro a s h deployable related
  have leads' : (way.ofParty i).Leads p names := by
    cases i with
    | spawner => exact leads
    | task i => exact leads
    | host => exact True.intro
    | waiter => exact True.intro
  have touched := placed.touch sound leads' base (kernelTouch a) (kernelCommon s) h
    (gets_of_deployable deployable) related
  rw [← exec_kernelTouch deployable i s] at touched
  exact touched

end Operations

section Texts

variable {ρ : Type} {known : ρ → Prop} {e : ρ}

theorem lock_plain (own : known e) : (mangoLock e).Only (Plain known) := lock_only own

theorem write_plain (own : known e) (value : Nat) : (mangoWriteSynchronization e value).Only (Plain known) :=
  write_only (fun _ => own) value

theorem print_plain (line : Dprint) : (dprint line : Text ρ Unit).Only (Plain known) :=
  .bind (.perform True.intro) fun _ => .pure ()

theorem wait_plain (own : known e) (state : Nat) : (mangoWait e state).Only (Plain known) :=
  wait_only own (fun _ => own) state

theorem signal_plain (own : known e) : (mangoSignal e).Only (Plain known) :=
  (lock_plain own).bind fun _ => (write_plain own _).bind fun _ => .pure _

theorem join_plain (own : known e) : (mangoJoin e).Only (Plain known) :=
  (wait_plain own _).bind fun _ => print_plain _

theorem exit_plain {args : TaskArgs ρ} (own : known args.event) : (mangoExit args).Only (Plain known) :=
  (lock_plain own).bind fun _ => write_plain own _

theorem barrier_plain {args : TaskArgs ρ} (barrier : known args.barrier) (release : known args.release) :
    (mangoBarrier args none).Only (Plain known) := by
  unfold mangoBarrier
  refine .bind (print_plain _) fun _ => .bind (lock_plain release) fun go =>
    .bind (write_plain release go) fun _ => .bind (signal_plain barrier) fun count => .ite ?_ ?_
  · exact .bind (print_plain _) fun _ => wait_plain release _
  · refine .bind (print_plain _) fun _ => .bind (print_plain _) fun _ => .bind (lock_plain barrier) fun _ =>
      .bind (write_plain barrier _) fun _ => .bind (print_plain _) fun _ => .bind (lock_plain release) fun _ =>
        .bind (write_plain release _) fun _ => print_plain _

end Texts

section Start

variable {N : Nat} {gets : Touch OwnReg → Prop}

theorem inGroup_only {p : Prog (Op GroupReg) Nat} (only : p.Only (Plain (· ≠ .fifo))) :
    (GroupKernel.inGroup p).Only (Deployable gets) := Prog.Only.mapOp only

theorem onExit_only {p : Prog (Op Unit) Nat} (only : p.Only (Plain fun _ => True)) :
    (GroupKernel.onExit p).Only (Deployable gets) := Prog.Only.mapOp (Prog.Only.mapOp only)

theorem taskTexts_only (kernel : GroupKernel N) (i : Fin N)
    (work : ∀ k, (kernel.work i k).text.Only fun a => gets (kernelTouch (.inr (.cell a)))) (k left : Nat) :
    ∀ text ∈ kernel.taskTexts i k left, text.Only (Deployable gets) := by
  have own : ∀ k, (GroupKernel.onCells (kernel.work i k).text).Only (Deployable gets) :=
    fun k => Prog.Only.mapOp (Prog.Only.mapOp (work k))
  induction left generalizing k with
  | zero =>
    rw [GroupKernel.taskTexts, List.forall_mem_cons, List.forall_mem_singleton]
    exact ⟨own k, inGroup_only (exit_plain (by simp [spawnArgs])).call⟩
  | succ left ih =>
    rw [GroupKernel.taskTexts, List.forall_mem_cons, List.forall_mem_cons]
    exact ⟨own k, inGroup_only (barrier_plain (by simp [spawnArgs]) (by simp [spawnArgs])).call, ih (k + 1)⟩

theorem start_only (kernel : GroupKernel N) {way : Way OwnReg} {p : Application} {names : Naming OwnReg}
    (work : ∀ i k, (kernel.work i k).text.Only fun a => way.Gets p names (kernelTouch (.inr (.cell a))))
    (i : Party N) : (kernel.start.proc i).Only (Deployable ((way.ofParty i).Gets p names)) := by
  cases i with
  | task i => exact ⟨True.intro, taskTexts_only kernel i (work i) 0 kernel.barriers⟩
  | host => exact ⟨True.intro, fun _ member => absurd member List.not_mem_nil⟩
  | spawner =>
    refine ⟨True.intro, List.forall_mem_cons.mpr ⟨inGroup_only (join_plain (by simp)).call, ?_⟩⟩
    exact List.forall_mem_singleton.mpr (onExit_only (write_plain True.intro 1).call)
  | waiter => exact ⟨True.intro, List.forall_mem_singleton.mpr (onExit_only (wait_plain True.intro 1).call)⟩

end Start

section Deployed

variable {N : Nat} {p : Application} {names : Naming OwnReg} {kid : Nat} {param : Nat → Nat}
  {contents : Contents} {h : Hardware} (kernel : GroupKernel N)

theorem spawn_common (idle : contents.values (names.event .exit) = 0) :
    (⟨Function.update (Function.update (Function.update (fun e => contents.values (names.event e)) .a
      (uint32 (N + 1))) .b (uint32 (N + 1))) .r (uint32 2), kernel.memory⟩ : Common OwnReg) =
        kernelCommon kernel.shared := by
  refine congrArg (Common.mk · kernel.memory) (funext fun e => ?_)
  cases e
  · exact idle
  · rfl
  · rfl
  · rfl

/-- `mango_gn_spawn` brings the registers to where the kernel begins. -/
theorem spawn_holds (sound : names.Sound p) (leads : (Way.kernel kid OwnReg.device param).Leads p names)
    (idle : contents.values (names.event .exit) = 0)
    (memory : ∀ addr l, names.place addr = some l → contents.arrays l.1 l.2 = kernel.memory addr) :
    ∃ spawned, Machine.run p.step contents (mangoGnSpawn kid N) = some ([[], [], []], spawned) ∧
      names.Holds contents spawned (kernelCommon kernel.shared) := by
  have start : names.Holds contents contents ⟨fun e => contents.values (names.event e), kernel.memory⟩ :=
    ⟨fun _ => rfl, memory, fun _ _ => rfl, fun _ _ => rfl⟩
  have holds := ((start.put sound .a (uint32 (N + 1))).put sound .b (uint32 (N + 1))).put sound .r (uint32 2)
  obtain ⟨a, foundA, idA⟩ := leads .a
  obtain ⟨b, foundB, idB⟩ := leads .b
  obtain ⟨r, foundR, idR⟩ := leads .r
  have foundA : p.deviceEvent kid .a = some a := foundA
  have foundB : p.deviceEvent kid .b = some b := foundB
  have foundR : p.deviceEvent kid .r = some r := foundR
  rw [← spawn_common kernel idle]
  refine ⟨_, ?_, holds⟩
  simp [Machine.run, mangoGnSpawn, Application.step, foundA, foundB, foundR, idA, idB, idR]

/-- The parties of a kernel go through the same calls on a platform. -/
theorem Placed.spawned {f : Platform} (placed : Placed p f) (sound : names.Sound p)
    (leads : (Way.kernel kid OwnReg.device param).Leads p names)
    (work : ∀ i k, (kernel.work i k).text.Only fun a =>
      (Way.kernel kid OwnReg.device param).Gets p names (kernelTouch (.inr (.cell a))))
    (shown : Shows p f.cxt contents h) (idle : contents.values (names.event .exit) = 0)
    (memory : ∀ addr l, names.place addr = some l → contents.arrays l.1 l.2 = kernel.memory addr) :
    ∃ spawned, Machine.run f.step h (mangoGnSpawn kid N) = some ([[], [], []], spawned) ∧
      ∀ schedule : List (Party N),
        (World.run (threadAct (f.tasks names (.kernel kid OwnReg.device param)))
            ⟨kernel.start.proc, spawned⟩ schedule).proc =
          (kernel.start.run (threadAct partyExec) schedule).proc ∧
        ∃ contents', Shows p f.cxt contents' (World.run
            (threadAct (f.tasks names (.kernel kid OwnReg.device param)))
              ⟨kernel.start.proc, spawned⟩ schedule).shared ∧
          names.Holds contents contents'
            (kernelCommon (kernel.start.run (threadAct partyExec) schedule).shared) := by
  obtain ⟨after, ran, holds⟩ := spawn_holds kernel sound leads idle memory
  obtain ⟨spawned, ran', shown'⟩ := placed.simulated.run shown ran
  refine ⟨spawned, ran', fun schedule => ?_⟩
  exact threads_alike (fun i => placed.tasks sound leads contents i) (w := kernel.start) rfl
    ⟨after, shown', holds⟩ (start_only kernel work) schedule

variable {created : Nat} {registrations : List Registration} {given : List Answer} {s : Registry}
  {kernels buffers events : List Nat} {manager : BbqueGraph → BbqueGraph} {outcome : Nat → Bool}
  {regs : Registers} {mm : Mm} {r : Allocated} {emulator : Emulator} {w : Nat}

/-- On an emulated unit the tasks of a kernel, through the pointers that it finds in its arguments, do in the
    mapped file what one task after the other would do to arrays, and the host finds it when its wait returns. -/
theorem group_emulated (registered : History.registerAll created registrations = some (given, s))
    (few : s.created ≤ 2^32) (made : mangoTaskGraphCreate s.cxt kernels buffers events = some p.tg)
    (kernelIds : kernels.Nodup) (bufferIds : buffers.Nodup) (emulable : Emulable p manager emulator w)
    (run : resourceAllocation manager outcome p.tg regs mm = some r)
    (aligned : Aligned p (OpenCL.store s.cxt r.tg)) (fits : N < 2^31) (free : kernel.RaceFree)
    (sound : names.Sound p) (leads : (Way.kernel kid OwnReg.device param).Leads p names)
    (work : ∀ i k, (kernel.work i k).text.Only fun a =>
      (Way.kernel kid OwnReg.device param).Gets p names (kernelTouch (.inr (.cell a))))
    (shown : Shows p (OpenCL.store s.cxt r.tg) contents h)
    (idle : contents.values (names.event .exit) = 0)
    (memory : ∀ addr l, names.place addr = some l → contents.arrays l.1 l.2 = kernel.memory addr) :
    ∃ spawned, Machine.run (p.emulate s.cxt r w emulator).platform.step h (mangoGnSpawn kid N) =
        some ([[], [], []], spawned) ∧
      ∀ c : Threads (Party N) (Op GroupReg ⊕ KernelOp) Nat Hardware,
        World.Reachable (threadAct ((p.emulate s.cxt r w emulator).platform.tasks names
          (.kernel kid OwnReg.device param))) ⟨kernel.start.proc, spawned⟩ c →
        ∃ contents' shared, Shows p (OpenCL.store s.cxt r.tg) contents' c.shared ∧
          names.Holds contents contents' (kernelCommon shared) ∧ kernel.InStep ⟨c.proc, shared⟩ ∧
            ((c.proc .waiter).finished = true → (∀ i, (c.proc (.task i)).finished = true) ∧
              ∃ fuel, kernel.serial fuel (kernel.barriers + 1) = some shared.2.memory) := by
  have emulated := constructed_emulated registered few made kernelIds bufferIds emulable run
  obtain ⟨spawned, ran, same⟩ := (emulated.placed aligned).spawned kernel sound leads work shown idle memory
  refine ⟨spawned, ran, fun c reach => ?_⟩
  obtain ⟨schedule, rfl⟩ := reach
  obtain ⟨proc, contents', shown', holds⟩ := same schedule
  have reach : kernel.Reachable (kernel.start.run (threadAct partyExec) schedule) := ⟨schedule, rfl⟩
  rw [proc]
  exact ⟨contents', _, shown', holds, GroupKernel.inStep_reachable fits free reach,
    GroupKernel.serial_returned fits free reach⟩

end Deployed

section Exchange

/-- The bytes that the tasks touch are the kernel's second buffer. -/
def exchangeNames : Naming OwnReg where
  event
    | .exit => 1
    | .a => 2
    | .b => 3
    | .r => 4
  place := mailboxNames.place

abbrev exchangeWay : Way OwnReg := .kernel 1 OwnReg.device fun _ => 1

theorem exchange_sound : exchangeNames.Sound emulatedApplication where
  events e := by cases e <;> exact ⟨_, rfl⟩
  distinct e e' same := by cases e <;> cases e' <;> first | rfl | cases same
  inside addr l place := by
    simp only [exchangeNames, mailboxNames, Option.ite_none_right_eq_some, Option.some.injEq] at place
    obtain ⟨below, rfl⟩ := place
    exact ⟨_, rfl, below⟩
  apart := mailbox_sound.apart

theorem exchange_work (i : Fin 2) (k : Nat) : (exchange.work i k).text.Only fun a =>
    exchangeWay.Gets emulatedApplication exchangeNames (kernelTouch (.inr (.cell a))) := by
  have reaches : ∀ addr < 64, ∃ l, exchangeNames.place addr = some l ∧
      exchangeWay.Finds emulatedApplication l.1 :=
    fun addr below => ⟨(11, addr), if_pos below, _, rfl, rfl⟩
  dsimp only [exchange]
  split
  · exact ⟨reaches i (by omega), fun _ => True.intro⟩
  · exact ⟨reaches (1 - i) (by omega), fun _ => ⟨reaches (2 + i) (by omega), fun _ => True.intro⟩⟩

theorem exchange_serial {fuel : Nat} {m : Nat → Nat} (ran : exchange.serial fuel 2 = some m) :
    m 2 = 2 ∧ m 3 = 1 := by
  have known : (exchange.serial 5 2).map (fun m => (m 2, m 3)) = some (2, 1) := by decide +kernel
  obtain ⟨m', ran', values⟩ := Option.map_eq_some_iff.mp known
  have more := exchange.serial_more ran 5
  rw [Nat.add_comm, exchange.serial_more ran' fuel] at more
  obtain rfl := Option.some.inj more
  exact Prod.mk.inj values

theorem group_emulated_exchange : ∃ cxt r h contents schedule,
    resourceAllocation emulatedManager (fun _ => true) emulatedGraph (fun _ _ => 0) .start = some r ∧
      Machine.run (emulatedApplication.emulate cxt r 64 smallEmulator).platform.step
        ⟨fun _ _ _ => 0, fun _ _ => 0⟩ (mangoGnSpawn 1 2) = some ([[], [], []], h) ∧
      Shows emulatedApplication (OpenCL.store cxt r.tg) contents
        (World.run (threadAct ((emulatedApplication.emulate cxt r 64 smallEmulator).platform.tasks exchangeNames
          exchangeWay)) ⟨exchange.start.proc, h⟩ schedule).shared ∧
      contents.arrays 11 2 = 2 ∧ contents.arrays 11 3 = 1 := by
  obtain ⟨given, s, registered, count, made⟩ := emulated_constructed
  obtain ⟨r, run, buffers, events⟩ := emulated_allocated
  have few : s.created ≤ 2^32 := by
    rw [count]
    decide
  have emulated := constructed_emulated (p := emulatedApplication) registered few made (by decide) (by decide)
    emulated_emulable run
  have aligned := emulated.aligned_of buffers events
  have leads : exchangeWay.Leads emulatedApplication exchangeNames := by
    intro e
    cases e <;> exact ⟨_, rfl, rfl⟩
  have shown : Shows emulatedApplication (OpenCL.store s.cxt r.tg) _ _ :=
    shows_contentsOf ⟨fun _ _ _ => 0, fun _ _ => 0⟩
  obtain ⟨h, ran, after⟩ := group_emulated (p := emulatedApplication) exchange registered few made (by decide)
    (by decide) emulated_emulable run aligned (by decide) exchange_raceFree exchange_sound leads exchange_work shown
    rfl fun _ _ _ => rfl
  obtain ⟨h', ran', same⟩ := (emulated.placed aligned).spawned exchange exchange_sound leads exchange_work shown
    rfl fun _ _ _ => rfl
  obtain rfl : h' = h := (Prod.mk.inj (Option.some.inj (ran'.symm.trans ran))).2
  -- task 1 comes to the barrier last and is done first
  let schedule : List (Party 2) := List.replicate 9 (.task 0) ++ List.replicate 22 (.task 1) ++
    List.replicate 7 (.task 0) ++ List.replicate 5 .spawner ++ List.replicate 2 .waiter
  obtain ⟨contents, shared, shown', holds, _, past⟩ := after _ ⟨schedule, rfl⟩
  have returned : ((exchange.start.run (threadAct partyExec) schedule).proc .waiter).finished = true := by
    decide +kernel
  rw [← (same schedule).1] at returned
  obtain ⟨_, fuel, serial⟩ := past returned
  obtain ⟨second, third⟩ := exchange_serial serial
  exact ⟨s.cxt, r, h', contents, schedule, run, ran, shown', (holds.cells 2 _ rfl).trans second,
    (holds.cells 3 _ rfl).trans third⟩

end Exchange

end MangoModel.System
