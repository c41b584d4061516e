import LibMango.OpenCL.Mirrors

namespace MangoModel.OpenCL

open Host

section Runs

theorem rel_weaken {α β : Type} {R R' : α → β → Prop} {x : Option α} {y : Option β}
    (related : Option.Rel R x y) (weaker : ∀ a b, R a b → R' a b) : Option.Rel R' x y := by
  cases related with
  | none => exact .none
  | some one => exact .some (weaker _ _ one)

variable {number number' : Nat → Nat} {s₀ : Registry} {w w₀ w' w₀' : Clients} {command : ClCommand}

/-- `w` is a process with both clients, and `w₀` the one with A alone. -/
structure Linked (number : Nat → Nat) (w w₀ : Clients) : Prop where
  valid : w₀.process.cxt = .valid → w.process.cxt = .valid
  absent : w₀.process.cxt ≠ .valid → w₀.process.registry = .empty w₀.process.registry.created
  mirrors : Mirrors number w.process.registry w₀.process.registry
  events : w.events .A = (w₀.events .A).map number
  given : ∀ ev ∈ w₀.events .A, ev < w₀.process.registry.created

theorem linked_start : Linked id .start .start where
  valid absent := absent
  absent _ := rfl
  mirrors := Mirrors.empty
  events := rfl
  given ev member := by cases member

theorem Linked.congr (linked : Linked number w w₀)
    (same : ∀ i < w₀.process.registry.created, number i = number' i) : Linked number' w w₀ where
  valid := linked.valid
  absent := linked.absent
  mirrors := linked.mirrors.congr same
  events := by
    rw [linked.events]
    exact List.map_congr_left fun ev member => same ev (linked.given ev member)
  given := linked.given

theorem Linked.extend_injective (linked : Linked number w w₀) :
    Function.Injective (extend number w.process.registry w₀.process.registry) :=
  fun _ _ same => linked.mirrors.extend_apart same

def ClCommand.registration : ClCommand → Option Registration
  | .createKernel kernelId f buffersIn buffersOut => some (.kernel kernelId f buffersIn buffersOut)
  | .createBuffer flags size kernelsIn kernelsOut bufferId =>
    bufferRegistration flags size kernelsIn kernelsOut bufferId
  | _ => none

/-- A command on A finds the same in both; any numbering will do that is right for the events there are
    before and after it. -/
theorem Linked.lookups (linked : Linked number w w₀)
    (few : w.process.registry.created + command.makes ≤ 2^32)
    (separate : Separate w.process.registry w₀.process (.A, command))
    (context : w₀.process.context = some s₀)
    (old : ∀ i < w₀.process.registry.created, number i = number' i)
    (agree : ∀ r answer after, command.registration = some r →
      w₀.process.registry.register r = some (answer, after) →
      ∀ i < after.created, extend number w.process.registry w₀.process.registry i = number' i) :
    ∃ s, w.process.context = some s ∧ lookups s (w.events .A) command =
      (lookups s₀ (w₀.events .A) command).map (Found.renumber number') := by
  obtain ⟨valid₀, rfl⟩ := context_some context
  have valid : w.process.context = some w.process.registry := by
    rw [Process.context, if_pos (linked.valid valid₀)]
  obtain ⟨kernels, buffers⟩ := separate
  by_cases nothing : command.makes = 0
  · have renumbered := linked.congr old
    rw [renumbered.events]
    exact ⟨_, valid, renumbered.mirrors.lookups nothing renumbered.given kernels buffers⟩
  · refine ⟨_, valid, ?_⟩
    cases command with
    | createKernel kernelId f buffersIn buffersOut =>
      exact linked.mirrors.lookups_kernel few (kernels kernelId List.mem_cons_self) fun answer after =>
        agree _ answer after rfl
    | createBuffer flags size kernelsIn kernelsOut bufferId =>
      exact linked.mirrors.lookups_buffer few (buffers bufferId List.mem_cons_self) agree
    | _ => exact absurd rfl nothing

theorem Linked.give {ev : Nat} (linked : Linked number w w₀) (mine : ev < w₀.process.registry.created) :
    Linked number (w.give .A (number ev)) (w₀.give .A ev) where
  valid := linked.valid
  absent := linked.absent
  mirrors := linked.mirrors
  events := by simp [Clients.give, linked.events]
  given ev' member := by
    simp only [Clients.give, Function.update_self] at member
    rcases List.mem_append.mp member with before | now
    · exact linked.given ev' before
    · exact List.mem_singleton.mp now ▸ mine

/-- The lookups of the other client, and what it is given. -/
theorem Linked.give_other {ev : Nat} (linked : Linked number w w₀) : Linked number (w.give .B ev) w₀ where
  valid := linked.valid
  absent := linked.absent
  mirrors := linked.mirrors
  events := linked.events
  given := linked.given

/-- A context is made or deleted, and A has nothing afterwards. -/
theorem Linked.void {p p₀ : Process} (linked : Linked number w w₀)
    (valid : p₀.cxt = .valid → p.cxt = .valid)
    (absent : p₀.cxt ≠ .valid → p₀.registry = .empty p₀.registry.created)
    (empty : p.registry = .empty w.process.registry.created)
    (created : p₀.registry.created = w₀.process.registry.created) (vacant : Vacant p₀.registry) :
    Linked number { w with process := p } { w₀ with process := p₀ } where
  valid := valid
  absent := absent
  mirrors := by
    rw [empty]
    exact linked.mirrors.void created vacant
  events := linked.events
  given ev member := by
    rw [created]
    exact linked.given ev member

theorem register_some {r : Registration} {p p' : Process} (run : p.register r = some p') :
    p'.cxt = .valid ∧ ∃ answer, p.registry.register r = some (answer, p'.registry) := by
  obtain ⟨s, valid, run⟩ := Option.bind_eq_some_iff.mp run
  obtain ⟨⟨answer, after⟩, registered, run⟩ := Option.bind_eq_some_iff.mp run
  cases run
  obtain ⟨present, rfl⟩ := context_some valid
  exact ⟨present, answer, registered⟩

/-- A command that registers something leaves the process that the registration leaves. -/
theorem step_registration {c : Client} {r : Registration} (run : w.step (c, command) = some w')
    (registers : command.registration = some r) :
    ∃ p, w.process.register r = some p ∧ w' = { w with process := p } := by
  cases command with
  | createKernel kernelId f buffersIn buffersOut =>
    cases registers
    obtain ⟨p, registered, run⟩ := Option.bind_eq_some_iff.mp run
    obtain ⟨_, _, run⟩ := Option.bind_eq_some_iff.mp run
    cases run
    exact ⟨p, registered, rfl⟩
  | createBuffer flags size kernelsIn kernelsOut bufferId =>
    obtain ⟨r', given, run⟩ := Option.bind_eq_some_iff.mp run
    obtain rfl := Option.some.inj (given.symm.trans registers)
    obtain ⟨p, registered, run⟩ := Option.bind_eq_some_iff.mp run
    obtain ⟨_, _, run⟩ := Option.bind_eq_some_iff.mp run
    cases run
    exact ⟨p, registered, rfl⟩
  | _ => cases registers

theorem Linked.register {r : Registration} {p p₀ : Process} (linked : Linked number w w₀)
    (both : Option.Rel (fun p p₀ =>
        Mirrors (extend number w.process.registry w₀.process.registry) p.2 p₀.2)
      (w.process.registry.register r) (w₀.process.registry.register r))
    (run : w.process.register r = some p) (run₀ : w₀.process.register r = some p₀) :
    Linked (extend number w.process.registry w₀.process.registry) { w with process := p }
      { w₀ with process := p₀ } := by
  obtain ⟨present, answer, registered⟩ := register_some run
  obtain ⟨present₀, answer₀, registered₀⟩ := register_some run₀
  have grown := (register_enlarged registered₀).created
  rw [registered, registered₀] at both
  cases both with
  | some mirrors =>
    constructor
    · exact fun _ => present
    · exact fun absent => absurd present₀ absent
    · exact mirrors
    · change w.events .A = _
      rw [linked.events]
      exact List.map_congr_left fun ev member => (extend_old (linked.given ev member)).symm
    · intro ev member
      have before := linked.given ev member
      change ev < p₀.registry.created
      omega

theorem init_some {p p' : Process} {applicationName recipe : String}
    (run : p.init applicationName recipe = some p') :
    p' = { p with cxt := .valid, registry := .empty p.registry.created } := by
  rw [Process.init] at run
  split at run
  · cases run
  · exact (Option.some.inj run).symm

theorem release_some {p p' : Process} (run : p.release = some p') :
    p.cxt = .null ∧ p' = p ∨
      p.cxt = .valid ∧ p' = { p with cxt := .dangling, registry := .empty p.registry.created } := by
  rw [Process.release] at run
  split at run
  · next absent => exact .inl ⟨absent, (Option.some.inj run).symm⟩
  · next present => exact .inr ⟨present, (Option.some.inj run).symm⟩
  · cases run

theorem Linked.createContext {processName recipe : String} (linked : Linked number w w₀)
    (run : w.step (.A, .createContext processName recipe) = some w')
    (run₀ : w₀.step (.A, .createContext processName recipe) = some w₀') : Linked number w' w₀' := by
  obtain ⟨p, done, rfl⟩ := Option.map_eq_some_iff.mp run
  obtain ⟨p₀, done₀, rfl⟩ := Option.map_eq_some_iff.mp run₀
  obtain rfl := init_some done
  obtain rfl := init_some done₀
  exact linked.void (fun _ => rfl) (fun absent => absurd rfl absent) rfl rfl (vacant_empty _)

theorem Linked.releaseContext (linked : Linked number w w₀)
    (run : w.step (.A, .releaseContext) = some w') (run₀ : w₀.step (.A, .releaseContext) = some w₀') :
    Linked number w' w₀' := by
  obtain ⟨p, done, rfl⟩ := Option.map_eq_some_iff.mp run
  obtain ⟨p₀, done₀, rfl⟩ := Option.map_eq_some_iff.mp run₀
  rcases release_some done₀ with ⟨null₀, rfl⟩ | ⟨valid₀, rfl⟩
  · have empty := linked.absent (by rw [null₀]; decide)
    rcases release_some done with ⟨_, rfl⟩ | ⟨_, rfl⟩
    · exact linked
    · apply linked.void _ linked.absent rfl rfl
      · rw [empty]
        exact vacant_empty _
      · intro valid₀
        rw [null₀] at valid₀
        cases valid₀
  · have valid := linked.valid valid₀
    rcases release_some done with ⟨null, _⟩ | ⟨_, rfl⟩
    · cases valid.symm.trans null
    · exact linked.void (fun gone => nomatch gone) (fun _ => rfl) rfl rfl (vacant_empty _)

theorem Linked.createKernel {kernelId : Nat} {f : KernelFunction} {buffersIn buffersOut : List Nat}
    (linked : Linked number w w₀) (few : w.process.registry.created + 4 ≤ 2^32)
    (own : (w.process.registry.getKernel kernelId).isSome → (w₀.process.registry.getKernel kernelId).isSome)
    (run : w.step (.A, .createKernel kernelId f buffersIn buffersOut) = some w')
    (run₀ : w₀.step (.A, .createKernel kernelId f buffersIn buffersOut) = some w₀') :
    Linked (extend number w.process.registry w₀.process.registry) w' w₀' := by
  obtain ⟨p, registered, rfl⟩ := step_registration run rfl
  obtain ⟨p₀, registered₀, rfl⟩ := step_registration run₀ rfl
  have both := linked.mirrors.registerKernel f buffersIn buffersOut few own
  exact linked.register (rel_weaken both fun _ _ related => related.1) registered registered₀

theorem Linked.createBuffer {flags size bufferId : Nat} {kernelsIn kernelsOut : List Nat}
    (linked : Linked number w w₀) (few : w.process.registry.created + 1 ≤ 2^32)
    (own : (w.process.registry.getBuffer bufferId).isSome → (w₀.process.registry.getBuffer bufferId).isSome)
    (run : w.step (.A, .createBuffer flags size kernelsIn kernelsOut bufferId) = some w')
    (run₀ : w₀.step (.A, .createBuffer flags size kernelsIn kernelsOut bufferId) = some w₀') :
    Linked (extend number w.process.registry w₀.process.registry) w' w₀' := by
  obtain ⟨r, given, _⟩ := Option.bind_eq_some_iff.mp run
  obtain ⟨p, registered, rfl⟩ := step_registration run given
  obtain ⟨p₀, registered₀, rfl⟩ := step_registration run₀ given
  obtain ⟨lists, rfl⟩ := bufferRegistration_memory given
  have both := linked.mirrors.registerMemory size .BUFFER lists.1 lists.2 few own
  exact linked.register (rel_weaken both fun _ _ related => related.1) registered registered₀

theorem Linked.releaseMemObject {buffer : Nat} (linked : Linked number w w₀)
    (run : w.step (.A, .releaseMemObject buffer) = some w')
    (run₀ : w₀.step (.A, .releaseMemObject buffer) = some w₀') : Linked number w' w₀' := by
  obtain ⟨p, done, rfl⟩ := Option.map_eq_some_iff.mp run
  obtain ⟨s, valid, done⟩ := Option.bind_eq_some_iff.mp done
  obtain ⟨after, removed, done⟩ := Option.bind_eq_some_iff.mp done
  cases done
  obtain ⟨present, rfl⟩ := context_some valid
  obtain ⟨p₀, done₀, rfl⟩ := Option.map_eq_some_iff.mp run₀
  obtain ⟨s₀, valid₀, done₀⟩ := Option.bind_eq_some_iff.mp done₀
  obtain ⟨after₀, removed₀, done₀⟩ := Option.bind_eq_some_iff.mp done₀
  cases done₀
  obtain ⟨present₀, rfl⟩ := context_some valid₀
  have mirrors := linked.mirrors.deregister removed removed₀
  obtain ⟨_, _, rfl⟩ := Registry.deregisterBuffer_some removed₀
  exact ⟨fun _ => present, fun absent => absurd present₀ absent, mirrors, linked.events, linked.given⟩

/-- Both give A the event of its buffer. -/
theorem Linked.giveBuffer {buffer : Nat} {b b₀ : Buffer} (linked : Linked number w w₀)
    (found : w.process.registry.getBuffer buffer = some b)
    (found₀ : w₀.process.registry.getBuffer buffer = some b₀) :
    Linked number (w.give .A b.event.id) (w₀.give .A b₀.event.id) := by
  obtain ⟨same, mine⟩ := linked.mirrors.buffers buffer b₀ found₀
  have equal : b = renumberBuffer number b₀ := Option.some.inj (found.symm.trans same)
  rw [equal]
  exact linked.give mine

theorem Linked.giveKernel {kernel : Nat} {k k₀ : Kernel} (linked : Linked number w w₀)
    (found : w.process.registry.getKernel kernel = some k)
    (found₀ : w₀.process.registry.getKernel kernel = some k₀) :
    Linked number (w.give .A k.terminationEvent.id) (w₀.give .A k₀.terminationEvent.id) := by
  obtain ⟨same, mine⟩ := linked.mirrors.kernels kernel k₀ found₀
  have equal : k = renumberKernel number k₀ := Option.some.inj (found.symm.trans same)
  rw [equal]
  exact linked.give (mine _ List.mem_cons_self)

variable {c : Client}

theorem setEventArg_gives {kernel buffer : Nat} (run : w.setEventArg c kernel buffer = some w') :
    ∃ b, w.process.registry.getBuffer buffer = some b ∧ w' = w.give c b.event.id := by
  obtain ⟨s, valid, run⟩ := Option.bind_eq_some_iff.mp run
  obtain ⟨_, rfl⟩ := context_some valid
  obtain ⟨ev, event, run⟩ := Option.bind_eq_some_iff.mp run
  obtain ⟨_, _, run⟩ := Option.bind_eq_some_iff.mp run
  obtain ⟨_, _, run⟩ := Option.bind_eq_some_iff.mp run
  cases run
  obtain ⟨b, found, rfl, _⟩ := mangoGetBufferEvent_some event
  exact ⟨b, found, rfl⟩

theorem mangoStartKernel_some {cxt : Context} {kernel event : Nat} {args : Option (List Arg)}
    {started : Kernel × Event × List Arg}
    (run : (mangoStartKernel cxt kernel args event).toOption = some started) :
    cxt.kernels[kernel]? = some started.1 := by
  rcases found : cxt.kernels[kernel]? with _ | k
  · simp [mangoStartKernel, found, Except.toOption] at run
  · rcases known : cxt.events[event]? with _ | e
    · simp [mangoStartKernel, found, known, Except.toOption] at run
    · rcases args with _ | args
      · simp [mangoStartKernel, found, known, Except.toOption] at run
      · simp only [mangoStartKernel, found, known, Except.toOption, Option.some.injEq] at run
        rw [← run]

theorem enqueueTask_gives {kernel : Nat} (run : w.enqueueTask c kernel = some w') :
    ∃ k, w.process.registry.getKernel kernel = some k ∧ w' = w.give c k.terminationEvent.id := by
  obtain ⟨s, valid, run⟩ := Option.bind_eq_some_iff.mp run
  obtain ⟨_, rfl⟩ := context_some valid
  obtain ⟨⟨k, _⟩, started, run⟩ := Option.bind_eq_some_iff.mp run
  cases run
  exact ⟨k, mangoStartKernel_some started, rfl⟩

theorem enqueueWriteBuffer_gives {data : Nat → Nat} {buffer : Nat}
    (run : w.enqueueWriteBuffer c data buffer = some w') :
    ∃ b, w.process.registry.getBuffer buffer = some b ∧ w' = w.give c b.event.id := by
  obtain ⟨s, valid, run⟩ := Option.bind_eq_some_iff.mp run
  obtain ⟨_, rfl⟩ := context_some valid
  obtain ⟨⟨b, _⟩, given, run⟩ := Option.bind_eq_some_iff.mp run
  cases run
  exact ⟨b, (mangoWrite_some given).1, rfl⟩

theorem enqueueReadBuffer_gives {buffer : Nat} (run : w.enqueueReadBuffer c buffer = some w') :
    ∃ b, w.process.registry.getBuffer buffer = some b ∧ w' = w.give c b.event.id := by
  obtain ⟨s, valid, run⟩ := Option.bind_eq_some_iff.mp run
  obtain ⟨_, rfl⟩ := context_some valid
  obtain ⟨⟨b, _⟩, given, run⟩ := Option.bind_eq_some_iff.mp run
  cases run
  exact ⟨b, (mangoRead_some given).1, rfl⟩

theorem setScalarArg_same {kernel : Nat} (run : w.step (c, .setScalarArg kernel) = some w') :
    w' = w := by
  obtain ⟨_, _, run⟩ := Option.bind_eq_some_iff.mp run
  obtain ⟨_, _, run⟩ := Option.bind_eq_some_iff.mp run
  exact (Option.some.inj run).symm

theorem setBufferArg_same {kernel buffer : Nat} (run : w.setBufferArg kernel buffer = some w') : w' = w := by
  obtain ⟨_, _, run⟩ := Option.bind_eq_some_iff.mp run
  obtain ⟨_, _, run⟩ := Option.bind_eq_some_iff.mp run
  obtain ⟨_, _, run⟩ := Option.bind_eq_some_iff.mp run
  exact (Option.some.inj run).symm

theorem waitForEvent_same {place : Nat} (run : w.waitForEvent c place = some w') : w' = w := by
  obtain ⟨_, _, run⟩ := Option.bind_eq_some_iff.mp run
  obtain ⟨_, _, run⟩ := Option.bind_eq_some_iff.mp run
  obtain ⟨_, _, run⟩ := Option.bind_eq_some_iff.mp run
  exact (Option.some.inj run).symm

theorem step_quiet_created (nothing : command.makes = 0) (run : w.step (c, command) = some w') :
    w'.process.registry.created = w.process.registry.created := by
  cases command with
  | createContext processName recipe =>
    obtain ⟨p, done, rfl⟩ := Option.map_eq_some_iff.mp run
    obtain rfl := init_some done
    rfl
  | releaseContext =>
    obtain ⟨p, done, rfl⟩ := Option.map_eq_some_iff.mp run
    rcases release_some done with ⟨_, rfl⟩ | ⟨_, rfl⟩ <;> rfl
  | createKernel kernelId f buffersIn buffersOut => cases nothing
  | createBuffer flags size kernelsIn kernelsOut bufferId => cases nothing
  | releaseMemObject buffer =>
    obtain ⟨p, done, rfl⟩ := Option.map_eq_some_iff.mp run
    obtain ⟨s, valid, done⟩ := Option.bind_eq_some_iff.mp done
    obtain ⟨after, removed, done⟩ := Option.bind_eq_some_iff.mp done
    cases done
    obtain ⟨_, rfl⟩ := context_some valid
    obtain ⟨_, _, rfl⟩ := Registry.deregisterBuffer_some removed
    rfl
  | setScalarArg kernel => rw [setScalarArg_same run]
  | setBufferArg kernel buffer => rw [setBufferArg_same run]
  | setEventArg kernel buffer =>
    obtain ⟨_, _, rfl⟩ := setEventArg_gives run
    rfl
  | enqueueTask kernel =>
    obtain ⟨_, _, rfl⟩ := enqueueTask_gives run
    rfl
  | enqueueWriteBuffer data buffer =>
    obtain ⟨_, _, rfl⟩ := enqueueWriteBuffer_gives run
    rfl
  | enqueueReadBuffer buffer =>
    obtain ⟨_, _, rfl⟩ := enqueueReadBuffer_gives run
    rfl
  | waitForEvent place => rw [waitForEvent_same run]

theorem step_created (run : w.step (c, command) = some w') :
    w.process.registry.created ≤ w'.process.registry.created := by
  by_cases nothing : command.makes = 0
  · exact (step_quiet_created nothing run).ge
  · obtain ⟨r, registers⟩ : ∃ r, command.registration = some r := by
      cases command with
      | createKernel => exact ⟨_, rfl⟩
      | createBuffer =>
        obtain ⟨r, given, _⟩ := Option.bind_eq_some_iff.mp run
        exact ⟨r, given⟩
      | _ => exact absurd rfl nothing
    obtain ⟨p, registered, rfl⟩ := step_registration run registers
    obtain ⟨_, answer, registered⟩ := register_some registered
    have grown := (register_enlarged registered).created
    change _ ≤ p.registry.created
    omega

theorem Linked.step_quiet (linked : Linked number w w₀) (nothing : command.makes = 0)
    (run : w.step (.A, command) = some w') (run₀ : w₀.step (.A, command) = some w₀') :
    Linked number w' w₀' := by
  cases command with
  | createContext processName recipe => exact linked.createContext run run₀
  | releaseContext => exact linked.releaseContext run run₀
  | createKernel kernelId f buffersIn buffersOut => cases nothing
  | createBuffer flags size kernelsIn kernelsOut bufferId => cases nothing
  | releaseMemObject buffer => exact linked.releaseMemObject run run₀
  | setScalarArg kernel =>
    rw [setScalarArg_same run, setScalarArg_same run₀]
    exact linked
  | setBufferArg kernel buffer =>
    rw [setBufferArg_same run, setBufferArg_same run₀]
    exact linked
  | setEventArg kernel buffer =>
    obtain ⟨b, found, rfl⟩ := setEventArg_gives run
    obtain ⟨b₀, found₀, rfl⟩ := setEventArg_gives run₀
    exact linked.giveBuffer found found₀
  | enqueueTask kernel =>
    obtain ⟨k, found, rfl⟩ := enqueueTask_gives run
    obtain ⟨k₀, found₀, rfl⟩ := enqueueTask_gives run₀
    exact linked.giveKernel found found₀
  | enqueueWriteBuffer data buffer =>
    obtain ⟨b, found, rfl⟩ := enqueueWriteBuffer_gives run
    obtain ⟨b₀, found₀, rfl⟩ := enqueueWriteBuffer_gives run₀
    exact linked.giveBuffer found found₀
  | enqueueReadBuffer buffer =>
    obtain ⟨b, found, rfl⟩ := enqueueReadBuffer_gives run
    obtain ⟨b₀, found₀, rfl⟩ := enqueueReadBuffer_gives run₀
    exact linked.giveBuffer found found₀
  | waitForEvent place =>
    rw [waitForEvent_same run, waitForEvent_same run₀]
    exact linked

/-- A command on A leaves both linked, with new numbers for what it registers. -/
theorem Linked.step_A (linked : Linked number w w₀)
    (few : w.process.registry.created + command.makes ≤ 2^32)
    (separate : Separate w.process.registry w₀.process (.A, command))
    (run : w.step (.A, command) = some w') (run₀ : w₀.step (.A, command) = some w₀') :
    Linked (extend number w.process.registry w₀.process.registry) w' w₀' := by
  obtain ⟨kernels, buffers⟩ := separate
  by_cases nothing : command.makes = 0
  · have created := step_quiet_created nothing run₀
    exact (linked.step_quiet nothing run run₀).congr fun i below => (extend_old (created ▸ below)).symm
  · cases command with
    | createKernel kernelId f buffersIn buffersOut =>
      exact linked.createKernel few (kernels kernelId List.mem_cons_self) run run₀
    | createBuffer flags size kernelsIn kernelsOut bufferId =>
      exact linked.createBuffer few (buffers bufferId List.mem_cons_self) run run₀
    | _ => exact absurd rfl nothing

theorem Linked.register_other {r : Registration} {p : Process} (linked : Linked number w w₀)
    (begun : w₀.process.registry.created ≠ 0) (few : w.process.registry.created + OpenCL.makes r ≤ 2^32)
    (run : w.process.register r = some p) : Linked number { w with process := p } w₀ := by
  obtain ⟨present, answer, registered⟩ := register_some run
  exact ⟨fun _ => present, linked.absent, linked.mirrors.other begun few registered, linked.events,
    linked.given⟩

theorem makes_kernel (kernelId : Nat) (f : KernelFunction) (buffersIn buffersOut : List Nat) :
    makes (.kernel kernelId f buffersIn buffersOut) ≤ 4 := by
  rw [makes]
  split <;> omega

/-- A command on B leaves A as it is. -/
theorem Linked.step_B (linked : Linked number w w₀)
    (few : w.process.registry.created + command.makes ≤ 2^32)
    (separate : Separate w.process.registry w₀.process (.B, command))
    (run : w.step (.B, command) = some w') : Linked number w' w₀ := by
  cases command with
  | createContext processName recipe =>
    obtain ⟨p, done, rfl⟩ := Option.map_eq_some_iff.mp run
    obtain rfl := init_some done
    exact linked.void (fun _ => rfl) linked.absent rfl rfl separate
  | releaseContext =>
    obtain ⟨p, done, rfl⟩ := Option.map_eq_some_iff.mp run
    rcases release_some done with ⟨_, rfl⟩ | ⟨_, rfl⟩
    · exact linked
    · have empty := linked.absent separate
      apply linked.void _ linked.absent rfl rfl
      · rw [empty]
        exact vacant_empty _
      · exact fun valid₀ => absurd valid₀ separate
  | createKernel kernelId f buffersIn buffersOut =>
    obtain ⟨p, registered, rfl⟩ := step_registration run rfl
    have made := makes_kernel kernelId f buffersIn buffersOut
    apply linked.register_other separate _ registered
    change _ + 4 ≤ _ at few
    omega
  | createBuffer flags size kernelsIn kernelsOut bufferId =>
    obtain ⟨r, given, _⟩ := Option.bind_eq_some_iff.mp run
    obtain ⟨p, registered, rfl⟩ := step_registration run given
    obtain ⟨lists, rfl⟩ := bufferRegistration_memory given
    apply linked.register_other separate _ registered
    exact few
  | releaseMemObject buffer =>
    obtain ⟨p, done, rfl⟩ := Option.map_eq_some_iff.mp run
    obtain ⟨s, valid, done⟩ := Option.bind_eq_some_iff.mp done
    obtain ⟨after, removed, done⟩ := Option.bind_eq_some_iff.mp done
    cases done
    obtain ⟨present, rfl⟩ := context_some valid
    exact ⟨fun _ => present, linked.absent, linked.mirrors.deregister_other removed separate, linked.events,
      linked.given⟩
  | setScalarArg kernel =>
    rw [setScalarArg_same run]
    exact linked
  | setBufferArg kernel buffer =>
    rw [setBufferArg_same run]
    exact linked
  | setEventArg kernel buffer =>
    obtain ⟨_, _, rfl⟩ := setEventArg_gives run
    exact linked.give_other
  | enqueueTask kernel =>
    obtain ⟨_, _, rfl⟩ := enqueueTask_gives run
    exact linked.give_other
  | enqueueWriteBuffer data buffer =>
    obtain ⟨_, _, rfl⟩ := enqueueWriteBuffer_gives run
    exact linked.give_other
  | enqueueReadBuffer buffer =>
    obtain ⟨_, _, rfl⟩ := enqueueReadBuffer_gives run
    exact linked.give_other
  | waitForEvent place =>
    rw [waitForEvent_same run]
    exact linked

variable {commands : List (Client × ClCommand)}

theorem followed_nil : Followed number [] w w₀ := by
  intro done command rest w' w₀' s₀ split
  simp at split

/-- A numbering serves a run that begins with a command on A if it serves the command and the rest. -/
theorem Linked.followed_A (linked : Linked number w w₀)
    (few : w.process.registry.created + command.makes ≤ 2^32)
    (separate : Separate w.process.registry w₀.process (.A, command))
    (old : ∀ i < w₀.process.registry.created, number i = number' i)
    (agree : ∀ r answer after, command.registration = some r →
      w₀.process.registry.register r = some (answer, after) →
      ∀ i < after.created, extend number w.process.registry w₀.process.registry i = number' i)
    (later : ∀ next next₀, w.step (.A, command) = some next → w₀.step (.A, command) = some next₀ →
      Followed number' commands next next₀) :
    Followed number' ((.A, command) :: commands) w w₀ := by
  intro done command' rest w' w₀' s₀ split run run₀ context
  rcases done with _ | ⟨head, done⟩
  · obtain ⟨same, _⟩ := List.cons.inj split
    cases same
    cases run
    cases run₀
    exact linked.lookups few separate context old agree
  · obtain ⟨same, tail⟩ := List.cons.inj split
    subst same
    obtain ⟨next, one, more⟩ := Option.bind_eq_some_iff.mp run
    obtain ⟨next₀, one₀, more₀⟩ := Option.bind_eq_some_iff.mp run₀
    exact later next next₀ one one₀ done command' rest w' w₀' s₀ tail more more₀ context

theorem followed_B (later : ∀ next, w.step (.B, command) = some next → Followed number commands next w₀) :
    Followed number ((.B, command) :: commands) w w₀ := by
  intro done command' rest w' w₀' s₀ split run run₀ context
  rcases done with _ | ⟨head, done⟩
  · obtain ⟨same, _⟩ := List.cons.inj split
    cases same
  · obtain ⟨same, tail⟩ := List.cons.inj split
    subst same
    obtain ⟨next, one, more⟩ := Option.bind_eq_some_iff.mp run
    exact later next one done command' rest w' w₀' s₀ tail more run₀ context

/-- The numbering is that of the last registration of A: each one extends those before it. -/
theorem Linked.followed (linked : Linked number w w₀) (separated : Separated commands w w₀) :
    ∃ number', Function.Injective number' ∧ (∀ i < w₀.process.registry.created, number i = number' i) ∧
      Followed number' commands w w₀ := by
  induction commands generalizing number w w₀ with
  | nil => exact ⟨_, linked.extend_injective, fun i below => (extend_old below).symm, followed_nil⟩
  | cons first others ih =>
    obtain ⟨few, separate, later⟩ := separated
    obtain ⟨c, command⟩ := first
    cases c with
    | A =>
      by_cases both : ∃ next next₀, w.step (.A, command) = some next ∧ w₀.step (.A, command) = some next₀
      · obtain ⟨next, next₀, one, one₀⟩ := both
        obtain ⟨number', injective, same, followed⟩ :=
          ih (linked.step_A few separate one one₀) (later next next₀ one one₀)
        have grown := step_created one₀
        have old : ∀ i < w₀.process.registry.created, number i = number' i :=
          fun i below => (extend_old below).symm.trans (same i (by omega))
        refine ⟨number', injective, old, linked.followed_A few separate old ?_ ?_⟩
        · intro r answer after registers registered
          obtain ⟨p, made, rfl⟩ := step_registration one₀ registers
          obtain ⟨_, _, registered'⟩ := register_some made
          cases registered.symm.trans registered'
          exact same
        · intro next' next₀' one' one₀'
          obtain rfl := Option.some.inj (one.symm.trans one')
          obtain rfl := Option.some.inj (one₀.symm.trans one₀')
          exact followed
      · -- one of the runs ends here
        refine ⟨_, linked.extend_injective, fun i below => (extend_old below).symm, ?_⟩
        exact linked.followed_A few separate (fun i below => (extend_old below).symm)
          (fun _ _ _ _ _ _ _ => rfl) fun next next₀ one one₀ => absurd ⟨next, next₀, one, one₀⟩ both
    | B =>
      rcases one : w.step (.B, command) with _ | next
      · refine ⟨_, linked.extend_injective, fun i below => (extend_old below).symm, followed_B ?_⟩
        intro next one'
        cases one.symm.trans one'
      · obtain ⟨number', injective, same, followed⟩ :=
          ih (linked.step_B few separate one) (later next w₀ one rfl)
        refine ⟨number', injective, same, followed_B ?_⟩
        intro next' one'
        obtain rfl := Option.some.inj (one.symm.trans one')
        exact followed

/-- Two contexts do not interfere in a run in which A is first to create objects and uses no id that
    only B has, B creates its context while A has no objects and releases it while A has no context,
    and releases no buffer with an id of A's. -/
theorem contexts_undisturbed (separated : Separated commands .start .start) : Undisturbed commands := by
  obtain ⟨number, injective, _, followed⟩ := linked_start.followed separated
  exact ⟨number, injective, followed⟩

theorem separated_cons {command : Client × ClCommand} {rest : List (Client × ClCommand)}
    (step : w.step command = some w')
    (step₀ : (if command.1 = .A then w₀.step command else some w₀) = some w₀')
    (few : w.process.registry.created + command.2.makes ≤ 2^32)
    (separate : Separate w.process.registry w₀.process command) (later : Separated rest w' w₀') :
    Separated (command :: rest) w w₀ := by
  refine ⟨few, separate, ?_⟩
  intro next next₀ one one₀
  obtain rfl := Option.some.inj (step.symm.trans one)
  obtain rfl := Option.some.inj (step₀.symm.trans one₀)
  exact later

/-- Both contexts are created before their kernels, and A's kernel is started after B's is there. -/
def sideBySide : List (Client × ClCommand) :=
  [(.B, .createContext "b" "recipe"), (.A, .createContext "a" "recipe"),
    (.A, .createKernel 1 oneKernel [] []), (.B, .createKernel 2 oneKernel [] []), (.A, .enqueueTask 1)]

theorem contexts_undisturbed_sideBySide : (sideBySide.foldlM Clients.step .start).isSome ∧
    Undisturbed sideBySide := by
  constructor
  · decide
  · apply contexts_undisturbed
    apply separated_cons rfl rfl
    · decide
    · exact vacant_empty 0
    apply separated_cons rfl rfl
    · decide
    · exact ⟨fun _ member => (List.not_mem_nil member).elim, fun _ member => (List.not_mem_nil member).elim⟩
    apply separated_cons rfl rfl
    · decide
    · constructor <;> decide
    apply separated_cons rfl rfl
    · decide
    · exact Nat.noConfusion
    apply separated_cons rfl rfl
    · decide
    · constructor <;> decide
    exact trivial

/-- B is created when A has a kernel. -/
def oneInTheOther : List (Client × ClCommand) :=
  [(.A, .createContext "a" "recipe"), (.A, .createKernel 1 oneKernel [] []),
    (.B, .createContext "b" "recipe"), (.A, .enqueueTask 1)]

/-- A's kernel is in the context that B's has replaced. -/
theorem disturbed_oneInTheOther : ¬ Undisturbed oneInTheOther := by
  rintro ⟨number, _, followed⟩
  obtain ⟨s, valid, same⟩ :=
    followed (oneInTheOther.take 3) (.enqueueTask 1) [] _ _ _ rfl rfl rfl rfl
  obtain rfl := Option.some.inj valid
  have kernels := Found.kernel.inj (List.cons.inj same).1
  have found := congrArg Option.isSome kernels
  rw [Option.isSome_map] at found
  exact absurd found (by decide)

end Runs

end MangoModel.OpenCL
