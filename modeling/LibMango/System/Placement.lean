import LibMango.Host.EventRegisters
import LibMango.System.Deployment

namespace MangoModel.System

open Host Device OpenCL Interleave Simulation Layout

section Cells

/-- The memories of all tiles as one, and the registers of all clusters. -/
def cells (m : DeviceMemory) (c : Nat × Nat × Nat) : Nat := m c.1 c.2.1 c.2.2

def slots (regs : Registers) (r : Nat × Nat) : Nat := regs r.1 r.2

theorem cells_store (m : DeviceMemory) (cluster tile addr byte : Nat) :
    cells (m.store cluster tile addr byte) = Function.update (cells m) (cluster, tile, addr) byte := by
  funext ⟨c, t, a⟩
  by_cases same : c = cluster ∧ t = tile ∧ a = addr
  · obtain ⟨rfl, rfl, rfl⟩ := same
    simp [cells, DeviceMemory.store]
  · rw [Function.update_of_ne (by simpa using same)]
    simp [cells, DeviceMemory.store, same]

theorem slots_write (regs : Registers) (cluster addr value : Nat) :
    slots (regs.write cluster addr value) = Function.update (slots regs) (cluster, addr) value := by
  funext ⟨c, a⟩
  by_cases same : c = cluster ∧ a = addr
  · obtain ⟨rfl, rfl⟩ := same
    simp [slots, Registers.write_get]
  · rw [Function.update_of_ne (by simpa using same)]
    simp [slots, Registers.write_get, same]

end Cells

section Transfers

variable {b : Buffer} {data : Nat → Nat} {m : DeviceMemory}

theorem cells_written_inside {j : Nat} (below : j < b.size) :
    cells (written b data b.size m) (b.clusterId, b.memTile, b.phyAddr + j) = data j :=
  written_in b data b.size m below

theorem cells_written_outside {c : Nat × Nat × Nat}
    (apart : ∀ j < b.size, (b.clusterId, b.memTile, b.phyAddr + j) ≠ c) :
    cells (written b data b.size m) c = cells m c := by
  apply written_outside b data b.size m (Nat.le_refl _)
  rintro ⟨cluster, tile, lower, upper⟩
  refine apart (c.2.2 - b.phyAddr) (by omega) ?_
  rw [← cluster, ← tile, Nat.add_sub_cancel' lower]

/-- Bytes that a transfer to the host has not come to stay what they were. -/
theorem copyBytes_alone (host : Nat → Nat) (cluster tile addr j left : Nat) :
    ∃ after : Nat → Nat, (copyBytes addr 0 j left (fun _ => .ret default)).alone (receiveExec cluster tile)
        (2 * left) ⟨m, host⟩ = some ⟨m, after⟩ ∧
      (∀ i < left, after (j + i) = m cluster tile (addr + (j + i))) ∧ ∀ i < j, after i = host i := by
  induction left generalizing j host with
  | zero => exact ⟨host, rfl, fun i below => absurd below (Nat.not_lt_zero i), fun _ _ => rfl⟩
  | succ left ih =>
    obtain ⟨after, run, inside, before⟩ :=
      ih (Function.update host (0 + j) (m cluster tile (addr + j))) (j + 1)
    refine ⟨after, run, fun i below => ?_, fun i below => ?_⟩
    · rcases Nat.eq_zero_or_pos i with zero | positive
      · rw [zero, Nat.add_zero, before j (Nat.lt_succ_self j), Nat.zero_add, Function.update_self]
      · have place : j + i = j + 1 + (i - 1) := by omega
        rw [place]
        exact inside (i - 1) (by omega)
    · rw [before i (Nat.lt_succ_of_lt below), Function.update_of_ne (by omega)]

theorem hnReadMemory_run (b : Buffer) (m : DeviceMemory) : ∃ after : Nat → Nat,
    (hnReadMemory b.phyAddr b.size 0).call.alone (receiveExec b.clusterId b.memTile) (2 * b.size)
        ⟨m, fun _ => 0⟩ = some ⟨m, after⟩ ∧
      ∀ j < b.size, after j = cells m (b.clusterId, b.memTile, b.phyAddr + j) := by
  obtain ⟨after, run, inside, _⟩ := copyBytes_alone (fun _ => 0) b.clusterId b.memTile b.phyAddr 0 b.size
  refine ⟨after, run, fun j below => ?_⟩
  have byte := inside j below
  rw [Nat.zero_add] at byte
  exact byte

end Transfers

section Placement

/-- Where the buffers of an application are in the hardware. -/
def bufferWindows (p : Application) (cxt : Context) : Windows Nat (Nat × Nat × Nat) where
  size id := match p.buffer id with
    | some b => b.size
    | none => 0
  cell id j := match cxt.buffers[id]? with
    | some b => (b.clusterId, b.memTile, b.phyAddr + j)
    | none => (0, 0, j)

/-- Where its events are: each has one register. -/
def eventWindows (p : Application) (cxt : Context) : Windows Nat (Nat × Nat) where
  size id := match p.event id with
    | some _ => 1
    | none => 0
  cell id _ := match cxt.events[id]? with
    | some e => (e.clusterId, e.phyAddr)
    | none => (0, 0)

def Shows (p : Application) (cxt : Context) (s : Contents) (h : Hardware) : Prop :=
  (bufferWindows p cxt).Shows (cells h.memory) s.arrays ∧
    (eventWindows p cxt).Shows (slots h.regs) fun id _ => s.values id

/-- The platform has every buffer and every event of the application at a place of its own, and each
    kernel's pointers lead there. -/
structure Placed (p : Application) (f : Platform) : Prop where
  buffers : ∀ id b, p.buffer id = some b → ∃ b', f.cxt.buffers[id]? = some b' ∧ b'.bare = b.bare
  events : ∀ id e, p.event id = some e → ∃ e', f.cxt.events[id]? = some e'
  memory : (bufferWindows p f.cxt).Separate
  registers : (eventWindows p f.cxt).Separate
  pointers : ∀ kid j b, p.parameter kid j = some b → ∀ offset < b.size,
    f.memoryAt kid j offset = some ((bufferWindows p f.cxt).cell b.id offset)
  deviceEvents : ∀ kid event e, p.deviceEvent kid event = some e →
    f.registerAt kid event = some ((eventWindows p f.cxt).cell e.id 0)

variable {p : Application} {f : Platform} {s s' : Contents} {h : Hardware} {answer : List Nat}

theorem bufferWindows_size {id : Nat} {b : Buffer} (found : p.buffer id = some b) (cxt : Context) :
    (bufferWindows p cxt).size id = b.size := by
  simp only [bufferWindows, found]

theorem eventWindows_size {id : Nat} {e : Event} (found : p.event id = some e) (cxt : Context) :
    (eventWindows p cxt).size id = 1 := by
  simp only [eventWindows, found]

theorem bufferWindows_inside {id j : Nat} {cxt : Context} (inside : j < (bufferWindows p cxt).size id) :
    ∃ b, p.buffer id = some b ∧ j < b.size := by
  cases known : p.buffer id with
  | none =>
    simp only [bufferWindows, known] at inside
    exact absurd inside (Nat.not_lt_zero j)
  | some b =>
    rw [bufferWindows_size known] at inside
    exact ⟨b, rfl, inside⟩

theorem eventWindows_inside {id j : Nat} {cxt : Context} (inside : j < (eventWindows p cxt).size id) :
    ∃ e, p.event id = some e ∧ j < 1 := by
  cases known : p.event id with
  | none =>
    simp only [eventWindows, known] at inside
    exact absurd inside (Nat.not_lt_zero j)
  | some e =>
    rw [eventWindows_size known] at inside
    exact ⟨e, rfl, inside⟩

theorem bufferWindows_cell (cxt : Context) {id j : Nat} {b : Buffer} (found : cxt.buffers[id]? = some b) :
    (bufferWindows p cxt).cell id j = (b.clusterId, b.memTile, b.phyAddr + j) := by
  simp only [bufferWindows, found]

theorem eventWindows_cell (cxt : Context) {id j : Nat} {e : Event} (found : cxt.events[id]? = some e) :
    (eventWindows p cxt).cell id j = (e.clusterId, e.phyAddr) := by
  simp only [eventWindows, found]

theorem Application.buffer_id {id : Nat} {b : Buffer} (found : p.buffer id = some b) : b.id = id := by
  simpa using List.find?_some found

theorem Application.event_id {id : Nat} {e : Event} (found : p.event id = some e) : e.id = id := by
  simpa using List.find?_some found

theorem Application.buffer_self {id : Nat} {b : Buffer} (found : p.buffer id = some b) :
    p.buffer b.id = some b := by
  rw [p.buffer_id found, found]

end Placement

section Steps

variable {p : Application} {f : Platform} {s s' : Contents} {h : Hardware} {answer : List Nat}

theorem bare_fields {b b' : Buffer} (same : b'.bare = b.bare) :
    b'.size = b.size ∧ b'.type = b.type ∧ b'.event.id = b.event.id := by
  have size := congrArg Buffer.size same
  have type := congrArg Buffer.type same
  have event := congrArg (fun b : Buffer => b.event.id) same
  exact ⟨size, type, event⟩

theorem Placed.mangoWrite {buffer : Nat} {data : Nat → Nat} (placed : Placed p f) (shown : Shows p f.cxt s h)
    (run : p.step s (.mangoWrite buffer data) = some (answer, s')) :
    ∃ h', f.step h (.mangoWrite buffer data) = some (answer, h') ∧ Shows p f.cxt s' h' := by
  obtain ⟨b, found, run⟩ := Option.bind_eq_some_iff.mp run
  split at run
  · next plain =>
    cases run
    obtain ⟨b', stored, bare⟩ := placed.buffers buffer b found
    obtain ⟨size, type, event⟩ := bare_fields bare
    have transfer : Host.mangoWrite f.cxt data buffer .DIRECT 0 =
        some (b', hnWriteMemory b'.phyAddr b'.size data) := by
      have kind : b'.type = .BUFFER := by rw [type, plain.1]
      have known : b'.event.id ≠ 0 := by rw [event]; exact plain.2
      simp [Host.mangoWrite, stored, known, Buffer.write, kind, uint32]
    have done := hnWriteMemory_run b' data b'.size h.memory [] 0
    rw [Nat.zero_add] at done
    refine ⟨{ h with memory := written b' data b'.size h.memory }, ?_, ?_, shown.2⟩
    · simp [Platform.step, transfer, done]
    · have own : p.buffer b.id = some b := Application.buffer_self found
      have here : f.cxt.buffers[b.id]? = some b' := by rw [Application.buffer_id found, stored]
      refine shown.1.fill placed.memory data (fun j below => ?_) fun c apart => ?_
      · rw [bufferWindows_size own, ← size] at below
        rw [bufferWindows_cell _ here]
        exact cells_written_inside below
      · refine cells_written_outside fun j below => ?_
        rw [size] at below
        rw [← bufferWindows_cell _ here]
        exact apart j (by rw [bufferWindows_size own]; exact below)
  · cases run

theorem Placed.mangoRead {buffer : Nat} (placed : Placed p f) (shown : Shows p f.cxt s h)
    (run : p.step s (.mangoRead buffer) = some (answer, s')) :
    ∃ h', f.step h (.mangoRead buffer) = some (answer, h') ∧ Shows p f.cxt s' h' := by
  obtain ⟨b, found, run⟩ := Option.bind_eq_some_iff.mp run
  split at run
  · next plain =>
    cases run
    obtain ⟨b', stored, bare⟩ := placed.buffers buffer b found
    obtain ⟨size, type, event⟩ := bare_fields bare
    have transfer : OpenCL.mangoRead f.cxt buffer .DIRECT 0 =
        some (b', hnReadMemory b'.phyAddr b'.size 0) := by
      have kind : b'.type = .BUFFER := by rw [type, plain.1]
      have known : b'.event.id ≠ 0 := by rw [event]; exact plain.2
      simp [OpenCL.mangoRead, stored, known, bufferRead, kind, uint32]
    obtain ⟨after, done, bytes⟩ := hnReadMemory_run b' h.memory
    refine ⟨h, ?_, shown⟩
    have same : (List.range b'.size).map after = (List.range b.size).map (s.arrays b.id) := by
      rw [size]
      apply List.map_congr_left
      intro j member
      have below := List.mem_range.mp member
      have own : p.buffer b.id = some b := Application.buffer_self found
      have here : f.cxt.buffers[b.id]? = some b' := by rw [Application.buffer_id found, stored]
      rw [bytes j (by omega), ← bufferWindows_cell _ here]
      exact shown.1 b.id j (by rw [bufferWindows_size own]; exact below)
    simp [Platform.step, transfer, done, same]
  · cases run

theorem Shows.byte (shown : Shows p f.cxt s h) {b : Buffer} (own : p.buffer b.id = some b) {offset : Nat}
    (inside : offset < b.size) :
    h.loadByte ((bufferWindows p f.cxt).cell b.id offset) = s.arrays b.id offset :=
  shown.1 b.id offset (by rw [bufferWindows_size own]; exact inside)

/-- A byte that is stored changes its buffer there, and no other byte of a buffer. -/
theorem Shows.stored (placed : Placed p f) (shown : Shows p f.cxt s h) {b : Buffer}
    (own : p.buffer b.id = some b) {offset : Nat} (inside : offset < b.size) (byte : Nat) :
    Shows p f.cxt { s with arrays := Windows.put s.arrays b.id offset byte }
      (h.storeByte ((bufferWindows p f.cxt).cell b.id offset) byte) := by
  refine ⟨?_, shown.2⟩
  rw [Hardware.storeByte, cells_store]
  exact shown.1.put placed.memory (by rw [bufferWindows_size own]; exact inside) byte

/-- A register that is written takes the new value, and no other event has another value. -/
theorem Shows.register (placed : Placed p f) (shown : Shows p f.cxt s h) {e : Event}
    (found : p.event e.id = some e) (value : Nat) :
    Shows p f.cxt { s with values := Function.update s.values e.id value }
      ⟨h.memory, h.regs.write ((eventWindows p f.cxt).cell e.id 0).1
        ((eventWindows p f.cxt).cell e.id 0).2 value⟩ := by
  refine ⟨shown.1, ?_⟩
  have inside : 0 < (eventWindows p f.cxt).size e.id := by
    rw [eventWindows_size found]
    exact Nat.one_pos
  have stored := shown.2.put placed.registers inside value
  rw [← slots_write] at stored
  intro id j below
  rw [stored id j below]
  by_cases same : id = e.id
  · subst same
    have first : j = 0 := by
      rw [eventWindows_size found] at below
      omega
    simp [Windows.put, first]
  · simp [Windows.put, same]

theorem Shows.value (shown : Shows p f.cxt s h) {e : Event} (found : p.event e.id = some e) :
    h.regs ((eventWindows p f.cxt).cell e.id 0).1 ((eventWindows p f.cxt).cell e.id 0).2 = s.values e.id := by
  have inside : 0 < (eventWindows p f.cxt).size e.id := by
    rw [eventWindows_size found]
    exact Nat.one_pos
  exact shown.2 e.id 0 inside

theorem Placed.host_event {id : Nat} {e : Event} (placed : Placed p f) (found : p.event id = some e) :
    ∃ e', f.cxt.events[id]? = some e' ∧ e'.clusterId = ((eventWindows p f.cxt).cell e.id 0).1 ∧
      e'.phyAddr = ((eventWindows p f.cxt).cell e.id 0).2 := by
  obtain ⟨e', stored⟩ := placed.events id e found
  refine ⟨e', stored, ?_⟩
  rw [eventWindows_cell _ (by rw [Application.event_id found, stored])]
  exact ⟨rfl, rfl⟩

theorem Placed.host_buffer {id : Nat} {b : Buffer} (placed : Placed p f) (found : p.buffer id = some b)
    (offset : Nat) : ∃ b', f.cxt.buffers[id]? = some b' ∧
      (bufferWindows p f.cxt).cell b.id offset = (b'.clusterId, b'.memTile, b'.phyAddr + offset) := by
  obtain ⟨b', stored, _⟩ := placed.buffers id b found
  refine ⟨b', stored, ?_⟩
  rw [bufferWindows_cell _ (by rw [Application.buffer_id found, stored])]

theorem Application.event_self {id : Nat} {e : Event} (found : p.event id = some e) :
    p.event e.id = some e := by
  rw [p.event_id found, found]

theorem Application.parameter_self {kid j : Nat} {b : Buffer} (found : p.parameter kid j = some b) :
    p.buffer b.id = some b := by
  obtain ⟨k, _, found⟩ := Option.bind_eq_some_iff.mp found
  split at found
  · exact Application.buffer_self found
  · cases found

theorem Application.deviceEvent_self {kid : Nat} {event : DeviceEvent} {e : Event}
    (found : p.deviceEvent kid event = some e) : p.event e.id = some e := by
  obtain ⟨k, _, found⟩ := Option.bind_eq_some_iff.mp found
  cases event with
  | exit => exact Application.event_self found
  | a =>
    obtain ⟨f, _, found⟩ := Option.bind_eq_some_iff.mp found
    exact Application.event_self found
  | b =>
    obtain ⟨f, _, found⟩ := Option.bind_eq_some_iff.mp found
    exact Application.event_self found
  | r =>
    obtain ⟨f, _, found⟩ := Option.bind_eq_some_iff.mp found
    exact Application.event_self found
  | param j =>
    simp only at found
    split at found
    · exact Application.event_self found
    · cases found

/-- What the application accepts, the platform accepts with the same answer. -/
theorem Placed.simulated (placed : Placed p f) :
    Machine.Simulated (Shows p f.cxt) p.step f.step := by
  intro s h command answer s' shown run
  cases command with
  | mangoWrite buffer data => exact placed.mangoWrite shown run
  | mangoRead buffer => exact placed.mangoRead shown run
  | hostStore buffer offset byte =>
    obtain ⟨b, found, run⟩ := Option.bind_eq_some_iff.mp run
    split at run
    · next inside =>
      cases run
      obtain ⟨b', stored, here⟩ := placed.host_buffer found offset
      refine ⟨_, ?_, shown.stored placed (Application.buffer_self found) inside byte⟩
      simp [Platform.step, stored, here, transferExec, Hardware.storeByte]
    · cases run
  | hostLoad buffer offset =>
    obtain ⟨b, found, run⟩ := Option.bind_eq_some_iff.mp run
    split at run
    · next inside =>
      cases run
      obtain ⟨b', stored, here⟩ := placed.host_buffer found offset
      have byte := shown.byte (Application.buffer_self found) inside
      rw [here] at byte
      have loaded : h.memory b'.clusterId b'.memTile (b'.phyAddr + offset) = s.arrays b.id offset := byte
      exact ⟨h, by simp [Platform.step, stored, receiveExec, loaded], shown⟩
    · cases run
  | hostWriteSynchronization event value =>
    obtain ⟨e, found, run⟩ := Option.bind_eq_some_iff.mp run
    cases run
    obtain ⟨e', stored, cluster, addr⟩ := placed.host_event found
    refine ⟨_, ?_, shown.register placed (Application.event_self found) (uint32 value)⟩
    simp [Platform.step, stored, cluster, addr, Hardware.writeRegister]
  | hostReadSynchronization event =>
    obtain ⟨e, found, run⟩ := Option.bind_eq_some_iff.mp run
    cases run
    obtain ⟨e', stored, cluster, addr⟩ := placed.host_event found
    have own := Application.event_self found
    refine ⟨_, ?_, shown.register placed own 0⟩
    simp [Platform.step, stored, cluster, addr, Hardware.readRegister, Registers.read, shown.value own]
  | load kernel param offset =>
    obtain ⟨b, found, run⟩ := Option.bind_eq_some_iff.mp run
    split at run
    · next inside =>
      cases run
      have loaded := shown.byte (Application.parameter_self found) inside
      exact ⟨h, by simp [Platform.step, placed.pointers kernel param b found offset inside, loaded], shown⟩
    · cases run
  | store kernel param offset byte =>
    obtain ⟨b, found, run⟩ := Option.bind_eq_some_iff.mp run
    split at run
    · next inside =>
      cases run
      refine ⟨_, ?_, shown.stored placed (Application.parameter_self found) inside byte⟩
      simp [Platform.step, placed.pointers kernel param b found offset inside]
    · cases run
  | deviceWriteSynchronization kernel event value =>
    obtain ⟨e, found, run⟩ := Option.bind_eq_some_iff.mp run
    cases run
    refine ⟨_, ?_, shown.register placed (Application.deviceEvent_self found) (uint32 value)⟩
    simp [Platform.step, placed.deviceEvents kernel event e found, Hardware.writeRegister]
  | deviceReadSynchronization kernel event =>
    obtain ⟨e, found, run⟩ := Option.bind_eq_some_iff.mp run
    cases run
    have own := Application.deviceEvent_self found
    refine ⟨_, ?_, shown.register placed own 0⟩
    simp [Platform.step, placed.deviceEvents kernel event e found, Hardware.readRegister, Registers.read,
      shown.value own]

end Steps

end MangoModel.System
