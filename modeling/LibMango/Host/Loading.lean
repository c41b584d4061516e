import LibMango.Host.Graph
import Mathlib.Data.List.Infix

namespace MangoModel.Host

section Calls

/-- A call of `load`, with the files that can be read when it is made. -/
structure LoadCall where
  readable : String → Bool
  file : String
  unit : UnitType
  type : FileType

def LoadCall.result (c : LoadCall) (f : KernelFunction) : ExitCode × KernelFunction :=
  f.load c.readable c.file c.unit c.type

/-- A kernel function, and what the calls of `load` on it have returned. -/
structure Loading where
  f : KernelFunction
  results : List (UnitType × ExitCode)

namespace Loading

def start : Loading := ⟨.empty, []⟩

def step (l : Loading) (c : LoadCall) : Loading :=
  ⟨(c.result l.f).2, l.results ++ [(c.unit, (c.result l.f).1)]⟩

def run (calls : List LoadCall) : Loading := calls.foldl step start

/-- The maps have the same keys, which are the unit types that have been loaded. -/
structure Consistent (l : Loading) : Prop where
  keys : ∀ unit, (l.f.version unit).isSome = (l.f.size unit).isSome
  units : ∀ unit, (l.f.version unit).isSome ↔ (unit, .SUCCESS) ∈ l.results
  loaded : l.f.loaded = true ↔ ∃ unit, (unit, .SUCCESS) ∈ l.results

end Loading

/-- The kernel function is consistent all along, and a call that fails leaves it as it was. -/
def AllOrNothing (calls : List LoadCall) : Prop :=
  (∀ done, done <+: calls → (Loading.run done).Consistent) ∧
  ∀ done c, done ++ [c] <+: calls → (c.result (Loading.run done).f).1 ≠ .SUCCESS →
    (c.result (Loading.run done).f).2 = (Loading.run done).f

/-- A call that fails after it has set the file name. -/
def LoadCall.Spoils (c : LoadCall) : Prop :=
  match c.unit with
  | .GN | .PEAK | .NUP => c.type = .BINARY ∧ c.readable c.file = false
  | .DCT => c.type ≠ .HARDWARE
  | _ => False

/-- The file name that a failing call sets is there already. -/
def LoadCall.Harmless (c : LoadCall) (f : KernelFunction) : Prop :=
  c.Spoils → f.version c.unit = some c.file

end Calls

section Cases

variable {f : KernelFunction} {c : LoadCall}

namespace KernelFunction

theorem setVersion_same {unit : UnitType} {file : String} (same : f.version unit = some file) :
    f.setVersion unit file = f := by
  have kept : Function.update f.version unit (some file) = f.version := by
    rw [← same, Function.update_eq_self]
  cases f
  simp only [setVersion, kept]

theorem setSize_same {unit : UnitType} (known : (f.size unit).isSome) : f.setSize unit = f := by
  obtain ⟨n, size⟩ := Option.isSome_iff_exists.mp known
  have kept : Function.update f.size unit (some (imageSize unit)) = f.size := by
    rw [← f.sized unit n size, ← size, Function.update_eq_self]
  cases f
  simp only [setSize, kept]

/-- A call of `load` succeeds and sets both maps, or spoils the kernel function, or does nothing. -/
theorem load_cases (f : KernelFunction) (c : LoadCall) :
    ((c.result f).1 = .SUCCESS ∧ ¬ c.Spoils ∧
      (c.result f).2 = { (f.setVersion c.unit c.file).setSize c.unit with loaded := true }) ∨
    ((c.result f).1 ≠ .SUCCESS ∧ c.Spoils ∧ ((c.result f).2 = f.setVersion c.unit c.file ∨
      (c.result f).2 = (f.setVersion c.unit c.file).setSize c.unit)) ∨
    ((c.result f).1 ≠ .SUCCESS ∧ ¬ c.Spoils ∧ (c.result f).2 = f) := by
  obtain ⟨readable, file, unit, type⟩ := c
  rcases known : readable file with _ | _ <;> cases unit <;> cases type <;>
    simp [LoadCall.result, load, loadGn, loadPeak, loadNuplus, loadDct, loadBinary, LoadCall.Spoils, known]

end KernelFunction

end Cases

namespace Loading

variable {l : Loading} {c : LoadCall}

theorem run_append (done : List LoadCall) (c : LoadCall) : run (done ++ [c]) = (run done).step c := by
  simp [run]

theorem start_consistent : start.Consistent where
  keys _ := rfl
  units _ := by simp [start, KernelFunction.empty]
  loaded := by simp [start, KernelFunction.empty]

/-- A call that has failed without a trace. -/
theorem Consistent.failed {res : ExitCode} (consistent : l.Consistent) (failed : res ≠ .SUCCESS)
    (unit : UnitType) : Consistent ⟨l.f, l.results ++ [(unit, res)]⟩ where
  keys := consistent.keys
  units other := by
    rw [consistent.units other]
    simp [Ne.symm failed]
  loaded := by
    rw [consistent.loaded]
    simp [Ne.symm failed]

theorem Consistent.succeeded (consistent : l.Consistent) (unit : UnitType) (file : String) :
    Consistent ⟨{ (l.f.setVersion unit file).setSize unit with loaded := true },
      l.results ++ [(unit, .SUCCESS)]⟩ where
  keys other := by
    change (Function.update l.f.version unit _ other).isSome = (Function.update l.f.size unit _ other).isSome
    by_cases same : other = unit
    · subst same
      rw [Function.update_self, Function.update_self]
      rfl
    · rw [Function.update_of_ne same, Function.update_of_ne same]
      exact consistent.keys other
  units other := by
    change (Function.update l.f.version unit _ other).isSome ↔ _
    by_cases same : other = unit
    · subst same
      simp
    · rw [Function.update_of_ne same, consistent.units other]
      simp [same]
  loaded := ⟨fun _ => ⟨unit, by simp⟩, fun _ => rfl⟩

theorem Consistent.step (consistent : l.Consistent) (harmless : c.Harmless l.f) :
    (l.step c).Consistent ∧ ((c.result l.f).1 ≠ .SUCCESS → (c.result l.f).2 = l.f) := by
  rcases KernelFunction.load_cases l.f c with ⟨success, _, after⟩ | ⟨failed, spoils, after⟩ | ⟨failed, _, after⟩
  · refine ⟨?_, fun failed => absurd success failed⟩
    rw [Loading.step, success, after]
    exact consistent.succeeded c.unit c.file
  · have same : (c.result l.f).2 = l.f := by
      have version := harmless spoils
      have size : (l.f.size c.unit).isSome := by
        rw [← consistent.keys, version]
        rfl
      rcases after with after | after
      · rw [after, KernelFunction.setVersion_same version]
      · rw [after, KernelFunction.setVersion_same version, KernelFunction.setSize_same size]
    refine ⟨?_, fun _ => same⟩
    rw [Loading.step, same]
    exact consistent.failed failed c.unit
  · refine ⟨?_, fun _ => after⟩
    rw [Loading.step, after]
    exact consistent.failed failed c.unit

/-- A call that spoils a kernel function and leaves it as it was is harmless. -/
theorem harmless_of_unchanged
    (unchanged : (c.result l.f).1 ≠ .SUCCESS → (c.result l.f).2 = l.f) : c.Harmless l.f := by
  intro spoils
  rcases KernelFunction.load_cases l.f c with ⟨_, tidy, _⟩ | ⟨failed, _, after⟩ | ⟨_, tidy, _⟩
  · exact absurd spoils tidy
  · have version : (c.result l.f).2.version c.unit = some c.file := by
      rcases after with after | after <;>
        · rw [after]
          exact Function.update_self _ _ _
    rw [unchanged failed] at version
    exact version
  · exact absurd spoils tidy

end Loading

/-- Loading is all or nothing exactly when each call that fails after it has set the file name finds
    that file name there. -/
theorem load_all_or_nothing_iff (calls : List LoadCall) : AllOrNothing calls ↔
    ∀ done c, done ++ [c] <+: calls → c.Harmless (Loading.run done).f := by
  constructor
  · rintro ⟨_, unchanged⟩ done c within
    exact Loading.harmless_of_unchanged (unchanged done c within)
  · intro harmless
    have consistent : ∀ done, done <+: calls → (Loading.run done).Consistent := by
      intro done
      induction done using List.reverseRecOn with
      | nil => exact fun _ => Loading.start_consistent
      | append_singleton done c ih =>
        intro within
        rw [Loading.run_append]
        exact ((ih ((List.prefix_append _ _).trans within)).step (harmless done c within)).1
    refine ⟨consistent, fun done c within => ?_⟩
    have before := consistent done ((List.prefix_append _ _).trans within)
    exact (before.step (harmless done c within)).2

/-- An unreadable file leaves a version without a size behind, and then `length` fails. -/
theorem load_unreadable : ¬ AllOrNothing [⟨fun _ => false, "kernel", .PEAK, .BINARY⟩] ∧
    (Loading.run [⟨fun _ => false, "kernel", .PEAK, .BINARY⟩]).f.length = none := by
  refine ⟨?_, by decide⟩
  rintro ⟨consistent, _⟩
  have keys := (consistent _ (List.prefix_refl _)).keys .PEAK
  exact absurd keys (by decide)

end MangoModel.Host
