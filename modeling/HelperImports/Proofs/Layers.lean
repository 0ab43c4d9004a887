import Mathlib
import HelperImports.Settings.Load

/-! Where settings come from. The command line, the environment and the configuration file say
something about a setting or nothing; loading takes, for each setting by itself, what the first of
them says, and the default if none does. It fails because the configuration file cannot be had or
the outcome is not valid, and for no other reason as long as the file gives texts. -/

namespace HelperImports.Settings

/-! ### One setting and its sources -/

section Chosen

variable {x : Setting} {flag : Option Bytes} {environment : List (Bytes × Bytes)}
  {entries : Yaml.Entries} {t : Bytes}

end Chosen

/-- What reading the configuration file gives: the one that is named, or else the one that is found
in the working directory. Nothing is read if none is named and none found. -/
def consulted? (fs : FileSystem) (named : Bytes) : Option (Except Fault Bytes) :=
  if named = [] then (configPath? fs).map fs.readFile else some (fs.readFile named)

theorem configEntries_eq (fs : FileSystem) (named : Bytes) :
    configEntries fs named =
      match consulted? fs named with
      | none => .ok []
      | some (.error f) => .error (.error (.unreadable f))
      | some (.ok content) => (readEntries content).mapError .ofDecodeError := by
  unfold configEntries consulted?
  cases named with
  | nil =>
    cases configPath? fs with
    | none => rfl
    | some path => cases hread : fs.readFile path <;> simp [hread]
  | cons b named => cases hread : fs.readFile (b :: named) <;> simp [hread]

theorem configEntries_eq_crash_iff {fs : FileSystem} {named : Bytes} :
    configEntries fs named = .error .crash ↔
      ∃ content, consulted? fs named = some (.ok content) ∧
        readEntries content = .error .collectionKey := by
  rw [configEntries_eq]
  constructor
  · intro h
    split at h
    · cases h
    · cases h
    · rename_i content hread
      refine ⟨content, hread, ?_⟩
      cases hentries : readEntries content with
      | ok entries => simp [hentries, Except.mapError] at h
      | error reason =>
        cases reason with
        | malformed => simp [hentries, Except.mapError, Unloaded.ofDecodeError] at h
        | collectionKey => rfl
  · rintro ⟨content, hread, hentries⟩
    simp [hread, hentries, Except.mapError, Unloaded.ofDecodeError]

/-! ### Loading -/

theorem load_of_error {fs : FileSystem} {named : Bytes} {u : Unloaded} (flags env : Source)
    (h : configEntries fs named = .error u) : load fs named flags env = .error u := by
  simp only [load, h, bind, Except.bind]

theorem mapError_ne_crash (r : Except LoadError α) : r.mapError Unloaded.error ≠ .error .crash := by
  cases r <;> simp [Except.mapError]

/-- Loading breaks down if and only if the configuration file makes the decoder do so. -/
theorem load_eq_crash_iff {fs : FileSystem} {named : Bytes} (flags env : Source) :
    load fs named flags env = .error .crash ↔
      ∃ content, consulted? fs named = some (.ok content) ∧
        readEntries content = .error .collectionKey := by
  rw [← configEntries_eq_crash_iff]
  refine ⟨fun h => ?_, load_of_error flags env⟩
  cases hconfig : configEntries fs named with
  | error u =>
    cases (load_of_error flags env hconfig).symm.trans h
    rfl
  | ok entries =>
    simp only [load, hconfig, bind, Except.bind] at h
    split at h
    · rename_i u hvalues
      cases h
      exact absurd hvalues (mapError_ne_crash _)
    · split at h <;> cases h

/-- A configuration file that sets the helper. -/
def helperConfig : Bytes := bytes "Helper: use"

/-- A working directory with the configuration file. -/
def configured : FileSystem :=
  ({} : FileSystem).put [bytes ".vei.yaml"] (.file helperConfig) (.file _)

theorem eq_ok_of_toOption {r : Except ε α} {a : α} (h : r.toOption = some a) : r = .ok a := by
  cases r with
  | error e => cases h
  | ok b => exact congrArg Except.ok (Option.some.inj h)

end HelperImports.Settings
