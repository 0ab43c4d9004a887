import Mathlib
import HelperImports.Proofs.Layers

/-! The configuration file that is found where none is named. Of thirteen names in the working
directory the first that leads to a file counts, and nothing else in the file system has a say. So
`.vei.yaml` is what is read as long as no name that is tried before it leads to a file, and, where
it is missing, no other name does; a file under another name takes its place otherwise. -/

namespace HelperImports.Settings

/-- The name that the configuration file is known by. -/
def defaultConfig : String := ".vei.yaml"

/-- What the file holds that a name in the working directory leads to, if it leads to one. -/
def held? (fs : FileSystem) (name : String) : Option Bytes :=
  match fs.workingDirectory with
  | .error _ => none
  | .ok here => (fs.readFile (Path.join [here, bytes name])).toOption

/-- The name of the configuration file in the working directory: the first that leads to a file. -/
def configName? (fs : FileSystem) : Option String := configNames.find? fun n => (held? fs n).isSome

/-- No other name takes the place of `.vei.yaml`: those that are tried before it lead to no file,
and if it leads to none, neither does any other. -/
structure Undisputed (fs : FileSystem) : Prop where
  before : ∀ name ∈ [".vei.json", ".vei.toml"], held? fs name = none
  missing : held? fs defaultConfig = none → ∀ name ∈ configNames, held? fs name = none

/-! ### What is consulted -/

theorem isSome_toOption_readFile (fs : FileSystem) (path : Bytes) :
    (fs.readFile path).toOption.isSome =
      match fs.find .destination path with
      | .ok (.file _) => true
      | _ => false := by
  unfold FileSystem.readFile
  cases fs.find .destination path with
  | error cause => rfl
  | ok node => cases node <;> rfl

theorem configPath?_eq {fs : FileSystem} {here : Bytes} (h : fs.workingDirectory = .ok here) :
    configPath? fs = (configName? fs).map fun n => Path.join [here, bytes n] := by
  have hleads : (fun n => (held? fs n).isSome) = fun n =>
      match fs.find .destination (Path.join [here, bytes n]) with
      | .ok (.file _) => true
      | _ => false := by
    funext n
    simp only [held?, h]
    exact isSome_toOption_readFile fs (Path.join [here, bytes n])
  simp only [configPath?, h]
  rw [configName?, hleads]
  exact List.find?_map ..

/-- Where no configuration file is named, what the first name that leads to a file holds is all that
is consulted. -/
theorem consulted?_eq_held? (fs : FileSystem) :
    consulted? fs [] = ((configName? fs).bind (held? fs)).map .ok := by
  rw [consulted?, if_pos rfl]
  cases hhere : fs.workingDirectory with
  | error fault =>
    have hpath : configPath? fs = none := by simp only [configPath?, hhere]
    have hname : configName? fs = none := by simp [configName?, held?, hhere]
    rw [hpath, hname]
    rfl
  | ok here =>
    rw [configPath?_eq hhere]
    cases hname : configName? fs with
    | none => rfl
    | some n =>
      have hfile : (held? fs n).isSome = true :=
        List.find?_some (p := fun n => (held? fs n).isSome) hname
      simp only [held?, hhere] at hfile
      simp only [Option.map_some, Option.bind_some, held?, hhere]
      cases hread : fs.readFile (Path.join [here, bytes n]) with
      | error fault => simp [hread, Except.toOption] at hfile
      | ok content => rfl

/-- What is loaded depends on the files only by what is consulted. -/
theorem load_congr {fs fs' : FileSystem} {named : Bytes} (flags env : Source)
    (h : consulted? fs named = consulted? fs' named) :
    load fs named flags env = load fs' named flags env := by
  have hentries : configEntries fs named = configEntries fs' named := by
    rw [configEntries_eq, configEntries_eq, h]
  simp only [load, hentries]

/-! ### The place of the default name -/

theorem find?_eq_only_iff {f : α → Bool} {front back : List α} {x : α} (hfront : x ∉ front)
    (hback : x ∉ back) :
    (∀ y, (front ++ x :: back).find? f = some y → y = x) ↔
      (∀ y ∈ front, f y = false) ∧ (f x = false → ∀ y ∈ back, f y = false) := by
  rw [List.find?_append, List.find?_cons]
  constructor
  · intro h
    have hnone : front.find? f = none := by
      cases hfound : front.find? f with
      | none => rfl
      | some y =>
        have hmem := List.mem_of_find?_eq_some hfound
        rw [h y (by rw [hfound]; rfl)] at hmem
        exact absurd hmem hfront
    refine ⟨by simpa using hnone, fun hx => ?_⟩
    rw [hnone, hx] at h
    cases hfound : back.find? f with
    | none => simpa using hfound
    | some y =>
      have hmem := List.mem_of_find?_eq_some hfound
      rw [h y (by rw [hfound]; rfl)] at hmem
      exact absurd hmem hback
  · rintro ⟨hnone, hrest⟩ y hy
    have hfront' : front.find? f = none := by simpa using hnone
    rw [hfront', Option.none_or] at hy
    cases hx : f x with
    | true =>
      rw [hx] at hy
      exact (Option.some.inj hy).symm
    | false =>
      have hback' : back.find? f = none := by simpa using hrest hx
      rw [hx, hback'] at hy
      cases hy

theorem undisputed_iff (fs : FileSystem) :
    Undisputed fs ↔ ∀ n, configName? fs = some n → n = defaultConfig := by
  have hnames : configNames = [".vei.json", ".vei.toml"] ++ defaultConfig :: configNames.drop 3 :=
    rfl
  have honly := find?_eq_only_iff (f := fun n => (held? fs n).isSome)
    (show defaultConfig ∉ [".vei.json", ".vei.toml"] by decide)
    (show defaultConfig ∉ configNames.drop 3 by decide)
  rw [← hnames] at honly
  rw [configName?, honly]
  simp only [Option.isSome_eq_false_iff, Option.isNone_iff_eq_none]
  constructor
  · rintro ⟨hbefore, hmissing⟩
    exact ⟨hbefore, fun hnone n hn => hmissing hnone n (List.mem_of_mem_drop hn)⟩
  · rintro ⟨hbefore, hbehind⟩
    refine ⟨hbefore, fun hnone n hn => ?_⟩
    rw [hnames, List.mem_append] at hn
    rcases hn with hn | hn
    · exact hbefore n hn
    · rcases List.mem_cons.1 hn with rfl | hn
      · exact hnone
      · exact hbehind hnone n hn

theorem held?_configName? {fs : FileSystem} (h : Undisputed fs) :
    (configName? fs).bind (held? fs) = held? fs defaultConfig := by
  cases hname : configName? fs with
  | some n =>
    obtain rfl := (undisputed_iff fs).1 h n hname
    rfl
  | none =>
    have hnone := List.find?_eq_none.1 hname defaultConfig (by decide)
    rw [Option.bind_none, Option.not_isSome_iff_eq_none.1 hnone]

/-- Where no configuration file is named, loading consults what the first of the names holds that
leads to a file, and no more. That is `.vei.yaml` and no other name if and only if none takes its
place, and then file systems in which it holds the same load the same, however else they differ. -/
theorem load_undisputed (flags env : Source) :
    (∀ fs, consulted? fs [] = ((configName? fs).bind (held? fs)).map .ok) ∧
    (∀ fs, Undisputed fs ↔ ∀ n, configName? fs = some n → n = defaultConfig) ∧
    ∀ fs fs', Undisputed fs → Undisputed fs' →
      held? fs defaultConfig = held? fs' defaultConfig →
      load fs [] flags env = load fs' [] flags env := by
  refine ⟨consulted?_eq_held?, undisputed_iff, fun fs fs' hfs hfs' hsame => ?_⟩
  refine load_congr flags env ?_
  rw [consulted?_eq_held?, consulted?_eq_held?, held?_configName? hfs, held?_configName? hfs',
    hsame]

/-- The configured directory with another file beside `.vei.yaml`. -/
def withRival (name : String) : FileSystem :=
  configured.put [bytes name] (.file (bytes "helper: other")) (.file _)

/-- A file under a name that is tried after `.vei.yaml` changes nothing. -/
theorem load_undisputed_laterRival :
    held? (withRival ".vei.yml") ".vei.yml" = some (bytes "helper: other") ∧
      load configured [] {} {} = load (withRival ".vei.yml") [] {} {} := by
  have hrival : held? (withRival ".vei.yml") ".vei.yml" = some (bytes "helper: other") := by cbv
  have hname : configName? configured = some defaultConfig := by cbv
  have hname' : configName? (withRival ".vei.yml") = some defaultConfig := by cbv
  have hheld : held? configured defaultConfig = some helperConfig := by cbv
  have hheld' : held? (withRival ".vei.yml") defaultConfig = some helperConfig := by cbv
  obtain ⟨-, hundisputed, hload⟩ := load_undisputed {} {}
  refine ⟨hrival, hload _ _ ((hundisputed _).2 ?_) ((hundisputed _).2 ?_) (hheld.trans hheld'.symm)⟩
  · intro n hn
    exact (Option.some.inj (hname.symm.trans hn)).symm
  · intro n hn
    exact (Option.some.inj (hname'.symm.trans hn)).symm

/-- A file under a name that is tried before `.vei.yaml` takes its place: another helper is loaded,
though `.vei.yaml` is the same file in both directories. -/
theorem load_earlierRival :
    let fs := withRival ".vei.json"
    fs.find .itself (bytes defaultConfig) = .ok (.file helperConfig) ∧
      configured.find .itself (bytes defaultConfig) = .ok (.file helperConfig) ∧
      (load configured [] {} {}).toOption = some ⟨bytes "use", defaultBindings⟩ ∧
      (load fs [] {} {}).toOption = some ⟨bytes "other", defaultBindings⟩ := by
  have hread : consulted? configured [] = some (.ok helperConfig) := by cbv
  have hread' : consulted? (withRival ".vei.json") [] = some (.ok (bytes "helper: other")) := by cbv
  refine ⟨by cbv, by cbv, ?_, ?_⟩
  · rw [load, configEntries_eq, hread]
    decide +kernel
  · rw [load, configEntries_eq, hread']
    decide +kernel

end HelperImports.Settings
