import Mathlib
import HelperImports.CommandLine.Execute
import HelperImports.Proofs.Footprint
import HelperImports.Proofs.Layers
import HelperImports.Proofs.Reach

/-! What the command may touch. Bad flags, two modes at once, a switch that asks for no more than a
look, and settings that cannot be loaded leave every file as it is. In all other calls a file that
changes mentioned the helper that the settings name, and it is reached by an argument, or else found
where a directory argument leads only once it is cleaned. -/

namespace HelperImports

theorem World.files_note (w : World) (job : Job) (r : Log.Record) :
    (w.note job r).files = w.files :=
  (World.quiet_inj.1 (World.quiet_note w job r)).1

theorem ParsedFlags.mode_ne_write {p : ParsedFlags}
    (h : p.isOn "dry-run" = true ∨ p.isOn "check" = true) : p.mode ≠ .write := by
  unfold mode
  rcases h with h | h
  · simp [h]
  · rw [h]
    split <;> simp

namespace Invocation

/-- The settings that the command runs with, once its flags are known. -/
def load (i : Invocation) (p : ParsedFlags) (fs : FileSystem) : Except Settings.Unloaded Settings :=
  Settings.load fs ((p.value? "config").getD []) p.settings (.ofEnvironment i.environment)

/-- Why a call of the command changes no file. -/
inductive Barred (i : Invocation) (fs : FileSystem) : Prop
  | flags {e : FlagError} (refused : ParsedFlags.parse commandFlags i.arguments = .error e)
  | bothModes {p : ParsedFlags} (parsed : ParsedFlags.parse commandFlags i.arguments = .ok p)
      (given : p.isGiven "dry-run" = true ∧ p.isGiven "check" = true)
  | looking {p : ParsedFlags} (parsed : ParsedFlags.parse commandFlags i.arguments = .ok p)
      (on : p.isOn "version" = true ∨ p.isOn "dry-run" = true ∨ p.isOn "check" = true)
  | settings {p : ParsedFlags} {u : Settings.Unloaded}
      (parsed : ParsedFlags.parse commandFlags i.arguments = .ok p)
      (unloaded : i.load p fs = .error u)

/-- The call gets as far as its settings. -/
structure Proceeds (i : Invocation) (p : ParsedFlags) : Prop where
  parsed : ParsedFlags.parse commandFlags i.arguments = .ok p
  help : p.isOn "help" = false
  single : (p.isGiven "dry-run" && p.isGiven "check") = false
  version : p.isOn "version" = false

/-- The ways in which a call ends without success, and when it does. It crashes over a configuration
file over which the decoder breaks down. -/
inductive EndsWith (i : Invocation) (w : World) : Ending → Prop
  | flags {e : FlagError} (refused : ParsedFlags.parse commandFlags i.arguments = .error e) :
      EndsWith i w (.error (.flags e))
  | exclusive {p : ParsedFlags} (parsed : ParsedFlags.parse commandFlags i.arguments = .ok p)
      (help : p.isOn "help" = false)
      (given : (p.isGiven "dry-run" && p.isGiven "check") = true) :
      EndsWith i w (.error .exclusive)
  | settings {p : ParsedFlags} {e : Settings.LoadError} (proceeds : i.Proceeds p)
      (unloaded : i.load p w.files = .error (.error e)) : EndsWith i w (.error (.settings e))
  | crash {p : ParsedFlags} {content : Bytes} (proceeds : i.Proceeds p)
      (read : Settings.consulted? w.files ((p.value? "config").getD []) = some (.ok content))
      (broken : Settings.readEntries content = .error .collectionKey) : EndsWith i w .crash
  | run {p : ParsedFlags} {s : Settings} {f : Failure} (proceeds : i.Proceeds p)
      (loaded : i.load p w.files = .ok s)
      (failed : ((i.job p s).processPaths p.arguments w).failure = some f) :
      EndsWith i w (.error (.run f))

section

variable {i : Invocation} {p : ParsedFlags} {w : World}

theorem execute_of_refused {e : FlagError}
    (h : ParsedFlags.parse commandFlags i.arguments = .error e) :
    i.execute w = { world := w, ending := .error (.flags e) } := by
  simp only [execute, h]

theorem execute_of_parsed (h : ParsedFlags.parse commandFlags i.arguments = .ok p) :
    i.execute w = i.perform p w := by
  simp only [execute, h]

theorem Proceeds.execute_of_unloaded (h : i.Proceeds p) {u : Settings.Unloaded}
    (hu : i.load p w.files = .error u) :
    i.execute w =
      { world := w
        ending := match u with
          | .error e => .error (.settings e)
          | .crash => .crash } := by
  rw [load] at hu
  rw [execute_of_parsed h.parsed]
  cases u <;> simp only [perform, h.help, h.single, h.version, hu] <;> rfl

theorem Proceeds.execute_of_loaded (h : i.Proceeds p) {s : Settings}
    (hs : i.load p w.files = .ok s) :
    (i.execute w).world.files = ((i.job p s).processPaths p.arguments w).world.files ∧
      (i.execute w).ending = match ((i.job p s).processPaths p.arguments w).failure with
        | some f => .error (.run f)
        | none => .success := by
  rw [load] at hs
  rw [execute_of_parsed h.parsed]
  simp only [perform, h.help, h.single, h.version, hs]
  cases ((i.job p s).processPaths p.arguments w).failure with
  | some f => exact ⟨rfl, rfl⟩
  | none => exact ⟨World.files_note .., rfl⟩

/-- A call whose flags are accepted shows something, or asks for two modes, or proceeds. -/
theorem execute_cases (h : ParsedFlags.parse commandFlags i.arguments = .ok p) :
    ((i.execute w).world.files = w.files ∧ (i.execute w).ending = .success ∧
      (p.isOn "help" = true ∨
        (p.isGiven "dry-run" && p.isGiven "check") = false ∧ p.isOn "version" = true)) ∨
    (i.execute w = { world := w, ending := .error .exclusive } ∧ p.isOn "help" = false ∧
      (p.isGiven "dry-run" && p.isGiven "check") = true) ∨
    i.Proceeds p := by
  rw [execute_of_parsed h, perform]
  cases hhelp : p.isOn "help" with
  | true => exact .inl ⟨rfl, rfl, .inl rfl⟩
  | false =>
    cases hgiven : p.isGiven "dry-run" && p.isGiven "check" with
    | true => exact .inr (.inl ⟨rfl, rfl, rfl⟩)
    | false =>
      cases hversion : p.isOn "version" with
      | true => exact .inl ⟨rfl, rfl, .inr ⟨rfl, rfl⟩⟩
      | false => exact .inr (.inr ⟨h, hhelp, hgiven, hversion⟩)

end

/-- A call that changes files proceeds, and loads its settings. -/
theorem files_execute_cases (i : Invocation) (w : World) :
    (i.execute w).world.files = w.files ∨
      ∃ p s, i.Proceeds p ∧ i.load p w.files = .ok s ∧
        (i.execute w).world.files = ((i.job p s).processPaths p.arguments w).world.files := by
  cases hparse : ParsedFlags.parse commandFlags i.arguments with
  | error e => exact .inl (by rw [execute_of_refused hparse])
  | ok p =>
    rcases execute_cases (w := w) hparse with ⟨hfiles, -⟩ | ⟨hboth, -⟩ | hproceeds
    · exact .inl hfiles
    · exact .inl (by rw [hboth])
    · cases hload : i.load p w.files with
      | error e => exact .inl (by rw [hproceeds.execute_of_unloaded hload])
      | ok s => exact .inr ⟨p, s, hproceeds, hload, (hproceeds.execute_of_loaded hload).1⟩

/-- A call that is to write and has its settings is not barred. -/
theorem Proceeds.not_barred {i : Invocation} {p : ParsedFlags} {fs : FileSystem} {s : Settings}
    (h : i.Proceeds p) (hmode : p.mode = .write) (hload : i.load p fs = .ok s) :
    ¬ i.Barred fs := by
  intro hbarred
  cases hbarred with
  | flags refused => cases h.parsed.symm.trans refused
  | bothModes parsed given =>
    obtain rfl := Except.ok.inj (h.parsed.symm.trans parsed)
    have hsingle := h.single
    simp [given] at hsingle
  | looking parsed on =>
    obtain rfl := Except.ok.inj (h.parsed.symm.trans parsed)
    rcases on with hversion | hlook
    · simp [h.version] at hversion
    · exact ParsedFlags.mode_ne_write hlook hmode
  | settings parsed unloaded =>
    obtain rfl := Except.ok.inj (h.parsed.symm.trans parsed)
    cases hload.symm.trans unloaded

theorem files_execute_of_barred {i : Invocation} {w : World} (h : i.Barred w.files) :
    (i.execute w).world.files = w.files := by
  rcases files_execute_cases i w with hsame | ⟨p, s, hproceeds, hload, hfiles⟩
  · exact hsame
  · have hmode : p.mode ≠ .write := fun hmode => hproceeds.not_barred hmode hload h
    rw [hfiles]
    exact Job.files_processPaths_of_mode_ne hmode p.arguments w

theorem endsWith_execute {i : Invocation} {w : World} (h : (i.execute w).ending ≠ .success) :
    i.EndsWith w (i.execute w).ending := by
  cases hparse : ParsedFlags.parse commandFlags i.arguments with
  | error e =>
    rw [execute_of_refused hparse]
    exact .flags hparse
  | ok p =>
    rcases execute_cases (w := w) hparse with
      ⟨-, hsuccess, -⟩ | ⟨hboth, hhelp, hgiven⟩ | hproceeds
    · exact absurd hsuccess h
    · rw [hboth]
      exact .exclusive hparse hhelp hgiven
    · cases hload : i.load p w.files with
      | error u =>
        rw [hproceeds.execute_of_unloaded hload]
        cases u with
        | error e => exact .settings hproceeds hload
        | crash =>
          obtain ⟨content, hread, hbroken⟩ := (Settings.load_eq_crash_iff ..).1 hload
          exact .crash hproceeds hread hbroken
      | ok s =>
        rw [(hproceeds.execute_of_loaded hload).2] at h ⊢
        split at h
        · rename_i f hf
          exact .run hproceeds hload hf
        · exact absurd rfl h

theorem EndsWith.ending_execute {i : Invocation} {w : World} {e : Ending} (h : i.EndsWith w e) :
    (i.execute w).ending = e := by
  cases h with
  | flags refused => rw [execute_of_refused refused]
  | exclusive parsed help given =>
    rw [execute_of_parsed parsed]
    simp only [perform, help, given]
    rfl
  | settings proceeds unloaded => rw [proceeds.execute_of_unloaded unloaded]
  | crash proceeds read broken =>
    rw [proceeds.execute_of_unloaded ((Settings.load_eq_crash_iff ..).2 ⟨_, read, broken⟩)]
  | run proceeds loaded failed => rw [(proceeds.execute_of_loaded loaded).2, failed]

/-- The ways of `EndsWith` are all that there are, and exclude one another. -/
theorem endsWith_iff {i : Invocation} {w : World} {e : Ending} :
    i.EndsWith w e ↔ (i.execute w).ending = e ∧ e ≠ .success := by
  constructor
  · intro h
    exact ⟨h.ending_execute, by cases h <;> simp⟩
  · rintro ⟨rfl, hne⟩
    exact endsWith_execute hne

/-- What the command may touch. A call that is barred changes no file. In all other calls settings
are loaded, and a file that changes held the helper of these settings and is reached by an argument,
or, if the argument is a directory and leads elsewhere once it is cleaned, found there; paths,
directories and links stay, and so does the working directory. The exit status is one if the call
ends with an error, two if it crashes, and zero otherwise. -/
theorem execute_touches (i : Invocation) (w : World) :
    (i.Barred w.files → (i.execute w).world.files = w.files) ∧
    (¬ i.Barred w.files → ∃ p s, ParsedFlags.parse commandFlags i.arguments = .ok p ∧
      i.load p w.files = .ok s ∧ FileSystem.Alike w.files (i.execute w).world.files ∧
      ∀ names, (i.execute w).world.files.content? names ≠ w.files.content? names →
        (∃ arg ∈ p.arguments, w.files.Reaches arg names ∨
          ∃ q, w.files.Strays arg q ∧ w.files.FoundBelow q names) ∧
        ∃ text, w.files.content? names = some text ∧ s.helper <:+: text) ∧
    ((i.execute w).status = 1 ↔ ∃ e, i.EndsWith w (.error e)) ∧
    ((i.execute w).status = 2 ↔ i.EndsWith w .crash) ∧
    ((i.execute w).status = 0 ↔ ∀ e, ¬ i.EndsWith w e) := by
  refine ⟨files_execute_of_barred, fun hfree => ?_, ?_, ?_, ?_⟩
  · cases hparse : ParsedFlags.parse commandFlags i.arguments with
    | error e => exact absurd (.flags hparse) hfree
    | ok p =>
      cases hload : i.load p w.files with
      | error u => exact absurd (.settings hparse hload) hfree
      | ok s =>
        refine ⟨p, s, rfl, hload, ?_⟩
        rcases files_execute_cases i w with hsame | ⟨p', s', hproceeds, hload', hfiles⟩
        · -- A call for help ends before its settings are loaded, and changes nothing.
          rw [hsame]
          exact ⟨FileSystem.Alike.refl w.files, fun names h => absurd rfl h⟩
        · obtain rfl := Except.ok.inj (hproceeds.parsed.symm.trans hparse)
          obtain rfl := Except.ok.inj (hload'.symm.trans hload)
          rw [hfiles]
          refine ⟨Job.alike_processPaths _ _ w, fun names h => ?_⟩
          have htouches := Job.touches_processPaths h
          obtain ⟨path, hpath, hnames⟩ := htouches.path
          obtain ⟨text, htext, hment⟩ := htouches.mentions
          exact ⟨FileSystem.exists_reaches_of_mem_reached hpath hnames, text, htext,
            Import.infix_of_mentions hment⟩
  all_goals
    simp only [endsWith_iff, Completion.status]
    cases (i.execute w).ending <;> simp

/-- A call that looks for `use` in one argument, with further flags. -/
def useCall (argument : Bytes) (flags : List Bytes) : Invocation where
  arguments := argument :: bytes "--helper=use" :: flags
  compiler := []
  platform := []

def useFlags (argument : Bytes) : ParsedFlags := ⟨[⟨"helper", bytes "use"⟩], [argument]⟩

def useJob : Job := (useCall [] []).job (useFlags []) ⟨bytes "use", defaultBindings⟩

/-- A source in the directory `sub`, a link `b` to it, and a link to another directory `sub`, which
is empty and the only entry of `other`. -/
def sourceApart : FileSystem :=
  (((({} : FileSystem).put [bytes "other", bytes "sub"] (.dir []) Node.wellFormed_empty).put
    [bytes "sub", bytes "z.ts"] (.file (bytes "use(z);")) (.file _)).put
    [bytes "link"] (.link (bytes "other/sub")) (.link _)).put
    [bytes "b"] (.link (bytes "sub/z.ts")) (.link _)

theorem configEntries_sourceApart : Settings.configEntries sourceApart [] = .ok [] := by cbv

theorem load_useCall (argument : Bytes) :
    (useCall argument []).load (useFlags argument) sourceApart =
      .ok ⟨bytes "use", defaultBindings⟩ := by
  have hload : Settings.load sourceApart [] { helper := some (bytes "use") } {} =
      .ok ⟨bytes "use", defaultBindings⟩ := by
    apply Settings.eq_ok_of_toOption
    rw [Settings.load, configEntries_sourceApart]
    decide +kernel
  exact hload

/-- What a call makes of the source is told by the paths that its argument stands for. -/
theorem changes_useCall {argument : Bytes} {paths : List Bytes} {after : Bytes}
    (hproceeds : (useCall argument []).Proceeds (useFlags argument))
    (hreached : (sourceApart.reached [argument]).1 = paths)
    (hafter : (useJob.processEach paths { files := sourceApart }).world.files.content?
      [bytes "sub", bytes "z.ts"] = some after) (hother : after ≠ bytes "use(z);") :
    ((useCall argument []).execute { files := sourceApart }).world.files.content?
      [bytes "sub", bytes "z.ts"] ≠ sourceApart.content? [bytes "sub", bytes "z.ts"] := by
  have hfiles : ((useCall argument []).execute { files := sourceApart }).world.files =
      (useJob.processPaths [argument] { files := sourceApart }).world.files :=
    (hproceeds.execute_of_loaded (w := { files := sourceApart }) (load_useCall argument)).1
  have hbefore : sourceApart.content? [bytes "sub", bytes "z.ts"] = some (bytes "use(z);") := rfl
  rw [hfiles, (World.quiet_inj.1 (Job.processPaths_eq useJob [argument] _).1).1, hreached, hafter,
    hbefore]
  exact fun h => hother (Option.some.inj h)

theorem content?_sub_z : (useJob.processEach [bytes "sub/z.ts"]
    { files := sourceApart }).world.files.content? [bytes "sub", bytes "z.ts"] =
    some (bytes "import \x7b use \x7d from '../utils/stackbitBindings';\nuse(z);") := by cbv

/-- The source changes in a call that names it by the link `b`, and in one that names its directory.
The second leaves everything as it is if it is asked for no more than a look. -/
theorem execute_touches_sourceApart :
    let w : World := { files := sourceApart }
    let source := [bytes "sub", bytes "z.ts"]
    (∀ argument ∈ [bytes "b", bytes "sub"],
      ¬ (useCall argument []).Barred w.files ∧
      ((useCall argument []).execute w).world.files.content? source ≠ w.files.content? source ∧
      w.files.Reaches argument source ∧
      ∃ text, w.files.content? source = some text ∧ bytes "use" <:+: text) ∧
    (useCall (bytes "sub") [bytes "--dry-run"]).Barred w.files ∧
      ((useCall (bytes "sub") [bytes "--dry-run"]).execute w).world.files = w.files := by
  have touched : ∀ argument paths after,
      (useCall argument []).Proceeds (useFlags argument) →
      (useFlags argument).mode = .write → Path.clean argument = argument →
      (sourceApart.reached [argument]).1 = paths →
      (useJob.processEach paths { files := sourceApart }).world.files.content?
        [bytes "sub", bytes "z.ts"] = some after → after ≠ bytes "use(z);" →
      ¬ (useCall argument []).Barred sourceApart ∧
        ((useCall argument []).execute { files := sourceApart }).world.files.content?
          [bytes "sub", bytes "z.ts"] ≠ sourceApart.content? [bytes "sub", bytes "z.ts"] ∧
        sourceApart.Reaches argument [bytes "sub", bytes "z.ts"] ∧
        ∃ text, sourceApart.content? [bytes "sub", bytes "z.ts"] = some text ∧
          bytes "use" <:+: text := by
    intro argument paths after hproceeds hmode hclean hreached hafter hother
    have hchanged := changes_useCall hproceeds hreached hafter hother
    have hload := load_useCall argument
    have hfree := hproceeds.not_barred hmode hload
    obtain ⟨-, htouched, -⟩ := execute_touches (useCall argument []) { files := sourceApart }
    obtain ⟨p, s, hp, hs, -, htouches⟩ := htouched hfree
    obtain rfl := Except.ok.inj (hproceeds.parsed.symm.trans hp)
    obtain rfl := Except.ok.inj (hload.symm.trans hs)
    obtain ⟨⟨arg, harg, hreaches⟩, htext⟩ := htouches _ hchanged
    obtain rfl := List.mem_singleton.1 harg
    rcases hreaches with hreaches | ⟨q, hstrays, -⟩
    · exact ⟨hfree, hchanged, hreaches, htext⟩
    · exact absurd hstrays (FileSystem.not_strays_of_clean_eq hclean)
  have hnamed := touched (bytes "b") [bytes "b"]
    (bytes "import \x7b use \x7d from './utils/stackbitBindings';\nuse(z);")
    ⟨by cbv, by decide, by decide, by decide⟩ (by decide) (by decide) (by cbv) (by cbv) (by decide)
  have hbelow := touched (bytes "sub") [bytes "sub/z.ts"] _
    ⟨by cbv, by decide, by decide, by decide⟩ (by decide) (by decide) (by cbv) content?_sub_z
    (by decide)
  have hlook : (useCall (bytes "sub") [bytes "--dry-run"]).Barred sourceApart :=
    .looking (p := ⟨[⟨"helper", bytes "use"⟩, ⟨"dry-run", bytes "true"⟩], [bytes "sub"]⟩) (by cbv)
      (by decide)
  intro w source
  refine ⟨List.forall_mem_cons.2 ⟨hnamed, List.forall_mem_singleton.2 hbelow⟩, hlook, ?_⟩
  exact (execute_touches (useCall (bytes "sub") [bytes "--dry-run"]) w).1 hlook

theorem not_reaches_sourceApart (names : List Bytes) :
    ¬ sourceApart.Reaches (bytes "link/..") names := by
  have hunnamed : sourceApart.fileNames? (bytes "link/..") = none := by cbv
  have hlead : sourceApart.locate .destination (bytes "link/..") = .ok ⟨[bytes "other"], 0⟩ := by
    cbv
  have hdir : sourceApart.node? ⟨[bytes "other"], 0⟩ = some (.dir [(bytes "sub", .dir [])]) := by
    cbv
  have hes := (FileSystem.wellFormed_of_node? rfl hdir).1
  have hnone : ∀ es rel, sourceApart.node? ⟨[bytes "other"], 0⟩ = some (.dir es) →
      ¬ Node.IsSource (.dir es) rel := by
    intro es rel hes' hsource
    obtain rfl := Node.dir.inj (Option.some.inj (hdir.symm.trans hes'))
    cases (Node.mem_sources_visitsAll hes).2 hsource
  intro h
  cases h with
  | named leads => cases hunnamed.symm.trans leads
  | below leads found =>
    obtain rfl := Except.ok.inj (hlead.symm.trans leads)
    cases found with
    | file directory source => exact hnone _ _ directory source
    | link directory source => exact hnone _ _ directory source

/-- The path `link/..` leads to the directory `other`, which has no source below it. A call with
this argument alone changes the source all the same. -/
theorem execute_strays_sourceApart :
    let w : World := { files := sourceApart }
    let i := useCall (bytes "link/..") []
    let source := [bytes "sub", bytes "z.ts"]
    ParsedFlags.parse commandFlags i.arguments = .ok (useFlags (bytes "link/..")) ∧
      ¬ i.Barred w.files ∧
      (i.execute w).world.files.content? source ≠ w.files.content? source ∧
      ¬ ∃ arg ∈ (useFlags (bytes "link/..")).arguments, w.files.Reaches arg source := by
  have hproceeds : (useCall (bytes "link/..") []).Proceeds (useFlags (bytes "link/..")) :=
    ⟨by cbv, by decide, by decide, by decide⟩
  have hreached : (sourceApart.reached [bytes "link/.."]).1 = [bytes "sub/z.ts"] := by cbv
  intro w i source
  refine ⟨hproceeds.parsed, hproceeds.not_barred (by decide) (load_useCall _),
    changes_useCall hproceeds hreached content?_sub_z (by decide), ?_⟩
  rintro ⟨arg, harg, hreaches⟩
  obtain rfl := List.mem_singleton.1 harg
  exact not_reaches_sourceApart source hreaches

end Invocation

end HelperImports
