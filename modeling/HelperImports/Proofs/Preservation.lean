import Mathlib
import HelperImports.Proofs.Runs

/-! No run loses, doubles or reorders the user's text. Whatever is asked for, one call after the
other, a file keeps its lines other than imports of the helper, in their order; imports of the
helper are only moved, and where there is none at most one statement is added. The tree keeps its
paths, directories and links. -/

namespace HelperImports

/-- What a call asks for. -/
inductive Request where
  | file (path : Bytes)
  | files (paths : List Bytes)
  | arguments (args : List Bytes)
  deriving DecidableEq, Repr

/-- A call: a job, what it is asked for, and where its output goes. -/
structure Call where
  job : Job
  request : Request
  out : Sink := .keep none []
  deriving DecidableEq, Repr

namespace Call

/-- The world after a call, and what ended the call. -/
def run (c : Call) (w : World) : World × Option Failure :=
  let w := { w with out := c.out }
  match c.request with
  | .file path =>
    let (w, _, failure) := c.job.processFile path w
    (w, failure)
  | .files paths =>
    let o := c.job.processFiles paths w
    (o.world, o.failure)
  | .arguments args =>
    let o := c.job.processPaths args w
    (o.world, o.failure)

/-- Makes the calls one after the other, whether they fail or not. -/
def runAll : List Call → World → World × List (Option Failure)
  | [], w => (w, [])
  | c :: calls, w =>
    let (w, failure) := c.run w
    let (w, failures) := runAll calls w
    (w, failure :: failures)

end Call

namespace FileSystem

/-- `fs'` is what may become of `fs` while imports of the helper are ensured. -/
structure Evolves (helper : Bytes) (fs fs' : FileSystem) : Prop where
  alike : Alike fs fs'
  keeps : ∀ names c, fs.content? names = some c →
    ∃ c', fs'.content? names = some c' ∧ Import.Keeps helper (lines c) (lines c')

theorem Evolves.refl (helper : Bytes) (fs : FileSystem) : Evolves helper fs fs :=
  ⟨Alike.refl fs, fun _ c hc => ⟨c, hc, Import.Keeps.refl helper (lines c)⟩⟩

theorem Evolves.trans {helper : Bytes} {fs₁ fs₂ fs₃ : FileSystem} (h₁ : Evolves helper fs₁ fs₂)
    (h₂ : Evolves helper fs₂ fs₃) : Evolves helper fs₁ fs₃ := by
  refine ⟨h₁.alike.trans h₂.alike, fun names c hc => ?_⟩
  obtain ⟨c₂, hc₂, hk₁⟩ := h₁.keeps names c hc
  obtain ⟨c₃, hc₃, hk₂⟩ := h₂.keeps names c₂ hc₂
  exact ⟨c₃, hc₃, hk₁.trans hk₂⟩

end FileSystem

namespace Job

variable {job : Job} (hbindings : newline ∉ job.settings.bindings)
include hbindings

theorem evolves_processFile {path : Bytes} {w : World}
    (hhere : ∀ dir, w.files.workingDirectory = .ok dir → newline ∉ dir)
    (hwrite : ∀ p fault, (job.processFile path w).2.2 ≠ some (.writing p fault)) :
    FileSystem.Evolves job.settings.helper w.files (job.processFile path w).1.files := by
  rcases processFile_files_cases job path w with hsame | ⟨e, names, c, hm, h, hnames, hc, -⟩
  · rw [hsame]
    exact FileSystem.Evolves.refl _ w.files
  · have hok : (job.processFile path w).2.2 = none := by
      rcases failure_processFile_write hm h with hok | ⟨fault, hf⟩
      · exact hok
      · exact absurd hf (hwrite path fault)
    refine ⟨alike_processFile job path w, fun names' c' hc' => ?_⟩
    rw [content?_processFile_write hm h hnames hok]
    by_cases heq : names' = names
    · subst heq
      rw [if_pos rfl]
      refine ⟨e.newText, rfl, ?_⟩
      rw [lines_newText hhere hbindings h]
      obtain ⟨_, c'', ens, hnames'', hc'', -, hens, rfl⟩ := exists_ensure_of_edit h
      obtain rfl := Option.some.inj (hnames.symm.trans hnames'')
      obtain rfl := Option.some.inj (hc'.symm.trans hc'')
      exact Import.keeps_ensure hens
    · rw [if_neg heq]
      exact ⟨c', hc', Import.Keeps.refl _ _⟩

theorem evolves_processEach {paths : List Bytes} {w : World}
    (hhere : ∀ dir, w.files.workingDirectory = .ok dir → newline ∉ dir)
    (hwrite : ∀ p fault, (job.processEach paths w).failure ≠ some (.writing p fault)) :
    FileSystem.Evolves job.settings.helper w.files (job.processEach paths w).world.files := by
  induction paths generalizing w with
  | nil => exact FileSystem.Evolves.refl _ w.files
  | cons path paths ih =>
    cases hf : (job.processFile path w).2.2 with
    | some f =>
      rw [processEach_of_failure hf] at hwrite ⊢
      exact evolves_processFile hbindings hhere (hf ▸ hwrite)
    | none =>
      rw [processEach_of_success hf] at hwrite ⊢
      have hfine : ∀ p fault, (job.processFile path w).2.2 ≠ some (.writing p fault) := by
        simp [hf]
      have hstep := evolves_processFile hbindings hhere hfine
      exact hstep.trans (ih (hstep.alike.workingDirectory_eq ▸ hhere) hwrite)

theorem evolves_processFiles {paths : List Bytes} {w : World}
    (hhere : ∀ dir, w.files.workingDirectory = .ok dir → newline ∉ dir)
    (hwrite : ∀ p fault, (job.processFiles paths w).failure ≠ some (.writing p fault)) :
    FileSystem.Evolves job.settings.helper w.files (job.processFiles paths w).world.files := by
  unfold processFiles at hwrite ⊢
  rw [verdict_world]
  refine evolves_processEach hbindings hhere fun p fault hf => hwrite p fault ?_
  rw [verdict_of_failure job hf, hf]

theorem evolves_processPaths {args : List Bytes} {w : World}
    (hhere : ∀ dir, w.files.workingDirectory = .ok dir → newline ∉ dir)
    (hwrite : ∀ p fault, (job.processPaths args w).failure ≠ some (.writing p fault)) :
    FileSystem.Evolves job.settings.helper w.files (job.processPaths args w).world.files := by
  rw [(World.quiet_inj.1 (processPaths_eq job args w).1).1]
  exact evolves_processEach hbindings hhere fun p fault hf =>
    hwrite p fault (failure_processPaths hf)

end Job

namespace Call

theorem evolves_run {c : Call} {w : World} (hbindings : newline ∉ c.job.settings.bindings)
    (hhere : ∀ dir, w.files.workingDirectory = .ok dir → newline ∉ dir)
    (hwrite : ∀ p fault, (c.run w).2 ≠ some (.writing p fault)) :
    FileSystem.Evolves c.job.settings.helper w.files (c.run w).1.files := by
  obtain ⟨job, request, out⟩ := c
  cases request with
  | file path => exact Job.evolves_processFile (w := { w with out }) hbindings hhere hwrite
  | files paths => exact Job.evolves_processFiles (w := { w with out }) hbindings hhere hwrite
  | arguments args => exact Job.evolves_processPaths (w := { w with out }) hbindings hhere hwrite

/-- The user's text survives. For any calls, one after the other, with one helper and with any
requests, modes and bindings modules, of which some may fail, but none in writing: the tree keeps
its paths, directories and links, and every file keeps its lines but for the helper's imports. -/
theorem runAll_preserves (helper : Bytes) (calls : List Call) (w : World)
    (hhelper : ∀ c ∈ calls, c.job.settings.helper = helper)
    (hbindings : ∀ c ∈ calls, newline ∉ c.job.settings.bindings)
    (hhere : ∀ dir, w.files.workingDirectory = .ok dir → newline ∉ dir)
    (hwrite : ∀ f ∈ (runAll calls w).2, ∀ path fault, f ≠ some (.writing path fault)) :
    FileSystem.Evolves helper w.files (runAll calls w).1.files := by
  induction calls generalizing w with
  | nil => exact FileSystem.Evolves.refl helper w.files
  | cons c calls ih =>
    rw [List.forall_mem_cons] at hhelper hbindings
    rw [runAll] at hwrite ⊢
    rw [List.forall_mem_cons] at hwrite
    have hcall := evolves_run hbindings.1 hhere hwrite.1
    rw [hhelper.1] at hcall
    -- The working directory is that of the start, so the hypotheses hold for the calls that follow.
    refine hcall.trans (ih (c.run w).1 hhelper.2 hbindings.2 ?_ hwrite.2)
    rw [hcall.alike.workingDirectory_eq]
    exact hhere

/-- A source gets its import; the call after that fails, for want of a file. -/
theorem runAll_preserves_missingFile :
    let files := ({} : FileSystem).put [bytes "a.ts"] (.file (bytes "use();")) (.file _)
    let calls : List Call :=
      [⟨{ settings := ⟨bytes "use", bytes "lib"⟩ }, .file (bytes "a.ts"), .discard⟩,
        ⟨{ settings := ⟨bytes "use", bytes "/m"⟩ }, .files [bytes "b.ts"], .discard⟩]
    (runAll calls { files }).2 =
        [none, some (.reading (bytes "b.ts") (.access .opening (bytes "b.ts") .notExist))] ∧
      FileSystem.Evolves (bytes "use") files (runAll calls { files }).1.files := by
  intro files calls
  have hfailures : (runAll
      [⟨{ settings := ⟨bytes "use", bytes "lib"⟩ }, .file (bytes "a.ts"), .discard⟩,
        ⟨{ settings := ⟨bytes "use", bytes "/m"⟩ }, .files [bytes "b.ts"], .discard⟩]
      { files := ({} : FileSystem).put [bytes "a.ts"] (.file (bytes "use();")) (.file _) }).2 =
        [none, some (.reading (bytes "b.ts") (.access .opening (bytes "b.ts") .notExist))] := by
    cbv
  refine ⟨hfailures, runAll_preserves (bytes "use") calls { files } ?_ ?_ ?_ ?_⟩
  · simp [calls]
  · simp only [calls, List.forall_mem_cons]
    exact ⟨by decide, by decide, by simp⟩
  · intro dir hdir
    have hroot : files.workingDirectory = .ok (bytes "/") := by
      show (FileSystem.workingDirectory (({} : FileSystem).put [bytes "a.ts"]
        (.file (bytes "use();")) (.file _))) = _
      cbv
    obtain rfl := Except.ok.inj (hroot.symm.trans hdir)
    decide
  · rw [hfailures]
    simp

end Call

end HelperImports
