import HelperImports.Proofs.Contents
import HelperImports.Proofs.Runs

/-! The files that a run may touch. One step rewrites one file at most, the file behind its path,
and only if that file mentions the helper. So whatever a run does, a file that it leaves with another
content is behind one of its paths and mentioned the helper at the start. -/

namespace HelperImports.Job

/-- The run may touch the file at `names`. -/
structure Touches (job : Job) (fs : FileSystem) (paths : List Bytes) (names : List Bytes) :
    Prop where
  mode : job.mode = .write
  path : ∃ path ∈ paths, fs.fileNames? path = some names
  mentions : ∃ c, fs.content? names = some c ∧
    Import.mentions job.settings.helper (lines c) = true

/-- Dealing with a file rewrites nothing, or the file behind the path. -/
theorem processFile_rewrites (job : Job) (path : Bytes) (w : World) :
    (job.processFile path w).1.files = w.files ∨
      ∃ e names, job.mode = .write ∧ job.edit w.files path = .ok (some e) ∧
        w.files.fileNames? path = some names ∧
        w.files.Rewritten names (w.files.stored e.newText) (job.processFile path w).1.files := by
  rcases processFile_files_cases job path w with hsame | ⟨e, names, c, hm, he, hnames, hc, hput⟩
  · exact .inl hsame
  · refine .inr ⟨e, names, hm, he, hnames, ?_⟩
    rw [hput]
    exact FileSystem.rewritten_put hc _

@[simp] theorem limit_processFile (job : Job) (path : Bytes) (w : World) :
    (job.processFile path w).1.files.limit = w.files.limit := by
  rcases processFile_rewrites job path w with hsame | ⟨e, names, -, -, -, hrewritten⟩
  · rw [hsame]
  · exact hrewritten.limit

@[simp] theorem limit_processEach (job : Job) (paths : List Bytes) (w : World) :
    (job.processEach paths w).world.files.limit = w.files.limit := by
  induction paths generalizing w with
  | nil => rfl
  | cons path paths ih =>
    cases hf : (job.processFile path w).2.2 with
    | some f =>
      rw [processEach_of_failure hf]
      exact limit_processFile job path w
    | none =>
      rw [processEach_of_success hf]
      exact (ih _).trans (limit_processFile job path w)

section

variable {job : Job} {w : World} {names : List Bytes}

theorem touches_processFile {path : Bytes} (paths : List Bytes)
    (h : (job.processFile path w).1.files.content? names ≠ w.files.content? names) :
    job.Touches w.files (path :: paths) names := by
  rcases processFile_rewrites job path w with hsame | ⟨e, names', hm, he, hnames, hrewritten⟩
  · rw [hsame] at h
    exact absurd rfl h
  · have heq : names = names' := by
      by_contra hne
      rw [hrewritten.content, if_neg hne] at h
      exact h rfl
    subst heq
    obtain ⟨_, c, _, hnames', hc, hment, -⟩ := exists_ensure_of_edit he
    obtain rfl := Option.some.inj (hnames.symm.trans hnames')
    exact ⟨hm, ⟨path, List.mem_cons_self, hnames⟩, ⟨c, hc, hment⟩⟩

/-- A file that a run leaves with another content is one that it may touch. What comes later in the
run finds the file as it was at the start, or else it has been touched already. -/
theorem touches_processEach {paths : List Bytes}
    (h : (job.processEach paths w).world.files.content? names ≠ w.files.content? names) :
    job.Touches w.files paths names := by
  induction paths generalizing w with
  | nil => exact absurd rfl h
  | cons path paths ih =>
    by_cases hfirst : (job.processFile path w).1.files.content? names = w.files.content? names
    · cases hf : (job.processFile path w).2.2 with
      | some f =>
        rw [processEach_of_failure hf] at h
        exact absurd hfirst h
      | none =>
        rw [processEach_of_success hf] at h
        have hlater := ih (fun heq => h (heq.trans hfirst))
        obtain ⟨p, hp, hnames⟩ := hlater.path
        refine ⟨hlater.mode, ⟨p, List.mem_cons_of_mem path hp, ?_⟩, hfirst ▸ hlater.mentions⟩
        rw [← (alike_processFile job path w).fileNames?_eq]
        exact hnames
    · exact touches_processFile paths hfirst

/-- What no path leads to is left alone. -/
theorem content?_processEach_of_apart (job : Job) {paths : List Bytes}
    (h : ∀ path ∈ paths, w.files.fileNames? path ≠ some names) :
    (job.processEach paths w).world.files.content? names = w.files.content? names := by
  by_contra hne
  obtain ⟨path, hpath, hnames⟩ := (touches_processEach hne).path
  exact h path hpath hnames

theorem touches_processPaths {args : List Bytes}
    (h : (job.processPaths args w).world.files.content? names ≠ w.files.content? names) :
    job.Touches w.files (w.files.reached args).1 names := by
  rw [(World.quiet_inj.1 (processPaths_eq job args w).1).1] at h
  exact touches_processEach h

end

/-- Only a run that writes touches files. -/
theorem files_processPaths_of_mode_ne {job : Job} (h : job.mode ≠ .write) (args : List Bytes)
    (w : World) : (job.processPaths args w).world.files = w.files := by
  have hlimit : (job.processPaths args w).world.files.limit = w.files.limit := by
    rw [(World.quiet_inj.1 (processPaths_eq job args w).1).1, limit_processEach]
  refine (alike_processPaths job args w).eq_of_content? hlimit fun names => ?_
  by_contra hne
  exact h (touches_processPaths hne).mode

end HelperImports.Job
