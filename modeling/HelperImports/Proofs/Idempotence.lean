import Mathlib
import HelperImports.Proofs.Runs

/-! A run that has succeeded leaves nothing for another one. Every file that was dealt with is left
settled: either it does not mention the helper, or its only import of the helper stands in its
place. Later files of the same run keep it so, even if they are the same file under another path,
and a settled file is dealt with without any change. -/

namespace HelperImports

/-- The helper is not mentioned, or the only import of it stands in its place. -/
def Import.Settled (helper : Bytes) (ls : List Bytes) : Prop :=
  mentions helper ls = true →
    ls.countP (importsHelper helper) = 1 ∧ place helper ls = ls

theorem Import.Settled.countP_le_one {helper : Bytes} {ls : List Bytes} (h : Settled helper ls) :
    ls.countP (importsHelper helper) ≤ 1 := by
  by_cases hment : mentions helper ls = true
  · exact Nat.le_of_eq (h hment).1
  · have hzero : ls.countP (importsHelper helper) = 0 := by
      rw [List.countP_eq_zero]
      intro l hl himp
      exact hment (List.any_eq_true.2 ⟨l, hl, (Bool.and_eq_true _ _ ▸ himp).2⟩)
    omega

namespace FileSystem

/-- The file at the path has at most one import of the helper. -/
def AtMostOne (fs : FileSystem) (helper path : Bytes) : Prop :=
  ∀ ls, fs.readLines path = .ok ls → ls.countP (Import.importsHelper helper) ≤ 1

/-- The file at the path can be read, and is settled. -/
def Rests (fs : FileSystem) (helper path : Bytes) : Prop :=
  ∃ ls, fs.readLines path = .ok ls ∧ Import.Settled helper ls

theorem Rests.atMostOne {fs : FileSystem} {helper path : Bytes} (h : fs.Rests helper path) :
    fs.AtMostOne helper path := by
  obtain ⟨ls, hread, hsettled⟩ := h
  intro ls' hread'
  rw [hread] at hread'
  cases hread'
  exact hsettled.countP_le_one

end FileSystem

namespace Job

/-! ### The first run -/

section

variable {job : Job} {w : World} (hm : job.mode = .write)
  (hbindings : newline ∉ job.settings.bindings)
include hm hbindings

/-- Dealing with a file settles it, under all of its paths, and other files read as before. -/
theorem rests_processFile {path : Bytes}
    (hhere : ∀ dir, w.files.workingDirectory = .ok dir → newline ∉ dir)
    (hok : (job.processFile path w).2.2 = none)
    (hone : w.files.AtMostOne job.settings.helper path) :
    (job.processFile path w).1.files.Rests job.settings.helper path ∧
      ∀ p, (job.processFile path w).1.files.readLines p = w.files.readLines p ∨
        (job.processFile path w).1.files.Rests job.settings.helper p := by
  cases h : job.edit w.files path with
  | error f =>
    obtain ⟨r, hr⟩ := processFile_of_error h
    rw [hr] at hok
    cases hok
  | ok o =>
    cases o with
    | none =>
      have hsame : (job.processFile path w).1.files = w.files :=
        (World.quiet_inj.1 (processFile_write_none h).1).1
      rw [hsame]
      obtain ⟨names, c, hnames, hc⟩ := exists_content?_of_edit h
      have hread := FileSystem.readLines_eq_ok_iff.2 ⟨names, c, hnames, hc, rfl⟩
      refine ⟨⟨lines c, hread, fun hment => ?_⟩, fun p => .inl rfl⟩
      rw [edit_of_content? job hnames hc, if_pos hment] at h
      split at h
      · cases h
      · cases h
    | some e =>
      obtain ⟨names, c, ens, hnames, hc, -, hens, rfl⟩ := exists_ensure_of_edit h
      have hbefore := FileSystem.readLines_eq_ok_iff.2 ⟨names, c, hnames, hc, rfl⟩
      have hread := readLines_processFile_write hm h hnames hok
      rw [lines_newText hhere hbindings h] at hread
      have hsettled : Import.Settled job.settings.helper ens.lines := fun _ =>
        Import.settled_of_ensure hens (hone _ hbefore)
      refine ⟨⟨ens.lines, ?_, hsettled⟩, fun p => ?_⟩
      · rw [hread, if_pos hnames]
      · by_cases hp : w.files.fileNames? p = some names
        · refine .inr ⟨ens.lines, ?_, hsettled⟩
          rw [hread, if_pos hp]
        · refine .inl ?_
          rw [hread, if_neg hp]

/-- A run that succeeds settles every file that it deals with. A file with at most one import of
the helper stays such a file, so that it can still be settled later in the run, and a settled file
stays settled. -/
theorem rests_processEach {paths : List Bytes}
    (hhere : ∀ dir, w.files.workingDirectory = .ok dir → newline ∉ dir)
    (hone : ∀ path ∈ paths, w.files.AtMostOne job.settings.helper path)
    (hok : (job.processEach paths w).failure = none) :
    (∀ path ∈ paths, (job.processEach paths w).world.files.Rests job.settings.helper path) ∧
      ∀ p, w.files.Rests job.settings.helper p →
        (job.processEach paths w).world.files.Rests job.settings.helper p := by
  induction paths generalizing w with
  | nil => exact ⟨by simp, fun p hp => hp⟩
  | cons path paths ih =>
    cases hf : (job.processFile path w).2.2 with
    | some f =>
      rw [processEach_of_failure hf] at hok
      cases hok
    | none =>
      rw [processEach_of_success hf] at hok ⊢
      rw [List.forall_mem_cons] at hone
      -- Any other path reads as before, or leads to the file that has just been settled.
      obtain ⟨hrests, hothers⟩ := rests_processFile hm hbindings hhere hf hone.1
      have halike := alike_processFile job path w
      have hone' : ∀ p ∈ paths,
          (job.processFile path w).1.files.AtMostOne job.settings.helper p := by
        intro p hp
        rcases hothers p with hsame | hrest
        · intro ls hls
          exact hone.2 p hp ls (hsame ▸ hls)
        · exact hrest.atMostOne
      obtain ⟨hpaths, hkept⟩ := ih (halike.workingDirectory_eq ▸ hhere) hone' hok
      refine ⟨List.forall_mem_cons.2 ⟨hkept path hrests, hpaths⟩, fun p hp => hkept p ?_⟩
      rcases hothers p with hsame | hrest
      · obtain ⟨ls, hls, hsettled⟩ := hp
        exact ⟨ls, hsame.trans hls, hsettled⟩
      · exact hrest

end

/-! ### The second run -/

/-- The edit of a settled file changes nothing. -/
theorem edit_of_rests {job : Job} {fs : FileSystem} {path : Bytes}
    (h : fs.Rests job.settings.helper path) :
    job.edit fs path = .ok none ∨
      ∃ names c, fs.fileNames? path = some names ∧ fs.content? names = some c ∧
        job.edit fs path = .ok (some ⟨lines c, lines c, false⟩) := by
  obtain ⟨ls, hread, hsettled⟩ := h
  obtain ⟨names, c, hnames, hc, rfl⟩ := FileSystem.readLines_eq_ok_iff.1 hread
  rw [edit_of_content? job hnames hc]
  split
  · rename_i hment
    obtain ⟨hcount, hplace⟩ := hsettled hment
    refine .inr ⟨names, c, hnames, hc, ?_⟩
    rw [ensure, Import.ensure_of_settled hcount hplace]
  · exact .inl rfl

/-- A settled file is dealt with without any change, unless it cannot be written. -/
theorem processFile_of_rests {job : Job} {path : Bytes} {w : World}
    (h : w.files.Rests job.settings.helper path) :
    (job.mode = .write ∧ ∃ fault, (job.processFile path w).2.2 = some (.writing path fault)) ∨
      (job.processFile path w).1.quiet = w.quiet ∧ (job.processFile path w).2.2 = none ∧
        (job.processFile path w).2.1.path = path ∧
        (job.processFile path w).2.1.inserted = false ∧
        (job.processFile path w).2.1.changed = false := by
  rcases edit_of_rests h with hedit | ⟨names, c, hnames, hc, hedit⟩
  · rw [processFile_of_none hedit]
    exact .inr ⟨World.quiet_note .., rfl, rfl, rfl, rfl⟩
  · cases hm : job.mode with
    | check =>
      obtain ⟨hworld, hanswer⟩ := processFile_check hm hedit
      rw [hworld, hanswer]
      exact .inr ⟨rfl, rfl, rfl, rfl, bne_self_eq_false _⟩
    | preview =>
      have hshown : job.shown path (some ⟨lines c, lines c, false⟩) = [] := if_pos rfl
      obtain ⟨hworld, hanswer⟩ := processFile_preview hm hedit
      rw [hshown] at hworld hanswer
      rw [hworld, hanswer]
      exact .inr ⟨rfl, rfl, rfl, rfl, bne_self_eq_false _⟩
    | write =>
      obtain ⟨hworld, hanswer⟩ := processFile_write_some hm hedit hnames
      have htext : Edit.newText ⟨lines c, lines c, false⟩ = c := unlines_lines c
      rw [htext] at hworld hanswer
      by_cases hfit : (w.files.stored c).length = c.length
      · rw [if_pos hfit] at hanswer
        simp only [FileSystem.stored_eq_of_length hfit, FileSystem.put_content? hc] at hworld
        rw [hworld, hanswer]
        exact .inr ⟨rfl, rfl, rfl, rfl, bne_self_eq_false _⟩
      · rw [if_neg hfit] at hanswer
        rw [hanswer]
        exact .inl ⟨rfl, _, rfl⟩

/-- A run over settled files changes nothing, unless a file cannot be written. -/
theorem processEach_of_rests {job : Job} {paths : List Bytes} {w : World}
    (h : ∀ path ∈ paths, w.files.Rests job.settings.helper path) :
    (job.mode = .write ∧
        ∃ path fault, (job.processEach paths w).failure = some (.writing path fault)) ∨
      (job.processEach paths w).world.quiet = w.quiet ∧
        (job.processEach paths w).failure = none ∧
        (job.processEach paths w).results.map (·.path) = paths ∧
        ∀ r ∈ (job.processEach paths w).results, r.inserted = false ∧ r.changed = false := by
  induction paths generalizing w with
  | nil => exact .inr ⟨rfl, rfl, rfl, by simp [processEach]⟩
  | cons path paths ih =>
    rw [List.forall_mem_cons] at h
    rcases processFile_of_rests h.1 with ⟨hm, fault, hf⟩ | ⟨hworld, hf, hpath, hins, hchanged⟩
    · rw [processEach_of_failure hf]
      exact .inl ⟨hm, path, fault, rfl⟩
    · have hfiles := (World.quiet_inj.1 hworld).1
      rw [processEach_of_success hf]
      rcases ih (hfiles ▸ h.2) with ⟨hm, p, fault, hrest⟩ | ⟨hquiet, hnone, hpaths, hresults⟩
      · exact .inl ⟨hm, p, fault, hrest⟩
      · refine .inr ⟨hquiet.trans hworld, hnone, ?_, ?_⟩
        · simp [Outcome.after, hpath, hpaths]
        · intro r hr
          rcases List.mem_cons.1 hr with rfl | hr
          · exact ⟨hins, hchanged⟩
          · exact hresults r hr

/-- A run over arguments that stand for settled files changes nothing, unless a file cannot be
written. -/
theorem processPaths_of_rests (job : Job) {args : List Bytes} {w : World}
    (hreached : (w.files.reached args).2 = none)
    (h : ∀ path ∈ (w.files.reached args).1, w.files.Rests job.settings.helper path) :
    (job.mode = .write ∧
        ∃ path fault, (job.processPaths args w).failure = some (.writing path fault)) ∨
      (job.processPaths args w).world.quiet = w.quiet ∧
        (job.processPaths args w).failure = none ∧
        (job.processPaths args w).results.map (·.path) = (w.files.reached args).1 ∧
        ∀ r ∈ (job.processPaths args w).results, r.inserted = false ∧ r.changed = false := by
  obtain ⟨hworld, hresults, hfailure⟩ := processPaths_eq job args w
  rw [hreached] at hfailure
  rcases processEach_of_rests h with ⟨hm, path, fault, hf⟩ | ⟨hquiet, hf, hpaths, hrests⟩
  · exact .inl ⟨hm, path, fault, failure_processPaths hf⟩
  · refine .inr ⟨hworld.trans hquiet, ?_, hresults ▸ hpaths, hresults ▸ hrests⟩
    have hcount : pendingCount (job.processEach (w.files.reached args).1 w).results = 0 := by
      rw [pendingCount, List.countP_eq_zero]
      intro r hr
      simp [(hrests r hr).2]
    rw [hfailure, verdict]
    simp only [Outcome.orElse, hf, hcount]
    simp

/-- A run over arguments that succeeds settles every file that they stand for. -/
theorem rests_processPaths {job : Job} {args : List Bytes} {w : World} (hm : job.mode = .write)
    (hbindings : newline ∉ job.settings.bindings)
    (hhere : ∀ dir, w.files.workingDirectory = .ok dir → newline ∉ dir)
    (hone : ∀ path ∈ (w.files.reached args).1, w.files.AtMostOne job.settings.helper path)
    (hok : (job.processPaths args w).failure = none) :
    (w.files.reached args).2 = none ∧ ∀ path ∈ (w.files.reached args).1,
      (job.processPaths args w).world.files.Rests job.settings.helper path := by
  have hfailure := hok
  rw [failure_processPaths_of_mode_ne (by simp [hm]), Option.orElse_eq_none] at hfailure
  obtain ⟨hf, hreached⟩ := hfailure
  refine ⟨hreached, ?_⟩
  rw [(World.quiet_inj.1 (processPaths_eq job args w).1).1]
  exact (rests_processEach hm hbindings hhere hone hf).1

/-- Whole-run idempotence: after a run that succeeds, over files with at most one import of the
helper each, the same arguments leave nothing to do. A check is content, a preview prints nothing,
and another run writes what is there already. The arguments may reach a file several times, under
any paths; how much a file can hold may change in between. -/
theorem processPaths_idempotent (job : Job) (args : List Bytes) (w : World)
    (hmode : job.mode = .write)
    (hone : ∀ path ∈ (w.files.reached args).1, ∀ ls, w.files.readLines path = .ok ls →
      ls.countP (Import.importsHelper job.settings.helper) ≤ 1)
    (hhere : ∀ dir, w.files.workingDirectory = .ok dir → newline ∉ dir)
    (hbindings : newline ∉ job.settings.bindings)
    (hok : (job.processPaths args w).failure = none)
    (limit : Option Nat) (out : Sink) (log : List Log.Record) :
    let again : World := { files := { (job.processPaths args w).world.files with limit }, out, log }
    let checked := { job with mode := .check }.processPaths args again
    let shown := { job with mode := .preview }.processPaths args again
    let rewritten := job.processPaths args again
    (checked.failure = none ∧ checked.results.map (·.path) = (w.files.reached args).1 ∧
        ∀ r ∈ checked.results, r.inserted = false ∧ r.changed = false) ∧
      (shown.failure = none ∧ shown.world.out = out) ∧
      ((∀ path fault, rewritten.failure ≠ some (.writing path fault)) →
        rewritten.failure = none ∧ rewritten.world.files = again.files) := by
  intro again checked shown rewritten
  obtain ⟨hreached, hrests⟩ := rests_processPaths hmode hbindings hhere hone hok
  have hlimit : FileSystem.Alike (job.processPaths args w).world.files again.files := ⟨rfl, rfl⟩
  have hsame : again.files.reached args = w.files.reached args :=
    ((alike_processPaths job args w).trans hlimit).reached_eq args
  have hagain : ∀ path ∈ (again.files.reached args).1,
      again.files.Rests job.settings.helper path := by
    intro path hpath
    obtain ⟨ls, hls, hsettled⟩ := hrests path (hsame ▸ hpath)
    refine ⟨ls, ?_, hsettled⟩
    rw [FileSystem.readLines, hlimit.readFile_eq fun _ _ => rfl]
    exact hls
  rw [← hsame] at hreached
  refine ⟨?_, ?_, ?_⟩
  · rcases processPaths_of_rests { job with mode := .check } hreached hagain with
      ⟨hm, -⟩ | ⟨-, hf, hpaths, hresults⟩
    · cases hm
    · exact ⟨hf, hsame ▸ hpaths, hresults⟩
  · rcases processPaths_of_rests { job with mode := .preview } hreached hagain with
      ⟨hm, -⟩ | ⟨hworld, hf, -⟩
    · cases hm
    · exact ⟨hf, (World.quiet_inj.1 hworld).2⟩
  · intro hwrites
    rcases processPaths_of_rests job hreached hagain with
      ⟨-, path, fault, hf⟩ | ⟨hworld, hf, -⟩
    · exact absurd hf (hwrites path fault)
    · exact ⟨hf, (World.quiet_inj.1 hworld).1⟩

/-- The source is reached through the link, and again through its directory. -/
theorem processPaths_idempotent_linkedSource :
    let job : Job := { settings := ⟨bytes "use", bytes "lib"⟩ }
    let args := [bytes "b", bytes "."]
    let done := job.processPaths args { files := linkedSource }
    let again : World := { files := { done.world.files with limit := none } }
    done.failure = none ∧ ({ job with mode := .check }.processPaths args again).failure = none ∧
      ({ job with mode := .check }.processPaths args again).results.map Result.path =
        [bytes "b", bytes "a.ts"] := by
  have hok : (Job.processPaths { settings := ⟨bytes "use", bytes "lib"⟩ } [bytes "b", bytes "."]
      { files := linkedSource }).failure = none := by cbv
  have hreached : linkedSource.reached [bytes "b", bytes "."] =
      ([bytes "b", bytes "a.ts"], none) := by cbv
  have hlink : linkedSource.readLines (bytes "b") = .ok [bytes "use();"] := by cbv
  have hfile : linkedSource.readLines (bytes "a.ts") = .ok [bytes "use();"] := by cbv
  have hone : ∀ path ∈ (linkedSource.reached [bytes "b", bytes "."]).1,
      ∀ ls, linkedSource.readLines path = .ok ls →
        ls.countP (Import.importsHelper (bytes "use")) ≤ 1 := by
    rw [hreached]
    intro path hpath ls hls
    obtain rfl : ls = [bytes "use();"] := by
      simp only [List.mem_cons, List.not_mem_nil, or_false] at hpath
      rcases hpath with rfl | rfl
      · exact (Except.ok.inj (hlink.symm.trans hls)).symm
      · exact (Except.ok.inj (hfile.symm.trans hls)).symm
    exact List.countP_le_length
  have hhere : ∀ dir, linkedSource.workingDirectory = .ok dir → newline ∉ dir := by
    intro dir hdir
    obtain rfl : dir = bytes "/" := by
      have : linkedSource.workingDirectory = .ok (bytes "/") := by cbv
      exact (Except.ok.inj (this.symm.trans hdir)).symm
    decide
  intro job args done again
  obtain ⟨⟨hchecked, hpaths, -⟩, -⟩ := processPaths_idempotent job args { files := linkedSource }
    rfl hone hhere (by decide) hok none (.keep none []) []
  exact ⟨hok, hchecked, hpaths.trans (congrArg Prod.fst hreached)⟩

end Job

end HelperImports
