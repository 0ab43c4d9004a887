import Mathlib
import HelperImports.Proofs.Footprint

/-! A run that fails stops at the first file that fails. The files before it are dealt with, one
after the other and with success; the files after it are not looked at; and the file itself is left
as it was, unless its new text was being written and did not fit. -/

namespace HelperImports.Job

/-- The files at the paths are dealt with in turn, each with success, from one world to another. -/
inductive Completes (job : Job) : World → List Bytes → List Result → World → Prop
  | done (w : World) : Completes job w [] [] w
  | next {w w₁ w₂ : World} {path : Bytes} {paths : List Bytes} {r : Result} {rs : List Result}
      (first : job.processFile path w = (w₁, r, none)) (rest : Completes job w₁ paths rs w₂) :
      Completes job w (path :: paths) (r :: rs) w₂

/-- The failures that a file at `path` can end a run with, and what is left of the files `fs` that
the run has come to. -/
inductive Breaks (job : Job) (fs : FileSystem) (path : Bytes) : Failure → FileSystem → Prop
  | reading {fault : Fault} (unreadable : fs.readFile path = .error fault) :
      Breaks job fs path (.reading path fault) fs
  | resolving {c : Bytes} {fault : Fault} (read : fs.readFile path = .ok c)
      (mentions : Import.mentions job.settings.helper (lines c) = true)
      (unresolved : job.ensure fs (Path.parent path) (lines c) = .error fault) :
      Breaks job fs path (.resolving path fault) fs
  | rendering {e : Edit} (mode : job.mode = .preview) (edit : job.edit fs path = .ok (some e)) :
      Breaks job fs path .rendering fs
  /-- The file was emptied, and took the beginning of its new text. -/
  | writing {e : Edit} {names : List Bytes} {n : Nat} {fs' : FileSystem} (mode : job.mode = .write)
      (edit : job.edit fs path = .ok (some e)) (file : fs.fileNames? path = some names)
      (limit : fs.limit = some n) (long : n < e.newText.length)
      (cut : fs.Rewritten names (e.newText.take n) fs') :
      Breaks job fs path (.writing path (.access .writing path .fileTooLarge)) fs'

/-- A run from `w` with the outcome `o` dealt with `xs`, came to the world `before`, and was ended
there by `x` with the failure `f`. -/
structure StopsAt (job : Job) (w : World) (xs : List Bytes) (before : World) (x : Bytes)
    (f : Failure) (o : Outcome) : Prop where
  completed : job.Completes w xs o.results before
  failed : (job.processFile x before).2.2 = some f
  failure : o.failure = some f
  /-- The files are those that `xs` left, but for `x` if it is left half written. -/
  left : job.Breaks before.files x f o.world.files
  limit : before.files.limit = w.files.limit
  /-- What no path of `xs` and not `x` leads to holds what it held at the start. -/
  apart : ∀ names, (∀ path ∈ xs ++ [x], w.files.fileNames? path ≠ some names) →
    o.world.files.content? names = w.files.content? names
  /-- Whatever paths come after `x`, the outcome is the same. -/
  unseen : ∀ ys, (job.processFiles (xs ++ x :: ys) w).quiet = o.quiet

/-! ### One file -/

theorem breaks_of_edit_error {job : Job} {fs : FileSystem} {path : Bytes} {f : Failure}
    (h : job.edit fs path = .error f) : job.Breaks fs path f fs := by
  rcases edit_error_cases h with ⟨fault, hread, rfl⟩ | ⟨c, fault, hread, hment, hens, rfl⟩
  · exact .reading hread
  · exact .resolving hread hment hens

/-- A text that cannot be stored whole is longer than the limit, which is where it is cut. -/
theorem exists_limit_of_stored {fs : FileSystem} {text : Bytes}
    (h : (fs.stored text).length ≠ text.length) :
    ∃ n, fs.limit = some n ∧ n < text.length ∧ fs.stored text = text.take n := by
  unfold FileSystem.stored at h ⊢
  cases hl : fs.limit with
  | none => simp [hl] at h
  | some n =>
    simp only [hl, List.length_take] at h ⊢
    exact ⟨n, rfl, by omega, rfl⟩

/-- What a file that fails leaves. Reading and resolving come before anything is written, showing
does not write to a file, and a file that was read can be opened for writing. -/
theorem breaks_processFile {job : Job} {path : Bytes} {w : World} {f : Failure}
    (h : (job.processFile path w).2.2 = some f) :
    job.Breaks w.files path f (job.processFile path w).1.files := by
  cases he : job.edit w.files path with
  | error f' =>
    obtain ⟨r, hr⟩ := processFile_of_error he
    rw [hr] at h ⊢
    cases h
    exact breaks_of_edit_error he
  | ok o =>
    cases hm : job.mode with
    | check =>
      rw [(processFile_check hm he).2] at h
      cases h
    | preview =>
      cases o with
      | none =>
        rw [processFile_of_none he] at h
        cases h
      | some e =>
        rw [(processFile_preview hm he).2] at h
        dsimp only at h
        split at h
        · cases h
        · cases h
          rw [files_processFile_preview hm he]
          exact .rendering hm he
    | write =>
      cases o with
      | none =>
        rw [(processFile_write_none he).2] at h
        cases h
      | some e =>
        obtain ⟨names, c, -, hnames, hc, -⟩ := exists_ensure_of_edit he
        obtain ⟨hworld, hanswer⟩ := processFile_write_some hm he hnames
        rw [hanswer] at h
        split at h
        · cases h
        · rename_i hlong
          cases h
          obtain ⟨n, hlimit, hlt, hstored⟩ := exists_limit_of_stored hlong
          refine .writing hm he hnames hlimit hlt ?_
          rw [← World.quiet_files (job.processFile path w).1, hworld, ← hstored]
          exact FileSystem.rewritten_put hc _

/-! ### Files one after the other -/

theorem Completes.processEach_eq {job : Job} {w before : World} {xs : List Bytes}
    {rs : List Result} (h : job.Completes w xs rs before) :
    job.processEach xs w = { world := before, results := rs } := by
  induction h with
  | done w => rfl
  | next first rest ih =>
    rw [processEach_of_success (by rw [first]), first, ih]
    rfl

theorem completes_processEach {job : Job} {paths : List Bytes} {w : World}
    (h : (job.processEach paths w).failure = none) :
    job.Completes w paths (job.processEach paths w).results (job.processEach paths w).world := by
  induction paths generalizing w with
  | nil => exact .done w
  | cons path paths ih =>
    cases hf : (job.processFile path w).2.2 with
    | some f =>
      rw [processEach_of_failure hf] at h
      cases h
    | none =>
      rw [processEach_of_success hf] at h ⊢
      exact .next (Prod.ext rfl (Prod.ext rfl hf)) (ih h)

/-- A run that fails has a first file that fails. -/
theorem exists_first_failure {job : Job} {paths : List Bytes} {w : World} {f : Failure}
    (h : (job.processEach paths w).failure = some f) :
    ∃ xs x ys before, paths = xs ++ x :: ys ∧
      job.Completes w xs (job.processEach paths w).results before ∧
      (job.processFile x before).2.2 = some f := by
  induction paths generalizing w with
  | nil => cases h
  | cons path paths ih =>
    cases hf : (job.processFile path w).2.2 with
    | some g =>
      rw [processEach_of_failure hf] at h ⊢
      cases h
      exact ⟨[], path, paths, w, rfl, .done w, hf⟩
    | none =>
      rw [processEach_of_success hf] at h ⊢
      obtain ⟨xs, x, ys, before, rfl, hcompleted, hfailed⟩ := ih h
      exact ⟨path :: xs, x, ys, before, rfl, .next (Prod.ext rfl (Prod.ext rfl hf)) hcompleted,
        hfailed⟩

/-- The run over `xs` and on to a file that fails, whatever comes after it. -/
theorem Completes.processEach_stop {job : Job} {w before : World} {xs : List Bytes}
    {rs : List Result} (h : job.Completes w xs rs before) {x : Bytes} {f : Failure}
    (hfailed : (job.processFile x before).2.2 = some f) (ys : List Bytes) :
    job.processEach (xs ++ x :: ys) w =
      { world := (job.processFile x before).1, results := rs, failure := some f } := by
  have hxs := h.processEach_eq
  rw [processEach_append_of_success (by rw [hxs]), hxs, processEach_of_failure hfailed]
  simp [Outcome.after]

/-- Any outcome that is that of the run over the paths, but for the log, is one of a run that stops
at the first file that fails. -/
theorem exists_stopsAt {job : Job} {paths : List Bytes} {w : World} {f : Failure} {o : Outcome}
    (h : (job.processEach paths w).failure = some f)
    (ho : o.quiet = (job.processEach paths w).quiet) :
    ∃ xs x ys before, paths = xs ++ x :: ys ∧ job.StopsAt w xs before x f o := by
  obtain ⟨xs, x, ys, before, rfl, hcompleted, hfailed⟩ := exists_first_failure h
  obtain ⟨hworld, hresults, hfailure⟩ := Outcome.quiet_inj.1 ho
  have hfiles := (World.quiet_inj.1 hworld).1
  have hstop := hcompleted.processEach_stop hfailed
  have hleft := breaks_processFile hfailed
  have hlimit := limit_processEach job xs w
  rw [hcompleted.processEach_eq] at hlimit
  refine ⟨xs, x, ys, before, rfl, ?_⟩
  refine
    { completed := by rwa [hresults]
      failed := hfailed
      failure := hfailure.trans h
      left := ?_
      limit := hlimit
      apart := ?_
      unseen := ?_ }
  · rw [hfiles, hstop ys]
    exact hleft
  · -- The run over `xs` and `x` alone leaves the same files.
    intro names hapart
    have hshort := content?_processEach_of_apart job hapart
    rw [hstop []] at hshort
    rw [hfiles, hstop ys]
    exact hshort
  · intro zs
    have hfail : (job.processEach (xs ++ x :: zs) w).failure = some f := by rw [hstop zs]
    rw [processFiles, verdict_of_failure job hfail, ho, hstop zs, hstop ys]

/-- A verdict is the only failure that no file and no argument is the cause of. -/
theorem failure_of_verdict {job : Job} {o : Outcome} {f : Failure}
    (h : (job.verdict o).failure = some f) (hf : ∀ n, f ≠ .pending n) : o.failure = some f := by
  unfold verdict at h
  cases ho : o.failure with
  | some g =>
    simp only [ho] at h
    exact h
  | none =>
    simp only [ho] at h
    split at h
    · cases h
      exact absurd rfl (hf _)
    · rw [ho] at h
      cases h

/-- A failing run stops cleanly. If a run over files ends in a failure other than a check's verdict,
one of its files ends it. The same holds of a run over arguments and the files that they stand for;
where an argument cannot be expanded, the run may also deal with all files before it, and end
there. -/
theorem failing_run_stops (job : Job) (w : World) :
    (∀ paths f, (job.processFiles paths w).failure = some f → (∀ n, f ≠ .pending n) →
      ∃ xs x ys before, paths = xs ++ x :: ys ∧
        job.StopsAt w xs before x f (job.processFiles paths w)) ∧
    ∀ args f, (job.processPaths args w).failure = some f → (∀ n, f ≠ .pending n) →
      (∃ xs x ys before, (w.files.reached args).1 = xs ++ x :: ys ∧
        job.StopsAt w xs before x f (job.processPaths args w)) ∨
      ((w.files.reached args).2 = some f ∧ ∃ before,
        job.Completes w (w.files.reached args).1 (job.processPaths args w).results before ∧
        (job.processPaths args w).world.files = before.files) := by
  constructor
  · intro paths f h hf
    have hfailure := failure_of_verdict h hf
    exact exists_stopsAt hfailure (by rw [processFiles, verdict_of_failure job hfailure])
  · intro args f h hf
    obtain ⟨hworld, hresults, hfailure⟩ := processPaths_eq job args w
    have hends := failure_of_verdict (hfailure.symm.trans h) hf
    cases hpaths : (job.processEach (w.files.reached args).1 w).failure with
    | some g =>
      rw [Outcome.orElse_of_failure hpaths] at hends
      have hquiet : (job.processPaths args w).quiet =
          (job.processEach (w.files.reached args).1 w).quiet :=
        Outcome.quiet_inj.2 ⟨hworld, hresults, h.trans hends.symm⟩
      exact .inl (exists_stopsAt hends hquiet)
    | none =>
      rw [Outcome.orElse, hpaths] at hends
      refine .inr ⟨hends, (job.processEach (w.files.reached args).1 w).world, ?_, ?_⟩
      · rw [hresults]
        exact completes_processEach hpaths
      · exact (World.quiet_inj.1 hworld).1

/-- A source that mentions the helper `use`, with a link to it, and one that does not, on a disk
where an import does not fit into a file. -/
def fullDisk : World where
  files := { linkedSource.put [bytes "c.ts"] (.file (bytes "x")) (.file _) with limit := some 19 }

/-- The source behind the link is cut, and ends the run. -/
theorem failing_run_stops_fullDisk :
    let job : Job := { settings := ⟨bytes "use", bytes "lib"⟩ }
    let paths := [bytes "c.ts", bytes "b", bytes "c.ts"]
    let o := job.processFiles paths fullDisk
    o.world.files.content? [bytes "a.ts"] = some (bytes "import \x7b use \x7d from") ∧
      ∃ xs x ys before, paths = xs ++ x :: ys ∧ job.StopsAt fullDisk xs before x
        (.writing (bytes "b") (.access .writing (bytes "b") .fileTooLarge)) o := by
  have hcut : (Job.processFiles { settings := ⟨bytes "use", bytes "lib"⟩ }
      [bytes "c.ts", bytes "b", bytes "c.ts"] fullDisk).world.files.content? [bytes "a.ts"] =
      some (bytes "import \x7b use \x7d from") := by cbv
  have hfailure : (Job.processFiles { settings := ⟨bytes "use", bytes "lib"⟩ }
      [bytes "c.ts", bytes "b", bytes "c.ts"] fullDisk).failure =
      some (.writing (bytes "b") (.access .writing (bytes "b") .fileTooLarge)) := by cbv
  intro job paths o
  exact ⟨hcut, (failing_run_stops job fullDisk).1 paths _ hfailure (by simp)⟩

end HelperImports.Job
