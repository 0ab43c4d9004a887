import Mathlib
import HelperImports.Proofs.Commuting
import HelperImports.Proofs.PathNames

/-! What a result says about its file is so. The flags are computed from lines, and they hold of the
bytes of the file: a helper without a newline stands in a text if and only if it stands in one of
its lines, and a text with one line more is another text, whatever the line holds. -/

namespace HelperImports

theorem Bytes.length_joinWith (mark : UInt8) {pieces : List Bytes} (hne : pieces ≠ []) :
    (joinWith mark pieces).length + 1 = (pieces.map fun piece => piece.length + 1).sum := by
  induction pieces with
  | nil => exact absurd rfl hne
  | cons piece pieces ih =>
    by_cases hlast : pieces = []
    · simp [hlast, joinWith]
    · have hrest := ih hlast
      rw [joinWith_cons mark piece hlast, List.length_append, List.length_cons, List.map_cons,
        List.sum_cons]
      omega

namespace Import

variable {helper : Bytes} {specifier : Except ε Bytes} {ls : List Bytes} {e : Ensured}

theorem inserted_ensure_iff (h : ensure helper specifier ls = .ok e) :
    e.inserted = true ↔ ∀ l ∈ ls, importsHelper helper l = false := by
  rw [← helperImport?_eq_none_iff]
  rcases ensure_cases h with ⟨i, hi, rfl⟩ | ⟨hnone, s, -, rfl⟩
  · simp [hi]
  · simp [hnone]

/-- An added statement makes the text longer, if only by a newline. -/
theorem length_unlines_of_inserted (h : ensure helper specifier ls = .ok e) (hne : ls ≠ [])
    (hinserted : e.inserted = true) : (unlines ls).length < (unlines e.lines).length := by
  rcases ensure_cases h with ⟨i, -, rfl⟩ | ⟨-, s, -, rfl⟩
  · cases hinserted
  · have hperm := (place_perm helper _).trans (insert_perm (statement helper s) ls)
    have hadded : place helper (insert (statement helper s) ls) ≠ [] := by
      intro hnil
      rw [hnil] at hperm
      exact absurd hperm.length_eq (by simp)
    have hbefore : (unlines ls).length + 1 = _ := Bytes.length_joinWith newline hne
    have hafter : (unlines _).length + 1 = _ := Bytes.length_joinWith newline hadded
    rw [(hperm.map _).sum_eq, List.map_cons, List.sum_cons, ← hbefore] at hafter
    show (unlines ls).length < (unlines (place helper (insert (statement helper s) ls))).length
    omega

end Import

namespace Job

/-- What the result `r` of the file at `path` says is so. The file stands at `names` and held
`before`; `after` is what ensuring the import makes of it, which is asked for only if the helper is
used. The files were `fs` and are `fs'`. -/
structure Truthful (job : Job) (fs : FileSystem) (path : Bytes) (names : List Bytes)
    (before after : Bytes) (r : Result) (fs' : FileSystem) : Prop where
  ensured : r.usesHelper = true → ∃ e,
    job.ensure fs (Path.parent path) (lines before) = .ok e ∧ after = unlines e.lines
  skipped : r.usesHelper = false → after = before
  usesHelper : r.usesHelper = true ↔ job.settings.helper <:+: before
  inserted : r.inserted = true ↔ r.usesHelper = true ∧
    ∀ l ∈ lines before, Import.importsHelper job.settings.helper l = false
  changed_of_inserted : r.inserted = true → r.changed = true
  usesHelper_of_changed : r.changed = true → r.usesHelper = true
  changed : r.changed = true ↔ after ≠ before
  written : r.written = true ↔ r.usesHelper = true ∧ job.mode ≠ .preview ∧ job.mode ≠ .check
  content : fs.Rewritten names (if r.written then after else before) fs'

section

variable {job : Job} {path : Bytes}

theorem finalResult_none (job : Job) (path : Bytes) : job.finalResult path none = { path } := by
  unfold finalResult
  split <;> rfl

theorem finalResult_some (job : Job) (path : Bytes) (e : Edit) :
    job.finalResult path (some e) =
      { e.result path with written := decide (job.mode = .write) } := by
  unfold finalResult
  split <;> simp_all [writtenResult, plainResult, Edit.result]

theorem edit_of_succeeds {w : World} (hok : (job.processFile path w).2.2 = none) :
    ∃ o, job.edit w.files path = .ok o := by
  cases hedit : job.edit w.files path with
  | ok o => exact ⟨o, rfl⟩
  | error f =>
    obtain ⟨r, hr⟩ := processFile_of_error hedit
    rw [hr] at hok
    cases hok

end

section

variable {job : Job} {fs fs' : FileSystem} {path : Bytes} {names : List Bytes} {before : Bytes}
  (hhelper : newline ∉ job.settings.helper)
include hhelper

theorem truthful_none (hment : Import.mentions job.settings.helper (lines before) = false)
    (hfiles : fs.Rewritten names (job.finalText before none) fs') :
    job.Truthful fs path names before before (job.finalResult path none) fs' := by
  have hunused : ¬ job.settings.helper <:+: before := by
    rw [← Import.mentions_lines_iff hhelper, hment]
    exact Bool.false_ne_true
  have htext : job.finalText before none = before := ite_self before
  rw [htext] at hfiles
  rw [finalResult_none]
  exact
    { ensured := fun huses => absurd huses Bool.false_ne_true
      skipped := fun _ => rfl
      usesHelper := iff_of_false Bool.false_ne_true hunused
      inserted := iff_of_false Bool.false_ne_true fun h => Bool.false_ne_true h.1
      changed_of_inserted := id
      usesHelper_of_changed := id
      changed := iff_of_false Bool.false_ne_true fun h => h rfl
      written := iff_of_false Bool.false_ne_true fun h => Bool.false_ne_true h.1
      content := hfiles }

theorem truthful_some {ens : Import.Ensured}
    (hment : Import.mentions job.settings.helper (lines before) = true)
    (hens : job.ensure fs (Path.parent path) (lines before) = .ok ens)
    (hfiles : fs.Rewritten names
      (job.finalText before (some ⟨lines before, ens.lines, ens.inserted⟩)) fs') :
    job.Truthful fs path names before (unlines ens.lines)
      (job.finalResult path (some ⟨lines before, ens.lines, ens.inserted⟩)) fs' := by
  have hinserted := Import.inserted_ensure_iff hens
  have hchanged : (Edit.oldText ⟨lines before, ens.lines, ens.inserted⟩ !=
      Edit.newText ⟨lines before, ens.lines, ens.inserted⟩) = true ↔
        unlines ens.lines ≠ before := by
    rw [Edit.oldText, Edit.newText, unlines_lines, bne_iff_ne, ne_comm]
  have hlonger : ens.inserted = true → unlines ens.lines ≠ before := by
    intro hadded heq
    have hlt := Import.length_unlines_of_inserted hens (lines_ne_nil before) hadded
    rw [unlines_lines, heq] at hlt
    omega
  have htext : job.finalText before (some ⟨lines before, ens.lines, ens.inserted⟩) =
      if decide (job.mode = .write) then unlines ens.lines else before := by
    simp only [finalText, decide_eq_true_eq]
    rfl
  rw [htext] at hfiles
  rw [finalResult_some]
  exact
    { ensured := fun _ => ⟨ens, hens, rfl⟩
      skipped := fun huses => absurd huses.symm Bool.false_ne_true
      usesHelper := iff_of_true rfl ((Import.mentions_lines_iff hhelper before).1 hment)
      inserted := hinserted.trans (and_iff_right rfl).symm
      changed_of_inserted := fun hadded => hchanged.2 (hlonger hadded)
      usesHelper_of_changed := fun _ => rfl
      changed := hchanged
      written := by cases job.mode <;> simp [Edit.result]
      content := hfiles }

end

/-- The result of a file tells the truth. Where dealing with the file does not fail, it says whether
the helper stands in the file, whether it was not imported there, whether the edited text is another
and whether it was written; the file then holds the edited text if it was written and what it held
before if not, and no other file changes. -/
theorem processFile_truthful (job : Job) (path : Bytes) (w : World)
    (hhelper : newline ∉ job.settings.helper) (hok : (job.processFile path w).2.2 = none) :
    ∃ names before after, w.files.fileNames? path = some names ∧
      w.files.content? names = some before ∧
      job.Truthful w.files path names before after (job.processFile path w).2.1
        (job.processFile path w).1.files := by
  obtain ⟨o, hedit⟩ := edit_of_succeeds hok
  obtain ⟨hresult, -, hfiles⟩ := processFile_of_ok hedit hok
  rw [hresult]
  cases o with
  | none =>
    obtain ⟨names, before, hnames, hbefore⟩ := exists_content?_of_edit hedit
    refine ⟨names, before, before, hnames, hbefore, ?_⟩
    have hment : Import.mentions job.settings.helper (lines before) = false := by
      rw [edit_of_content? job hnames hbefore] at hedit
      by_contra hmentions
      rw [if_pos (by simpa using hmentions)] at hedit
      split at hedit <;> cases hedit
    exact truthful_none hhelper hment (hfiles names before hnames hbefore)
  | some e =>
    obtain ⟨names, before, ens, hnames, hbefore, hment, hens, rfl⟩ := exists_ensure_of_edit hedit
    refine ⟨names, before, unlines ens.lines, hnames, hbefore, ?_⟩
    exact truthful_some hhelper hment hens (hfiles names before hnames hbefore)

/-- A source is reached through a link, and gets its import where it stands. -/
theorem processFile_truthful_linkedSource :
    let job : Job := { settings := ⟨bytes "use", bytes "lib"⟩ }
    let done := job.processFile (bytes "b") { files := linkedSource }
    done.2.2 = none ∧ done.2.1.inserted = true ∧ done.2.1.changed = true ∧
      done.2.1.written = true ∧
      done.1.files.content? [bytes "a.ts"] =
        some (bytes "import \x7b use \x7d from './lib';\nuse();") := by
  have hok : (Job.processFile { settings := ⟨bytes "use", bytes "lib"⟩ } (bytes "b")
      { files := linkedSource }).2.2 = none := by cbv
  have hfile : linkedSource.fileNames? (bytes "b") = some [bytes "a.ts"] := by cbv
  have hheld : linkedSource.content? [bytes "a.ts"] = some (bytes "use();") := by cbv
  have hresult : Job.ensure { settings := ⟨bytes "use", bytes "lib"⟩ } linkedSource
      (Path.parent (bytes "b")) (lines (bytes "use();")) =
        .ok ⟨[bytes "import \x7b use \x7d from './lib';", bytes "use();"], true⟩ := by cbv
  intro job done
  obtain ⟨names, before, after, hnames, hbefore, htruth⟩ :=
    processFile_truthful job (bytes "b") { files := linkedSource } (by decide) hok
  obtain rfl := Option.some.inj (hfile.symm.trans hnames)
  obtain rfl := Option.some.inj (hheld.symm.trans hbefore)
  have huses := htruth.usesHelper.2 ⟨[], bytes "();", by decide⟩
  have hinserted := htruth.inserted.2 ⟨huses, by decide⟩
  have hwritten := htruth.written.2 ⟨huses, by decide, by decide⟩
  refine ⟨hok, hinserted, htruth.changed_of_inserted hinserted, hwritten, ?_⟩
  obtain ⟨e, he, rfl⟩ := htruth.ensured huses
  obtain rfl := Except.ok.inj (hresult.symm.trans he)
  have hcontent := htruth.content.content [bytes "a.ts"]
  rw [if_pos rfl, if_pos hwritten] at hcontent
  exact hcontent

end Job

end HelperImports
