import Mathlib
import HelperImports.Proofs.Body
import HelperImports.Proofs.LastRegular
import HelperImports.Proofs.Pieces
import HelperImports.Proofs.Report
import HelperImports.Proofs.Stability

/-! The added import in a preview. The statement is no line of the file yet, so what the old and the
new lines share at their two ends is everything but the statement, and no kept stretch next to it
can make it slide. The preview of such an edit is one added line. -/

namespace HelperImports

namespace EditScript

/-! ### One new item -/

section

variable [DecidableEq α] {front back : List α} {x : α}

theorem commonPrefix_append_self (xs ys : List α) : commonPrefix xs (xs ++ ys) = xs := by
  induction xs with
  | nil => cases ys <;> rfl
  | cons x xs ih => simp [commonPrefix, ih]

theorem commonPrefix_insert (front : List α) (hback : x ∉ back) :
    commonPrefix (front ++ back) (front ++ x :: back) = front := by
  induction front with
  | nil =>
    cases back with
    | nil => rfl
    | cons b back =>
      have hne : b ≠ x := fun h => hback (h ▸ List.mem_cons_self)
      simp [commonPrefix, hne]
  | cons a front ih => simpa [commonPrefix] using ih

theorem commonSuffix_cons_self (x : α) (back : List α) : commonSuffix back (x :: back) = back := by
  simp [commonSuffix, commonPrefix_append_self]

/-- Without what they share at their ends, nothing is left of the old sequence, and the new item of
the new one. -/
theorem plan_insert (front : List α) (hback : x ∉ back) :
    let e := Ends.of (front ++ back) (front ++ x :: back)
    e.front = front ∧ e.back = back ∧ plan e.mid₁ e.mid₂ = .inl [⟨.insert, [x]⟩] := by
  intro e
  have hfront : e.front = front := commonPrefix_insert front hback
  have hrest₁ : afterPrefix e.front (front ++ back) = back := by simp [afterPrefix, hfront]
  have hrest₂ : afterPrefix e.front (front ++ x :: back) = x :: back := by
    simp [afterPrefix, hfront]
  have hsuffix : e.back = commonSuffix (afterPrefix e.front (front ++ back))
      (afterPrefix e.front (front ++ x :: back)) := rfl
  rw [hrest₁, hrest₂, commonSuffix_cons_self] at hsuffix
  have hmid₁ : e.mid₁ = [] := by
    show beforeSuffix e.back (afterPrefix e.front (front ++ back)) = []
    simp [hrest₁, hsuffix, beforeSuffix]
  have hmid₂ : e.mid₂ = [x] := by
    show beforeSuffix e.back (afterPrefix e.front (front ++ x :: back)) = [x]
    simp [hrest₂, hsuffix, beforeSuffix]
  refine ⟨hfront, hsuffix, ?_⟩
  simp [plan, hmid₁, hmid₂]

/-- One new item between two kept stretches is tidy, since it stands in neither. -/
theorem tidy_insert (hfront : x ∉ front) (hback : x ∉ back) :
    tidy (kept front ++ [⟨.insert, [x]⟩] ++ kept back) =
      kept front ++ ⟨.insert, [x]⟩ :: kept back := by
  have hgather : gather {} (kept front ++ [⟨.insert, [x]⟩] ++ kept back) =
      kept front ++ ⟨.insert, [x]⟩ :: kept back := by
    cases front <;> cases back <;> simp [kept, gather, Gathered.settle, held]
  have hslide : (slideEdits (kept front ++ ⟨.insert, [x]⟩ :: kept back)).2 = false := by
    cases front with
    | nil => cases back <;> simp [kept, slideEdits]
    | cons a front =>
      cases back with
      | nil => simp [kept, slideEdits]
      | cons b back =>
        -- The item would slide over a stretch that it ends or begins with.
        have hback' : ¬ b :: back <+: [x] := by
          intro h
          obtain rfl := List.mem_singleton.1 (h.subset List.mem_cons_self)
          exact hback List.mem_cons_self
        have hfront' : ¬ a :: front <:+ [x] := by
          intro h
          obtain rfl := List.mem_singleton.1 (h.subset List.mem_cons_self)
          exact hfront List.mem_cons_self
        rw [← List.isPrefixOf_iff_prefix] at hback'
        rw [← List.isSuffixOf_iff_suffix] at hfront'
        simp [kept, slideEdits, hfront', hback']
  -- Nothing is gathered and nothing slides, so tidying is over after the first round.
  rw [tidy]
  simp only [hgather, hslide, Bool.false_eq_true, dite_false]

/-- The script that leads to a sequence with one new item inserts it and keeps the rest. -/
theorem between_insert (hfront : x ∉ front) (hback : x ∉ back) :
    between (front ++ back) (front ++ x :: back) =
      kept front ++ ⟨.insert, [x]⟩ :: kept back := by
  have hne : front ++ back ≠ front ++ x :: back := by
    intro h
    have := congrArg List.length h
    simp at this
  obtain ⟨hf, hb, hplan⟩ := plan_insert front hback
  rw [between, if_neg hne]
  simp only [hplan, hf, hb]
  exact tidy_insert hfront hback

end

end EditScript

/-! ### One new line -/

theorem terminatedLines_append_newline {l : Bytes} (hl : newline ∉ l) (text : Bytes) :
    terminatedLines (l ++ newline :: text) = (l ++ [newline]) :: terminatedLines text := by
  induction l with
  | nil => simp [terminatedLines]
  | cons b l ih =>
    simp only [List.mem_cons, not_or] at hl
    rw [List.cons_append, terminatedLines, if_neg (Ne.symm hl.1), ih hl.2]
    rfl

theorem terminatedLines_unlines_append {front back : List Bytes}
    (hfront : ∀ l ∈ front, newline ∉ l) (hback : back ≠ []) :
    terminatedLines (unlines (front ++ back)) =
      front.map (· ++ [newline]) ++ terminatedLines (unlines back) := by
  induction front with
  | nil => rfl
  | cons l front ih =>
    rw [List.forall_mem_cons] at hfront
    have hrest : front ++ back ≠ [] := by simp [hback]
    rw [List.cons_append, unlines, Bytes.joinWith_cons newline l hrest,
      terminatedLines_append_newline hfront.1]
    show _ :: terminatedLines (unlines (front ++ back)) = _
    rw [ih hfront.2]
    rfl

/-- What stands in front of the newline that ends a line is one of the lines. -/
theorem mem_of_mem_terminatedLines {ls : List Bytes} {l : Bytes} (hls : ∀ l ∈ ls, newline ∉ l)
    (h : l ++ [newline] ∈ terminatedLines (unlines ls)) : l ∈ ls := by
  induction ls with
  | nil => cases h
  | cons first ls ih =>
    rw [List.forall_mem_cons] at hls
    by_cases hlast : ls = []
    · have hin : newline ∈ (terminatedLines (unlines (first :: ls))).flatten :=
        List.mem_flatten.2 ⟨_, h, by simp⟩
      rw [flatten_terminatedLines, hlast, unlines, Bytes.joinWith, List.intercalate_singleton] at hin
      exact absurd hin hls.1
    · rw [unlines, Bytes.joinWith_cons newline first hlast,
        terminatedLines_append_newline hls.1] at h
      rcases List.mem_cons.1 h with heq | h
      · rw [List.append_cancel_right heq]
        exact List.mem_cons_self
      · exact List.mem_cons_of_mem first (ih hls.2 h)

/-- The script for a new line in front of the last one inserts it and keeps the rest. -/
theorem lineScript_insertIdx {ls : List Bytes} {line : Bytes} {pos : Nat}
    (hls : ∀ l ∈ ls, newline ∉ l) (hline : newline ∉ line) (hnew : line ∉ ls)
    (hpos : pos < ls.length) :
    ∃ front back, lineScript (unlines ls) (unlines (ls.insertIdx pos line)) =
      EditScript.kept front ++ ⟨.insert, [line ++ [newline]]⟩ :: EditScript.kept back := by
  obtain ⟨front, back, rfl, rfl⟩ : ∃ front back, ls = front ++ back ∧ pos = front.length :=
    ⟨ls.take pos, ls.drop pos, (List.take_append_drop pos ls).symm,
      (List.length_take_of_le (Nat.le_of_lt hpos)).symm⟩
  have hback : back ≠ [] := by
    rintro rfl
    simp at hpos
  have hfront : ∀ l ∈ front, newline ∉ l := fun l hl => hls l (List.mem_append_left back hl)
  have hadded : (front ++ back).insertIdx front.length line = front ++ line :: back := by
    rw [Import.insertIdx_append_of_le back line (Nat.le_refl _), List.insertIdx_length_self,
      List.append_assoc, List.singleton_append]
  have hold := terminatedLines_unlines_append hfront hback
  have hafter : terminatedLines (unlines (front ++ line :: back)) = front.map (· ++ [newline]) ++
      (line ++ [newline]) :: terminatedLines (unlines back) := by
    rw [terminatedLines_unlines_append hfront (List.cons_ne_nil line back), unlines,
      Bytes.joinWith_cons newline line hback, terminatedLines_append_newline hline]
    rfl
  have hfresh : line ++ [newline] ∉ terminatedLines (unlines (front ++ back)) := fun h =>
    hnew (mem_of_mem_terminatedLines hls h)
  rw [hold, List.mem_append, not_or] at hfresh
  rw [lineScript, hadded, hold, hafter]
  exact ⟨_, _, EditScript.between_insert hfresh.1 hfresh.2⟩

theorem shownLines_append_newline {line : Bytes} (h : newline ∉ line) :
    shownLines (line ++ [newline]) = [line] := by
  have hdrop : Bytes.dropEnd [newline] (line ++ [newline]) = line := by
    simp [Bytes.dropEnd, List.isSuffixOf_iff_suffix]
  have hline := lines_unlines (List.cons_ne_nil line []) (by simpa using h)
  rw [unlines, Bytes.joinWith, List.intercalate_singleton] at hline
  rw [shownLines, hdrop, hline]

theorem marked_kept (xs : List Bytes) : (EditScript.kept xs).flatMap Rendering.marked = [] := by
  cases xs <;> simp [EditScript.kept, Rendering.marked]

theorem shownCount_kept {op : Op} (hop : op ≠ .equal) (xs : List Bytes) :
    shownCount op (EditScript.kept xs) = 0 := by
  cases xs <;> simp [EditScript.kept, hop.symm]

section

variable {ls : List Bytes} {line : Bytes} {pos : Nat} (hls : ∀ l ∈ ls, newline ∉ l)
  (hline : newline ∉ line) (hnew : line ∉ ls) (hpos : pos < ls.length)
include hls hline hnew hpos

theorem pieces_insertIdx (path : Bytes) :
    Rendering.pieces path (unlines ls) (unlines (ls.insertIdx pos line)) =
      [bytes "--- " ++ path ++ bytes "\n+++ " ++ path ++ bytes "\n",
        bytes "+" ++ line ++ bytes "\n"] := by
  obtain ⟨front, back, hscript⟩ := lineScript_insertIdx hls hline hnew hpos
  rw [Rendering.pieces, hscript, List.flatMap_append, List.flatMap_cons, marked_kept, marked_kept]
  simp [Rendering.marked, Chunk.text, shownLines_append_newline hline]

theorem lineCounts_insertIdx :
    lineCounts (unlines ls) (unlines (ls.insertIdx pos line)) = ⟨1, 0⟩ := by
  obtain ⟨front, back, hscript⟩ := lineScript_insertIdx hls hline hnew hpos
  rw [lineCounts_eq, hscript]
  simp [shownCount_kept, Chunk.text, shownLines_append_newline hline]

end

namespace Import

/-! ### Where the statement is added -/

section

variable {ls : List Bytes} (hne : ls ≠ [])
  (hlast : ∀ l, ls.getLast? = some l → (Kind.ofLine l).isImport = false)
include hne hlast

/-- Lines whose last one is no import do not all belong to the leading imports. -/
theorem runLength_lt : runLength ls < ls.length := by
  have hpos := List.length_pos_iff.2 hne
  by_contra hall
  obtain ⟨l, hl, himport⟩ := (lt_runLength_iff ls (ls.length - 1)).1 (by omega) _ (Nat.le_refl _)
  rw [← List.getLast?_eq_getElem?] at hl
  rw [hlast l hl] at himport
  cases himport

theorem regularEnd_lt : regularEnd ls < ls.length := by
  have hpos := List.length_pos_iff.2 hne
  rw [regularEnd_eq]
  cases hregular : lastRegular? ls with
  | none => exact hpos
  | some last =>
    show last + 1 < ls.length
    have hlt := lastRegular?_lt hregular
    obtain ⟨l, hl, hkind⟩ := (isLastRegular_of_lastRegular? hregular).regular
    by_contra hend
    obtain rfl : last = ls.length - 1 := by omega
    rw [← List.getLast?_eq_getElem?] at hl
    have himport := hlast l hl
    rw [hkind] at himport
    cases himport

theorem landing_lt : landing ls (max (runLength ls) (regularEnd ls)) < ls.length := by
  have hrun := runLength_lt hne hlast
  have hregular := regularEnd_lt hne hlast
  have hle := clearOfGroup_le_self ls (max (runLength ls) (regularEnd ls))
  rw [clearOfGroup_eq_landing] at hle
  omega

/-- Where no line imports the helper and the last is no import, the statement is added in front of
the last line. -/
theorem ensure_adds_before_last {helper specifier : Bytes}
    (hno : ∀ l ∈ ls, importsHelper helper l = false) :
    ∃ pos < ls.length, ensure helper (.ok specifier : Except ε Bytes) ls =
      .ok ⟨ls.insertIdx pos (statement helper specifier), true⟩ := by
  cases he : ensure helper (.ok specifier : Except ε Bytes) ls with
  | error f => cases (ensure_eq_error_iff.1 he).2
  | ok e =>
    obtain ⟨s, hs, rfl, -⟩ := ensure_adds (helperImport?_eq_none_iff.2 hno) he
    obtain rfl := Except.ok.inj hs
    exact ⟨_, landing_lt hne hlast, rfl⟩

end

/-- The last line of a text that ends in a newline is empty, and so no import. -/
theorem last_not_import_of_newline {text : Bytes} (h : text.getLast? = some newline) :
    ∀ l, (lines text).getLast? = some l → (Kind.ofLine l).isImport = false := by
  intro l hl
  obtain ⟨front, rfl⟩ := List.getLast?_eq_some_iff.1 h
  have hlines : lines (front ++ [newline]) = lines front ++ [[]] :=
    Bytes.splitAt_append_cons newline front []
  rw [hlines, List.getLast?_concat] at hl
  obtain rfl := Option.some.inj hl
  rfl

end Import

namespace Job

open Import

/-- A preview without colors leaves a sink that has room for it with the pieces of the edit. -/
theorem processFile_preview_pieces {job : Job} {path : Bytes} {w : World} {e : Edit}
    {room : Option Nat} {taken : Bytes} (hmode : job.mode = .preview)
    (hplain : job.palette = .plain) (hedit : job.edit w.files path = .ok (some e))
    (hdiffer : e.oldText ≠ e.newText) (hout : w.out = .keep room taken)
    (hroom : w.out.Takes (Rendering.pieces path e.oldText e.newText).length) :
    (job.processFile path w).2.2 = none ∧ (job.processFile path w).1.out.taken =
      taken ++ (Rendering.pieces path e.oldText e.newText).flatten := by
  have hshown : job.shown path (some e) = Rendering.writes .plain path e.oldText e.newText := by
    rw [shown, hplain]
  have htexts := Rendering.text_writes hdiffer path
  have hfirm := Rendering.firm_writes .plain path e.oldText e.newText
  have hok : (w.out.writeAll (Rendering.writes .plain path e.oldText e.newText)).2 = true := by
    rw [Sink.writeAll_iff_takes hfirm, ← List.length_map, htexts]
    exact hroom
  constructor
  · rw [(processFile_preview hmode hedit).2, hshown]
    exact if_pos hok
  · rw [hout] at hok
    obtain ⟨room', hkept⟩ := Sink.writeAll_keep hfirm hok
    rw [out_processFile_preview hmode hedit, hshown, hout, hkept, List.flatMap_def, htexts]
    rfl

/-- A preview without colors of a file that mentions the helper, does not import it and does not end
in an import shows one added line, the statement, and the edit counts as one line added and none
removed. -/
theorem processFile_previews_statement {job : Job} {path : Bytes} {w : World} {names : List Bytes}
    {text specifier taken : Bytes} {room : Option Nat} (hmode : job.mode = .preview)
    (hplain : job.palette = .plain) (hnames : w.files.fileNames? path = some names)
    (htext : w.files.content? names = some text) (huses : job.settings.helper <:+: text)
    (hno : ∀ l ∈ lines text, importsHelper job.settings.helper l = false)
    (hlast : ∀ l, (lines text).getLast? = some l → (Kind.ofLine l).isImport = false)
    (hspecifier : Specifier.between w.files.workingDirectory (Path.parent path)
      job.settings.bindings = .ok specifier)
    (hs : newline ∉ specifier) (hh : newline ∉ job.settings.helper)
    (hout : w.out = .keep room taken) (hroom : w.out.Takes 2) :
    let line := statement job.settings.helper specifier
    let done := job.processFile path w
    done.2.2 = none ∧
      done.1.out.taken = taken ++ (bytes "--- " ++ path ++ bytes "\n+++ " ++ path ++ bytes "\n+" ++
        line ++ bytes "\n") ∧
      ∃ pos, job.ensure w.files (Path.parent path) (lines text) =
          .ok ⟨(lines text).insertIdx pos line, true⟩ ∧
        lineCounts text (unlines ((lines text).insertIdx pos line)) = ⟨1, 0⟩ := by
  intro line done
  have hne := lines_ne_nil text
  obtain ⟨pos, hpos, hadds⟩ := ensure_adds_before_last hne hlast hno
  have hensure : job.ensure w.files (Path.parent path) (lines text) =
      .ok ⟨(lines text).insertIdx pos line, true⟩ := by
    rw [Job.ensure, hspecifier]
    exact hadds
  have hls : ∀ l ∈ lines text, newline ∉ l := fun l hl => newline_notMem_of_mem_lines hl
  have hline : newline ∉ line := newline_notMem_statement hh hs
  have hnew : line ∉ lines text := by
    intro hmem
    have hnot := hno line hmem
    rw [importsHelper_statement] at hnot
    cases hnot
  have hcounts := lineCounts_insertIdx hls hline hnew hpos
  have hpieces := pieces_insertIdx hls hline hnew hpos path
  have hdiffer : unlines (lines text) ≠ unlines ((lines text).insertIdx pos line) := by
    intro heq
    exact Nat.ne_of_lt (length_unlines_of_inserted hensure hne rfl) (congrArg List.length heq)
  have hedit : job.edit w.files path =
      .ok (some ⟨lines text, (lines text).insertIdx pos line, true⟩) := by
    rw [edit_of_content? job hnames htext, if_pos ((mentions_lines_iff hh text).2 huses), hensure]
  obtain ⟨hnone, hshown⟩ := processFile_preview_pieces hmode hplain hedit hdiffer hout
    (by rw [Edit.oldText, Edit.newText, hpieces]; exact hroom)
  rw [unlines_lines] at hcounts
  refine ⟨hnone, ?_, pos, hensure, hcounts⟩
  rw [Edit.oldText, Edit.newText, hpieces] at hshown
  have hplus : bytes "\n+" = bytes "\n" ++ bytes "+" := by decide
  rw [hplus]
  simpa using hshown

/-- A source that ends in a newline and imports a type. -/
def typedSource : FileSystem :=
  ({} : FileSystem).put [bytes "a.ts"] (.file (bytes "import type A from 'a';\nuse();\n")) (.file _)

/-- The statement is added between the two lines of the source. -/
theorem processFile_previews_statement_typedSource :
    let job : Job := { settings := ⟨bytes "use", bytes "lib"⟩, mode := .preview }
    let done := job.processFile (bytes "a.ts") { files := typedSource }
    done.2.2 = none ∧ done.1.out.taken =
      bytes "--- a.ts\n+++ a.ts\n+import \x7b use \x7d from './lib';\n" := by
  have hnames : typedSource.fileNames? (bytes "a.ts") = some [bytes "a.ts"] := by cbv
  have htext : typedSource.content? [bytes "a.ts"] =
      some (bytes "import type A from 'a';\nuse();\n") := rfl
  have hspecifier : Specifier.between typedSource.workingDirectory (Path.parent (bytes "a.ts"))
      (bytes "lib") = .ok (bytes "./lib") := rfl
  intro job done
  obtain ⟨hnone, hshown, -⟩ := @processFile_previews_statement job _ { files := typedSource } _ _ _
    _ _ rfl rfl hnames htext ⟨bytes "import type A from 'a';\n", bytes "();\n", by decide⟩
    (by decide) (last_not_import_of_newline (by decide)) hspecifier (by decide) (by decide) rfl
    trivial
  refine ⟨hnone, hshown.trans ?_⟩
  decide

end Job

end HelperImports
