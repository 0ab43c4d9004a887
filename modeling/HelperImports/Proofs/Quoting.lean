import Mathlib
import HelperImports.Proofs.Counts
import HelperImports.Proofs.Relative
import HelperImports.Proofs.Report

/-! The added statement as the text of a file. A helper that passes as an identifier brings neither
a quote nor a newline into it, so what the statement holds of them besides the two quotes of its own
comes from the specifier. The specifier is written as it is, and has these bytes where the module's
path has them behind the last directory that it shares with the importing file's. -/

namespace HelperImports

/-- The byte on both sides of a specifier. -/
def singleQuote : UInt8 := 0x27

/-! ### Identifiers in ASCII -/

theorem Rune.le_of_tailBits? {lo hi n : Nat} {b : UInt8} (h : tailBits? lo hi b = some n) :
    lo ≤ b.toNat := by
  unfold tailBits? at h
  split at h
  · rename_i hrange
    exact hrange.1
  · cases h

/-- A character is written as one byte below `0x80`, or in bytes from there on. -/
theorem Rune.leading?_cases {first : UInt8} {rest : Bytes} {code more : Nat}
    (h : leading? (first :: rest) = some (code, more)) :
    (code = first.toNat ∧ more = 0) ∨ ∀ b ∈ first :: rest.take more, 0x80 ≤ b.toNat := by
  unfold leading? at h
  simp only [Option.bind_eq_bind, Option.pure_def] at h
  split at h
  · obtain ⟨rfl, rfl⟩ := Prod.mk.inj (Option.some.inj h)
    exact .inl ⟨rfl, rfl⟩
  rename_i hfirst
  refine .inr ?_
  split at h
  · split at h
    · obtain ⟨x, hx, h⟩ := Option.bind_eq_some_iff.1 h
      obtain ⟨-, rfl⟩ := Prod.mk.inj (Option.some.inj h)
      have hb := le_of_tailBits? hx
      simpa using ⟨by omega, hb⟩
    · cases h
  split at h
  · split at h
    · obtain ⟨x, hx, h⟩ := Option.bind_eq_some_iff.1 h
      obtain ⟨y, hy, h⟩ := Option.bind_eq_some_iff.1 h
      obtain ⟨-, rfl⟩ := Prod.mk.inj (Option.some.inj h)
      have hb := le_of_tailBits? hx
      have hc := le_of_tailBits? hy
      have hlow : 0x80 ≤ if first.toNat = 0xE0 then 0xA0 else 0x80 := by split <;> omega
      simpa using ⟨by omega, hlow.trans hb, hc⟩
    · cases h
  split at h
  · split at h
    · obtain ⟨x, hx, h⟩ := Option.bind_eq_some_iff.1 h
      obtain ⟨y, hy, h⟩ := Option.bind_eq_some_iff.1 h
      obtain ⟨z, hz, h⟩ := Option.bind_eq_some_iff.1 h
      obtain ⟨-, rfl⟩ := Prod.mk.inj (Option.some.inj h)
      have hb := le_of_tailBits? hx
      have hc := le_of_tailBits? hy
      have hd := le_of_tailBits? hz
      have hlow : 0x80 ≤ if first.toNat = 0xF0 then 0x90 else 0x80 := by split <;> omega
      simpa using ⟨by omega, hlow.trans hb, hc, hd⟩
    · cases h
  · cases h

/-- A byte below `0x80` is a character of its own. -/
theorem char?_of_mem_encoding {text : Bytes} {r : Rune} {b : UInt8} (h : r ∈ runes text)
    (hb : b ∈ r.encoding) (hascii : b.toNat < 0x80) : r.char? = some (Char.ofNat b.toNat) := by
  unfold runes at h
  generalize 0 = skip at h
  fun_induction runesFrom skip text with
  | case1 => cases h
  | case2 skip b rest ih => exact ih h
  | case3 first rest code more hlead ih =>
    rcases List.mem_cons.1 h with rfl | h
    · rcases Rune.leading?_cases hlead with ⟨rfl, rfl⟩ | hlarge
      · obtain rfl : b = first := by simpa using hb
        rfl
      · have hbig := hlarge b hb
        omega
    · exact ih h
  | case4 first rest hlead ih =>
    rcases List.mem_cons.1 h with rfl | h
    · obtain rfl : b = first := by simpa using hb
      simp [Rune.leading?, hascii] at hlead
    · exact ih h

theorem isIdentifierPart_of_mem {text : Bytes} {b : UInt8} (h : isIdentifier text = true)
    (hb : b ∈ text) (hascii : b.toNat < 0x80) : isIdentifierPart (Char.ofNat b.toNat) = true := by
  rw [← unrunes_runes text, unrunes, List.mem_flatMap] at hb
  obtain ⟨r, hr, hb⟩ := hb
  have hchar := char?_of_mem_encoding hr hb hascii
  rw [isIdentifier, Bool.and_eq_true] at h
  cases hrunes : runes text with
  | nil => simp [hrunes] at hr
  | cons first rest =>
    simp only [hrunes, Bool.and_eq_true, List.all_eq_true] at h hr
    rcases List.mem_cons.1 hr with rfl | hr
    · have hstart : isIdentifierStart (Char.ofNat b.toNat) = true := by simpa [hchar] using h.2.1
      rw [isIdentifierPart, hstart, Bool.true_or]
    · simpa [hchar] using h.2.2 r hr

theorem notMem_of_isIdentifier {text : Bytes} (h : isIdentifier text = true) :
    newline ∉ text ∧ singleQuote ∉ text := by
  have hnewline : isIdentifierPart (Char.ofNat newline.toNat) = false := by decide +kernel
  have hquote : isIdentifierPart (Char.ofNat singleQuote.toNat) = false := by decide +kernel
  constructor
  · intro hmem
    rw [isIdentifierPart_of_mem h hmem (by decide)] at hnewline
    cases hnewline
  · intro hmem
    rw [isIdentifierPart_of_mem h hmem (by decide)] at hquote
    cases hquote

theorem Settings.isIdentifier_of_validate {s : Settings} (h : s.validate = .ok ()) :
    isIdentifier s.helper = true := by
  unfold validate at h
  by_contra hhelper
  rw [if_pos (by simpa using hhelper)] at h
  cases h

/-! ### Bytes of a statement and its specifier -/

theorem Import.count_statement (b : UInt8) (helper specifier : Bytes) :
    (statement helper specifier).count b =
      (statement [] []).count b + helper.count b + specifier.count b := by
  simp only [statement, List.count_append, List.count_nil]
  omega

theorem Bytes.mem_joinWith {mark b : UInt8} (hb : b ≠ mark) {pieces : List Bytes} :
    b ∈ joinWith mark pieces ↔ ∃ piece ∈ pieces, b ∈ piece := by
  induction pieces with
  | nil => simp [joinWith]
  | cons piece pieces ih =>
    by_cases hlast : pieces = []
    · simp [hlast, joinWith]
    · rw [joinWith_cons mark piece hlast, List.mem_append, List.mem_cons, ih,
        List.exists_mem_cons_iff, or_iff_right hb]

namespace Specifier

open HelperImports.Path

section

variable {b : UInt8} (hslash : b ≠ slash) (hdot : b ≠ 0x2E) (hback : b ≠ 0x5C)
include hslash hdot

theorem mem_spell_false {ns : List Bytes} : b ∈ spell false ns ↔ ∃ n ∈ ns, b ∈ n := by
  cases ns with
  | nil =>
    have hhere : dot = [0x2E] := by decide
    simp [spell, hhere, hdot]
  | cons n ns =>
    show b ∈ Bytes.joinWith slash (n :: ns) ↔ _
    exact Bytes.mem_joinWith hslash

include hback

theorem mem_ofPath (path : Bytes) : b ∈ ofPath path ↔ b ∈ path := by
  have hslashed : b ∈ slashed path ↔ b ∈ path := by
    simp only [slashed, List.mem_map]
    constructor
    · rintro ⟨c, hc, rfl⟩
      split at hslash
      · exact absurd rfl hslash
      · rename_i hplain
        rwa [if_neg hplain]
    · exact fun hb => ⟨b, hb, if_neg hback⟩
  have hfront : b ∉ bytes "./" := by
    rw [show bytes "./" = [0x2E, slash] by decide]
    simp [hslash, hdot]
  rw [ofPath_eq]
  split
  · exact hslashed
  · rw [List.mem_append, hslashed, or_iff_right hfront]

end

/-- A specifier holds a byte other than slashes, dots and backslashes if and only if a name of the
module's path does that stands behind the last directory shared with the importing file's. -/
theorem mem_between_iff {here : Except ε Bytes} {dir module specifier : Bytes}
    (hhere : ∀ wd, here = .ok wd → isRooted wd = true)
    (h : between here dir module = .ok specifier) :
    ∃ base target common up down, absolute here dir = .ok base ∧
      absolute here module = .ok target ∧ Parting (names base) (names target) common up down ∧
      ∀ b, b ≠ slash → b ≠ 0x2E → b ≠ 0x5C → (b ∈ specifier ↔ ∃ name ∈ down, b ∈ name) := by
  obtain ⟨base, target, hbase, htarget, rfl⟩ := exists_absolute_of_between h
  obtain ⟨p, hp, rfl⟩ := exists_clean_of_absolute hhere hbase
  obtain ⟨q, hq, rfl⟩ := exists_clean_of_absolute hhere htarget
  obtain ⟨common, up, down, hparting, hroute⟩ := exists_parting (names (clean p)) (names (clean q))
  refine ⟨_, _, common, up, down, hbase, htarget, hparting, fun b hslash hdot hback => ?_⟩
  rw [mem_ofPath hslash hdot hback, relative_clean hp hq, mem_spell_false hslash hdot, hroute]
  simp only [List.mem_append, or_and_right, exists_or]
  refine or_iff_right ?_
  rintro ⟨name, hname, hmem⟩
  rw [List.eq_of_mem_replicate hname] at hmem
  exact forall_mem_dotDot (P := (b ≠ ·)) hdot b hmem rfl

end Specifier

theorem FileSystem.isRooted_workingDirectory {fs : FileSystem} {wd : Bytes}
    (h : fs.workingDirectory = .ok wd) : Path.isRooted wd = true := by
  unfold workingDirectory at h
  split at h
  · obtain rfl := Except.ok.inj h
    rfl
  · cases h

/-! ### Lines of a text with a statement in it -/

theorem count_unlines {ls : List Bytes} (hne : ls ≠ []) :
    (unlines ls).count newline + 1 = (ls.map fun l => l.count newline + 1).sum := by
  induction ls with
  | nil => exact absurd rfl hne
  | cons l ls ih =>
    by_cases hlast : ls = []
    · simp [hlast, unlines, Bytes.joinWith]
    · have hrest := ih hlast
      rw [unlines, Bytes.joinWith_cons newline l hlast, List.count_append, List.count_cons_self,
        List.map_cons, List.sum_cons]
      rw [unlines] at hrest
      omega

theorem insertIdx_ne_nil {ls : List α} {pos : Nat} (l : α) (hpos : pos ≤ ls.length) :
    ls.insertIdx pos l ≠ [] := by
  apply List.ne_nil_of_length_pos
  rw [List.length_insertIdx_of_le_length hpos]
  omega

/-- A text that is put among lines adds a line, and one more for every newline in it. -/
theorem length_lines_insertIdx {ls : List Bytes} {pos : Nat} (line : Bytes)
    (hls : ∀ l ∈ ls, newline ∉ l) (hpos : pos ≤ ls.length) :
    (lines (unlines (ls.insertIdx pos line))).length = ls.length + 1 + line.count newline := by
  have hperm := List.perm_insertIdx line ls hpos
  have hsum : (ls.map fun l => l.count newline + 1).sum = ls.length := by
    have hone : (ls.map fun l => l.count newline + 1) = ls.map fun _ => 1 :=
      List.map_congr_left fun l hl => by rw [List.count_eq_zero_of_not_mem (hls l hl)]
    rw [hone]
    simp
  rw [length_lines, count_unlines (insertIdx_ne_nil line hpos),
    (hperm.map _).sum_eq, List.map_cons, List.sum_cons, hsum]
  omega

namespace Import

theorem landing_le (ls : List Bytes) :
    landing ls (max (runLength ls) (regularEnd ls)) ≤ ls.length := by
  have hregular : regularEnd ls ≤ ls.length := (List.rdropWhile_prefix _ ls).length_le
  rw [← clearOfGroup_eq_landing]
  exact clearOfGroup_le (max_le (runLength_le ls) hregular)

/-- The lines `after` are the lines `before` with one statement for `specifier` more: it is a line
of its own, and its only quotes are the two on both sides of the specifier. -/
structure OneStatement (before after : List Bytes) (pos : Nat) (line specifier : Bytes) : Prop where
  inserted : after = before.insertIdx pos line
  longer : after.length = before.length + 1
  quotes : line.count singleQuote = 2
  delimits : ∃ front back, line = front ++ singleQuote :: specifier ++ singleQuote :: back ∧
    singleQuote ∉ front ∧ singleQuote ∉ specifier ∧ singleQuote ∉ back

/-- Text for a statement reads as one where the specifier has neither a newline nor a quote. -/
theorem oneStatement_iff {helper specifier : Bytes} {before : List Bytes} {pos : Nat}
    (hnewline : newline ∉ helper) (hquote : singleQuote ∉ helper)
    (hls : ∀ l ∈ before, newline ∉ l) (hpos : pos ≤ before.length) :
    OneStatement before (lines (unlines (before.insertIdx pos (statement helper specifier)))) pos
        (statement helper specifier) specifier ↔
      newline ∉ specifier ∧ singleQuote ∉ specifier := by
  have hlines := length_lines_insertIdx (statement helper specifier) hls hpos
  have hquotes := count_statement singleQuote helper specifier
  rw [count_statement, List.count_eq_zero_of_not_mem hnewline,
    show (statement [] []).count newline = 0 by decide] at hlines
  rw [List.count_eq_zero_of_not_mem hquote,
    show (statement [] []).count singleQuote = 2 by decide] at hquotes
  constructor
  · intro h
    have hlonger := h.longer
    have htwo := h.quotes
    exact ⟨List.count_eq_zero.1 (by omega), List.count_eq_zero.1 (by omega)⟩
  · rintro ⟨hplain, hclear⟩
    rw [List.count_eq_zero_of_not_mem hplain] at hlines
    rw [List.count_eq_zero_of_not_mem hclear] at hquotes
    refine ⟨?_, hlines, hquotes, ?_⟩
    · refine lines_unlines (insertIdx_ne_nil _ hpos) fun l hl => ?_
      rcases (List.mem_insertIdx hpos).1 hl with rfl | hl
      · exact newline_notMem_statement hnewline hplain
      · exact hls l hl
    · have hopen : bytes " \x7d from '" = bytes " \x7d from " ++ [singleQuote] := by decide
      have hclose : bytes "';" = singleQuote :: bytes ";" := by decide
      refine ⟨bytes "import \x7b " ++ helper ++ bytes " \x7d from ", bytes ";", ?_, ?_, hclear,
        by decide⟩
      · simp [statement, hopen, hclose]
      · have h₁ : singleQuote ∉ bytes "import \x7b " := by decide
        have h₂ : singleQuote ∉ bytes " \x7d from " := by decide
        simp [hquote, h₁, h₂]

end Import

namespace Job

open Import HelperImports.Path

/-- A file that gets a statement reads as its lines with the statement put in. -/
theorem readLines_processFile_inserted {job : Job} {path : Bytes} {w : World}
    (hmode : job.mode = .write) (hok : (job.processFile path w).2.2 = none)
    (hinserted : (job.processFile path w).2.1.inserted = true) :
    ∃ text specifier pos, w.files.readLines path = .ok (lines text) ∧ pos ≤ (lines text).length ∧
      Specifier.between w.files.workingDirectory (parent path) job.settings.bindings =
        .ok specifier ∧
      (job.processFile path w).1.files.readLines path =
        .ok (lines (unlines ((lines text).insertIdx pos
          (statement job.settings.helper specifier)))) := by
  obtain ⟨o, hedit⟩ := edit_of_succeeds hok
  rw [(processFile_of_ok hedit hok).1] at hinserted
  cases o with
  | none =>
    rw [finalResult_none] at hinserted
    cases hinserted
  | some e =>
    rw [finalResult_some] at hinserted
    obtain ⟨names, text, ens, hnames, htext, -, hens, rfl⟩ := exists_ensure_of_edit hedit
    have hno := helperImport?_eq_none_iff.2 ((inserted_ensure_iff hens).1 hinserted)
    obtain ⟨specifier, hspecifier, rfl, -⟩ := ensure_adds hno hens
    have hread := FileSystem.readLines_eq_ok_iff.2 ⟨names, text, hnames, htext, rfl⟩
    refine ⟨text, specifier, _, hread, landing_le (lines text), hspecifier, ?_⟩
    rw [readLines_processFile_write hmode hedit hnames hok, if_pos hnames]
    rfl

/-- The statement that a file gets, where the settings are valid. The file read again has its lines
and the text of the statement among them. That is one line more, with two quotes, those on both
sides of the specifier, if and only if no name of the module's path holds a newline or a quote
behind the last directory that it shares with the path of the file. -/
theorem processFile_oneStatement_iff {job : Job} {path : Bytes} {w : World}
    (hvalid : job.settings.validate = .ok ()) (hmode : job.mode = .write)
    (hok : (job.processFile path w).2.2 = none)
    (hinserted : (job.processFile path w).2.1.inserted = true) :
    ∃ before after specifier pos base target common up down,
      w.files.readLines path = .ok before ∧
      (job.processFile path w).1.files.readLines path = .ok after ∧
      Specifier.between w.files.workingDirectory (parent path) job.settings.bindings =
        .ok specifier ∧
      after = lines (unlines (before.insertIdx pos (statement job.settings.helper specifier))) ∧
      absolute w.files.workingDirectory (parent path) = .ok base ∧
      absolute w.files.workingDirectory job.settings.bindings = .ok target ∧
      Parting (names base) (names target) common up down ∧
      (OneStatement before after pos (statement job.settings.helper specifier) specifier ↔
        ∀ name ∈ down, newline ∉ name ∧ singleQuote ∉ name) := by
  obtain ⟨text, specifier, pos, hbefore, hpos, hspecifier, hafter⟩ :=
    readLines_processFile_inserted hmode hok hinserted
  obtain ⟨base, target, common, up, down, hbase, htarget, hparting, hmem⟩ :=
    Specifier.mem_between_iff (fun _ => FileSystem.isRooted_workingDirectory) hspecifier
  obtain ⟨hnewline, hquote⟩ := notMem_of_isIdentifier (Settings.isIdentifier_of_validate hvalid)
  refine ⟨lines text, _, specifier, pos, base, target, common, up, down, hbefore, hafter,
    hspecifier, rfl, hbase, htarget, hparting, ?_⟩
  rw [oneStatement_iff hnewline hquote (fun l hl => newline_notMem_of_mem_lines hl) hpos,
    hmem newline (by decide) (by decide) (by decide),
    hmem singleQuote (by decide) (by decide) (by decide)]
  constructor
  · rintro ⟨hplain, hclear⟩ name hname
    exact ⟨fun hin => hplain ⟨name, hname, hin⟩, fun hin => hclear ⟨name, hname, hin⟩⟩
  · intro h
    constructor
    · rintro ⟨name, hname, hin⟩
      exact (h name hname).1 hin
    · rintro ⟨name, hname, hin⟩
      exact (h name hname).2 hin

/-- Where there is room for the edited text, the write succeeds. -/
theorem processFile_write_of_room {job : Job} {path : Bytes} {w : World} {e : Edit}
    (hmode : job.mode = .write) (hedit : job.edit w.files path = .ok (some e))
    (hroom : w.files.stored e.newText = e.newText) :
    (job.processFile path w).2 = ({ e.result path with written := true }, none) := by
  obtain ⟨names, -, -, hnames, -⟩ := exists_ensure_of_edit hedit
  rw [(processFile_write_some hmode hedit hnames).2, hroom, if_pos rfl]

/-- A source in a directory whose name has a quote and a newline in it. -/
def quotedDirectory : FileSystem :=
  ({} : FileSystem).put [bytes "it's\nit", bytes "a.ts"] (.file (bytes "use(it);")) (.file _)

/-- The name of the file's own directory is not on the way to the module, and does no harm. -/
theorem processFile_oneStatement_quotedDirectory :
    let job : Job := { settings := ⟨bytes "use", bytes "lib"⟩ }
    let done := job.processFile (bytes "it's\nit/a.ts") { files := quotedDirectory }
    ∃ after pos, done.1.files.readLines (bytes "it's\nit/a.ts") = .ok after ∧
      OneStatement [bytes "use(it);"] after pos (bytes "import \x7b use \x7d from '../lib';")
        (bytes "../lib") := by
  intro job done
  have hnames : quotedDirectory.fileNames? (bytes "it's\nit/a.ts") =
      some [bytes "it's\nit", bytes "a.ts"] := by cbv
  have htext : quotedDirectory.content? [bytes "it's\nit", bytes "a.ts"] =
      some (bytes "use(it);") := rfl
  have hensure : job.ensure quotedDirectory (parent (bytes "it's\nit/a.ts"))
      (lines (bytes "use(it);")) = .ok ⟨[bytes "import \x7b use \x7d from '../lib';",
        bytes "use(it);"], true⟩ := by decide +kernel
  have hedit : job.edit quotedDirectory (bytes "it's\nit/a.ts") =
      .ok (some ⟨lines (bytes "use(it);"), [bytes "import \x7b use \x7d from '../lib';",
        bytes "use(it);"], true⟩) := by
    rw [edit_of_content? job hnames htext, if_pos (by decide), hensure]
  have hdone := processFile_write_of_room (w := { files := quotedDirectory }) rfl hedit rfl
  obtain ⟨before, after, specifier, pos, base, target, common, up, down, hbefore, hafter,
    hspecifier, -, -, htarget, hparting, hone⟩ :=
      @processFile_oneStatement_iff job _ { files := quotedDirectory } (by decide +kernel) rfl
        (by rw [hdone]) (by rw [hdone]; rfl)
  obtain rfl : [bytes "use(it);"] = before := by
    have hread := FileSystem.readLines_eq_ok_iff.2 ⟨_, _, hnames, htext, rfl⟩
    exact Except.ok.inj (hread.symm.trans hbefore)
  obtain rfl : bytes "../lib" = specifier := by
    have hlib : Specifier.between quotedDirectory.workingDirectory (parent (bytes "it's\nit/a.ts"))
        (bytes "lib") = .ok (bytes "../lib") := by decide +kernel
    exact Except.ok.inj (hlib.symm.trans hspecifier)
  obtain rfl : bytes "/lib" = target := by
    have hlib : absolute quotedDirectory.workingDirectory (bytes "lib") = .ok (bytes "/lib") := by
      decide +kernel
    exact Except.ok.inj (hlib.symm.trans htarget)
  refine ⟨after, pos, hafter, hone.2 fun name hname => ?_⟩
  have hmem : name ∈ names (bytes "/lib") := by
    rw [hparting.right]
    exact List.mem_append_right common hname
  obtain rfl : name = bytes "lib" := by
    rwa [show names (bytes "/lib") = [bytes "lib"] by decide, List.mem_singleton] at hmem
  decide

/-- A module with a quote in its name passes as a setting, and the statement for it has three
quotes: read as a statement, its specifier ends in the middle of the name. -/
theorem processFile_quotedModule :
    let job : Job := { settings := ⟨bytes "use", bytes "it's"⟩ }
    let done := job.processFile (bytes "a.ts") { files := linkedSource }
    let line := bytes "import \x7b use \x7d from './it's';"
    job.settings.validate = .ok () ∧ done.2.2 = none ∧ done.2.1.inserted = true ∧
      done.1.files.readLines (bytes "a.ts") = .ok [line, bytes "use();"] ∧
      line.count singleQuote = 3 := by
  intro job done line
  have hnames : linkedSource.fileNames? (bytes "a.ts") = some [bytes "a.ts"] := by cbv
  have htext : linkedSource.content? [bytes "a.ts"] = some (bytes "use();") := rfl
  have hensure : job.ensure linkedSource (parent (bytes "a.ts")) (lines (bytes "use();")) =
      .ok ⟨[line, bytes "use();"], true⟩ := by decide +kernel
  have hedit : job.edit linkedSource (bytes "a.ts") =
      .ok (some ⟨lines (bytes "use();"), [line, bytes "use();"], true⟩) := by
    rw [edit_of_content? job hnames htext, if_pos (by decide), hensure]
  have hdone := processFile_write_of_room (w := { files := linkedSource }) rfl hedit rfl
  have hok : done.2.2 = none := by rw [hdone]
  refine ⟨by decide +kernel, hok, by rw [hdone]; rfl, ?_, by decide⟩
  rw [readLines_processFile_write rfl hedit hnames hok, if_pos hnames]
  rfl

end Job

end HelperImports
