import Mathlib
import HelperImports.Proofs.Ensure
import HelperImports.Run.Job

/-! The place of the helper's import, told by the other lines alone. The import is headed for the
index behind the last regular import, or for its own where it may stay; it lands there, or at the
first line that opens a group if that place is behind it and not behind the first line after it that
closes one. All moves on the way are within the lines. -/

namespace HelperImports.Import

/-! ### Ends of imports and groups -/

/-- One past the index of the last regular import, or zero if there is none. -/
def regularEnd (ls : List Bytes) : Nat :=
  (ls.rdropWhile fun l => Kind.ofLine l ≠ .regular).length

/-- The index of `rest` that a line from index `i` is headed for: behind the last regular import,
or further behind if it is a regular import that stands there, or its own if there is no regular
import. -/
def heading (rest : List Bytes) (i : Nat) (line : Bytes) : Nat :=
  if Kind.ofLine line = .regular then max i (regularEnd rest)
  else if ∃ l ∈ rest, Kind.ofLine l = .regular then regularEnd rest
  else i

/-- The index of the first line from `s` on that closes a group, or the number of lines if there is
none. -/
def groupEnd (ls : List Bytes) (s : Nat) : Nat := s + (ls.drop s).findIdx closesGroup

/-- The index `p`, or that of the first line that opens a group if `p` is behind that line and not
behind the end of the group. -/
def landing (ls : List Bytes) (p : Nat) : Nat :=
  match ls.findIdx? opensGroup with
  | none => p
  | some s => if s < p ∧ p ≤ groupEnd ls s then s else p

theorem regularEnd_cons (l : Bytes) (ls : List Bytes) :
    regularEnd (l :: ls) =
      if regularEnd ls = 0 then if Kind.ofLine l = .regular then 1 else 0
      else regularEnd ls + 1 := by
  unfold regularEnd List.rdropWhile
  rw [List.reverse_cons, List.dropWhile_append]
  -- Lines are dropped from the back, so `l` is looked at only if all of `ls` is gone.
  cases hback : ls.reverse.dropWhile fun l => Kind.ofLine l ≠ .regular with
  | nil => by_cases hl : Kind.ofLine l = .regular <;> simp [hl]
  | cons b back => simp

theorem regularEnd_eq (ls : List Bytes) : regularEnd ls = (lastRegular? ls).elim 0 (· + 1) := by
  induction ls with
  | nil => rfl
  | cons l ls ih =>
    rw [regularEnd_cons, ih, lastRegular?]
    cases lastRegular? ls with
    | some i => simp
    | none => by_cases hl : Kind.ofLine l = .regular <;> simp [hl]

theorem exists_regular_iff (ls : List Bytes) :
    (∃ l ∈ ls, Kind.ofLine l = .regular) ↔ (lastRegular? ls).isSome = true := by
  induction ls with
  | nil => simp [lastRegular?]
  | cons l ls ih =>
    rw [List.exists_mem_cons_iff, ih, lastRegular?]
    cases lastRegular? ls with
    | some i => simp
    | none => by_cases hl : Kind.ofLine l = .regular <;> simp [hl]

theorem length_takeWhile_not (f : α → Bool) (ls : List α) :
    (ls.takeWhile fun l => !f l).length = ls.findIdx f := by
  rw [List.takeWhile_eq_take_findIdx_not, List.length_take]
  simp only [Bool.not_not]
  exact Nat.min_eq_left List.findIdx_le_length

theorem group?_eq (ls : List Bytes) :
    group? ls = (ls.findIdx? opensGroup).map fun s => ⟨s, groupEnd ls s⟩ := by
  simp only [group?, groupEnd, length_takeWhile_not]

theorem clearOfGroup_eq_landing (ls : List Bytes) (p : Nat) :
    clearOfGroup ls p = landing ls p := by
  rw [clearOfGroup, landing, group?_eq]
  cases ls.findIdx? opensGroup <;> rfl

theorem behindRegular_eq_heading (rest : List Bytes) (i : Nat) (line : Bytes) :
    behindRegular rest i line = heading rest i line := by
  simp only [behindRegular, heading, regularEnd_eq, exists_regular_iff]
  cases lastRegular? rest <;> simp

theorem slot_eq_landing (rest : List Bytes) (i : Nat) (line : Bytes) :
    slot rest i line = landing rest (heading rest i line) := by
  rw [slot, clearOfGroup_eq_landing, behindRegular_eq_heading]

/-! ### Moves within the lines -/

/-- `afterRegular`, refused if its move is not within the lines. -/
def afterRegular? (ls : List Bytes) (i : Nat) : Option (List Bytes × Nat) :=
  match lastRegular? ls with
  | none => some (ls, i)
  | some last =>
    let target := if i ≤ last then last else last + 1
    (move? ls i target).map (·, target)

/-- `outOfGroup`, refused if its move is not within the lines. -/
def outOfGroup? (ls : List Bytes) (i : Nat) : Option (List Bytes) :=
  match group? ls with
  | none => some ls
  | some g => if g.first ≤ i ∧ i ≤ g.last then move? ls i g.first else some ls

/-- `place`, refused if one of its moves is not within the lines. -/
def place? (helper : Bytes) (ls : List Bytes) : Option (List Bytes) :=
  match helperImport? helper ls with
  | none => some ls
  | some i => do
    let (ls, i) ← afterRegular? ls i
    outOfGroup? ls i

theorem move?_of_lt {ls : List α} {src dst : Nat} (hsrc : src < ls.length)
    (hdst : dst < ls.length) : move? ls src dst = some (move ls src dst) := by
  have hrange : (0 : Int) ≤ src ∧ (src : Int) < ls.length ∧ (0 : Int) ≤ dst ∧
      (dst : Int) < ls.length := by omega
  rw [move?, if_pos hrange, Int.toNat_natCast, Int.toNat_natCast]

theorem length_move {ls : List α} {src dst : Nat} (hsrc : src < ls.length)
    (hdst : dst < ls.length) : (move ls src dst).length = ls.length := by
  have herase := List.length_eraseIdx_of_lt hsrc
  rw [move, List.getElem?_eq_getElem hsrc]
  dsimp only
  rw [List.length_insertIdx_of_le_length (by omega)]
  omega

/-- The first move is within the lines, and so is the index that it gives. -/
theorem afterRegular?_of_lt {ls : List Bytes} {i : Nat} (hi : i < ls.length) :
    afterRegular? ls i = some (afterRegular ls i) ∧
      (afterRegular ls i).2 < (afterRegular ls i).1.length := by
  unfold afterRegular? afterRegular
  cases hlast : lastRegular? ls with
  | none => exact ⟨rfl, hi⟩
  | some last =>
    have hlt := lastRegular?_lt hlast
    have htarget : (if i ≤ last then last else last + 1) < ls.length := by
      split <;> omega
    dsimp only
    rw [move?_of_lt hi htarget, length_move hi htarget]
    exact ⟨rfl, htarget⟩

/-- The second move goes back, so it is within the lines as well. -/
theorem outOfGroup?_of_lt {ls : List Bytes} {i : Nat} (hi : i < ls.length) :
    outOfGroup? ls i = some (outOfGroup ls i) := by
  unfold outOfGroup? outOfGroup
  cases group? ls with
  | none => rfl
  | some g =>
    dsimp only
    split
    · rename_i hin
      exact move?_of_lt hi (Nat.lt_of_le_of_lt hin.1 hi)
    · rfl

theorem place?_eq (helper : Bytes) (ls : List Bytes) :
    place? helper ls = some (place helper ls) := by
  unfold place? place
  cases hi : helperImport? helper ls with
  | none => rfl
  | some i =>
    obtain ⟨hlt, -⟩ := List.findIdx?_eq_some_iff_getElem.1 hi
    obtain ⟨hfirst, hin⟩ := afterRegular?_of_lt hlt
    simp only [hfirst, Option.bind_eq_bind, Option.bind_some]
    exact outOfGroup?_of_lt hin

/-! ### Placing in one formula -/

/-- Placing makes no move outside the lines, and changes nothing if no line imports the helper.
Otherwise it takes the first import out and puts it back where it is headed for among the other
lines, or in front of their first group if that is inside it. -/
theorem place_closed_form (helper : Bytes) (ls : List Bytes) :
    place? helper ls = some (place helper ls) ∧
    ((∀ l ∈ ls, importsHelper helper l = false) → place helper ls = ls) ∧
    ∀ i line, ls.findIdx? (importsHelper helper) = some i → ls[i]? = some line →
      let rest := ls.eraseIdx i
      place helper ls = rest.insertIdx (landing rest (heading rest i line)) line := by
  refine ⟨place?_eq helper ls, fun hno => ?_, fun i line hi hline => ?_⟩
  · exact place_of_helperImport?_eq_none (helperImport?_eq_none_iff.2 hno)
  · obtain ⟨rest, line', hle, rfl, -⟩ := exists_insertIdx_of_helperImport? hi
    obtain rfl : line' = line := by
      rw [List.getElem?_insertIdx_self, if_pos hle] at hline
      exact Option.some.inj hline
    rw [List.eraseIdx_insertIdx_self line', place_insertIdx hle hi, slot_eq_landing]

/-- A line inside a group, indented and with the ending of a group: a regular import that follows
draws it out at the end, and the group, which nothing else closes, sends it back to its front. -/
theorem place_closed_form_openGroup :
    let line := bytes "  import type \x7b use \x7d from '../types';"
    let before := [bytes "import a from 'a';", bytes "import type \x7b"]
    let after := [bytes "  A,", bytes "\x7d from './b';", bytes "import b from 'b';"]
    place (bytes "use") (before ++ line :: after) =
      bytes "import a from 'a';" :: line :: bytes "import type \x7b" :: after := by
  intro line before after
  obtain ⟨-, -, hplace⟩ := place_closed_form (bytes "use") (before ++ line :: after)
  rw [hplace 2 line (by decide) (by decide)]
  decide

/-! ### Adding the statement in one formula -/

/-- The statement is a regular import, whatever the helper and the specifier are. -/
theorem ofLine_statement (helper specifier : Bytes) :
    Kind.ofLine (statement helper specifier) = .regular := by
  have hopen : bytes "import \x7b " = keyword ++ [0x7B, 0x20] := by decide
  have htype : typeKeyword = keyword ++ bytes "type " := by decide
  have hregular : keyword.isPrefixOf (statement helper specifier) = true := by
    rw [List.isPrefixOf_iff_prefix, statement, hopen]
    simp only [List.append_assoc]
    exact List.prefix_append _ _
  have hnotType : typeKeyword.isPrefixOf (statement helper specifier) = false := by
    rw [Bool.eq_false_iff, Ne, List.isPrefixOf_iff_prefix, statement, hopen, htype]
    simp only [List.append_assoc, List.prefix_append_right_inj]
    intro h
    have hhead : (0x74 : UInt8) = 0x7B := (List.cons_prefix_cons.1 h).1
    exact absurd hhead (by decide)
  rw [Kind.ofLine, hnotType, hregular]
  rfl

theorem heading_statement (rest : List Bytes) (i : Nat) (helper specifier : Bytes) :
    heading rest i (statement helper specifier) = max i (regularEnd rest) := by
  rw [heading, if_pos (ofLine_statement helper specifier)]

/-- The only import of the helper lands where it is headed for, or in front of the first group, and
there it is found. -/
theorem place_only {helper line : Bytes} {rest : List Bytes} {i : Nat}
    (hno : helperImport? helper rest = none) (hi : i ≤ rest.length)
    (hline : importsHelper helper line = true) :
    let pos := landing rest (heading rest i line)
    place helper (rest.insertIdx i line) = rest.insertIdx pos line ∧
      helperImport? helper (rest.insertIdx pos line) = some pos := by
  intro pos
  have hpos : slot rest i line = pos := slot_eq_landing rest i line
  have hle : pos ≤ rest.length := hpos ▸ slot_le line hi
  refine ⟨?_, helperImport?_insertIdx hno hle hline⟩
  rw [place_insertIdx hi (helperImport?_insertIdx hno hi hline), hpos]

/-- Where no line imports the helper, the statement is added behind the leading imports and all
regular ones, or in front of the first group if that is inside it. -/
theorem ensure_adds {helper : Bytes} {specifier : Except ε Bytes} {ls : List Bytes} {e : Ensured}
    (hno : helperImport? helper ls = none) (h : ensure helper specifier ls = .ok e) :
    ∃ s, specifier = .ok s ∧
      let pos := landing ls (max (runLength ls) (regularEnd ls))
      e = ⟨ls.insertIdx pos (statement helper s), true⟩ ∧
        helperImport? helper (ls.insertIdx pos (statement helper s)) = some pos := by
  rcases ensure_cases h with ⟨i, hi, -⟩ | ⟨-, s, hs, rfl⟩
  · rw [hno] at hi
    cases hi
  · obtain ⟨hplace, hpos⟩ := place_only hno (runLength_le ls) (importsHelper_statement helper s)
    rw [heading_statement] at hplace hpos
    refine ⟨s, hs, ?_, hpos⟩
    rw [insert, hplace]

end HelperImports.Import

namespace HelperImports

/-- The way to the module cannot be told if and only if one of the paths is relative and nobody
knows to what. -/
theorem Specifier.between_eq_error_iff {here : Except ε Bytes} {dir module : Bytes} {f : ε} :
    Specifier.between here dir module = .error f ↔
      (Path.isRooted dir = false ∨ Path.isRooted module = false) ∧ here = .error f := by
  unfold Specifier.between Path.absolute
  cases here <;> cases Path.isRooted dir <;> cases Path.isRooted module <;>
    simp [bind, Except.bind, pure, Except.pure]

namespace Import

theorem ensure_eq_error_iff {helper : Bytes} {specifier : Except ε Bytes} {ls : List Bytes}
    {f : ε} : ensure helper specifier ls = .error f ↔
      (∀ l ∈ ls, importsHelper helper l = false) ∧ specifier = .error f := by
  rw [← helperImport?_eq_none_iff, ensure]
  cases helperImport? helper ls with
  | some i => simp
  | none => cases specifier <;> simp [bind, Except.bind, pure, Except.pure]

end Import

namespace Job

open Import

/-- Ensuring the import, from end to end. It fails only if no line imports the helper and a relative
path is met while the working directory is not known. Otherwise a line is added if and only if there
was no import: one statement, at the index behind the leading imports and all regular ones, or in
front of the first group if that is inside it, and it is the only import of the helper. Where there
was one, the lines are placed and stay as many. -/
theorem ensure_closed_form (job : Job) (fs : FileSystem) (dir : Bytes) (ls : List Bytes) :
    let helper := job.settings.helper
    let bindings := job.settings.bindings
    (∀ f, job.ensure fs dir ls = .error f ↔
      (∀ l ∈ ls, importsHelper helper l = false) ∧
      (Path.isRooted dir = false ∨ Path.isRooted bindings = false) ∧
      fs.workingDirectory = .error f) ∧
    ∀ e, job.ensure fs dir ls = .ok e →
      (e.inserted = true ↔ ∀ l ∈ ls, importsHelper helper l = false) ∧
      (e.inserted = true → ∃ specifier,
        Specifier.between fs.workingDirectory dir bindings = .ok specifier ∧
        e.lines = ls.insertIdx (landing ls (max (runLength ls) (regularEnd ls)))
          (statement helper specifier) ∧
        e.lines.filter (importsHelper helper) = [statement helper specifier]) ∧
      (e.inserted = false → e.lines = place helper ls ∧ e.lines.length = ls.length) := by
  intro helper bindings
  refine ⟨fun f => ?_, fun e he => ?_⟩
  · rw [Job.ensure, ensure_eq_error_iff, Specifier.between_eq_error_iff]
  · rw [Job.ensure] at he
    rcases ensure_cases he with ⟨i, hi, rfl⟩ | ⟨hno, specifier, hspecifier, rfl⟩
    · have himported : ¬ ∀ l ∈ ls, importsHelper helper l = false := by
        rw [← helperImport?_eq_none_iff, hi]
        simp
      refine ⟨by simpa using himported, fun h => absurd h (by simp), fun _ => ⟨rfl, ?_⟩⟩
      exact (place_perm helper ls).length_eq
    · have hnone := helperImport?_eq_none_iff.1 hno
      refine ⟨by simpa using hnone, fun _ => ⟨specifier, hspecifier, ?_, ?_⟩,
        fun h => absurd h (by simp)⟩
      · have himports := importsHelper_statement helper specifier
        rw [Import.insert, (place_only hno (runLength_le ls) himports).1, heading_statement]
      · exact filter_place_insert specifier hnone

/-- The leading imports end inside a group, so the statement is added in front of it. -/
theorem ensure_closed_form_group :
    let job : Job := { settings := ⟨bytes "use", bytes "lib"⟩ }
    let ls :=
      [bytes "import type \x7b", bytes "  A,", bytes "\x7d from '../types';", bytes "use();"]
    ∃ e, job.ensure {} (bytes "src") ls = .ok e ∧
      e.lines = statement (bytes "use") (bytes "../lib") :: ls := by
  intro job ls
  obtain ⟨herror, hok⟩ := ensure_closed_form job {} (bytes "src") ls
  cases he : job.ensure {} (bytes "src") ls with
  | error f => cases ((herror f).1 he).2.2
  | ok e =>
    obtain ⟨hinserted, hadded, -⟩ := hok e he
    obtain ⟨specifier, hspecifier, hlines, -⟩ := hadded (hinserted.2 (by decide))
    obtain rfl : bytes "../lib" = specifier := by
      have hway : Specifier.between (FileSystem.workingDirectory {}) (bytes "src") (bytes "lib") =
          .ok (bytes "../lib") := by cbv
      exact Except.ok.inj (hway.symm.trans hspecifier)
    have hlanding : landing ls (max (runLength ls) (regularEnd ls)) = 0 := by decide
    refine ⟨e, rfl, ?_⟩
    rw [hlines, hlanding, List.insertIdx_zero]

end Job

end HelperImports
