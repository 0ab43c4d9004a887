import Mathlib
import HelperImports.Proofs.Position

/-! The body of a file has no say in where the import goes. The search for the first group and for
its end runs through the whole file, so the body may open a group, close one that the imports left
open, or move the end of one that nothing closes. None of this counts: the import is never headed
behind the lines in front of the body, and up to there the group reaches as far with the body as
without it. -/

namespace HelperImports.Import

theorem insertIdx_append_of_le {ls : List α} (tail : List α) {i : Nat} (l : α)
    (hi : i ≤ ls.length) : (ls ++ tail).insertIdx i l = ls.insertIdx i l ++ tail := by
  induction ls generalizing i with
  | nil =>
    obtain rfl : i = 0 := by simpa using hi
    rfl
  | cons a ls ih =>
    cases i with
    | zero => rfl
    | succ i =>
      rw [List.cons_append, List.insertIdx_succ_cons, List.insertIdx_succ_cons, List.cons_append,
        ih (by simpa using hi)]

section

variable {rest tail : List Bytes}

theorem regularEnd_append (htail : ∀ l ∈ tail, Kind.ofLine l ≠ .regular) :
    regularEnd (rest ++ tail) = regularEnd rest := by
  have hdropped : ∀ l ∈ tail.reverse, decide (Kind.ofLine l ≠ .regular) = true := by
    intro l hl
    exact decide_eq_true (htail l (List.mem_reverse.1 hl))
  unfold regularEnd List.rdropWhile
  rw [List.reverse_append, List.dropWhile_append_of_pos hdropped]

theorem heading_append (htail : ∀ l ∈ tail, Kind.ofLine l ≠ .regular) (i : Nat) (line : Bytes) :
    heading (rest ++ tail) i line = heading rest i line := by
  have hexists : (∃ l ∈ rest ++ tail, Kind.ofLine l = .regular) ↔
      ∃ l ∈ rest, Kind.ofLine l = .regular := by
    constructor
    · rintro ⟨l, hl, hregular⟩
      rcases List.mem_append.1 hl with hl | hl
      · exact ⟨l, hl, hregular⟩
      · exact absurd hregular (htail l hl)
    · rintro ⟨l, hl, hregular⟩
      exact ⟨l, List.mem_append_left tail hl, hregular⟩
  simp only [heading, regularEnd_append htail, hexists]

/-- A line of the body can end a group only behind all lines in front of it. -/
theorem le_groupEnd_append_iff {s p : Nat} (hs : s ≤ rest.length) (hp : p ≤ rest.length) :
    p ≤ groupEnd (rest ++ tail) s ↔ p ≤ groupEnd rest s := by
  have hlength : (rest.drop s).length = rest.length - s := List.length_drop
  have hle : (rest.drop s).findIdx closesGroup ≤ (rest.drop s).length := List.findIdx_le_length
  unfold groupEnd
  rw [List.drop_append_of_le_length hs, List.findIdx_append]
  split <;> omega

theorem landing_append {p : Nat} (hp : p ≤ rest.length) :
    landing (rest ++ tail) p = landing rest p := by
  unfold landing
  rw [List.findIdx?_append]
  cases hs : rest.findIdx? opensGroup with
  | some s =>
    obtain ⟨hlt, -⟩ := List.findIdx?_eq_some_iff_getElem.1 hs
    simp only [Option.some_or, le_groupEnd_append_iff (Nat.le_of_lt hlt) hp]
  | none =>
    -- A group that only the body opens begins behind the place.
    cases tail.findIdx? opensGroup with
    | none => rfl
    | some s =>
      have hbehind : ¬ s + rest.length < p := by omega
      simp [hbehind]

end

/-- Lines behind an import of the helper that hold no regular import do not change where it is
placed, whatever else they hold: imports of types, beginnings and ends of groups, and imports of the
helper that are indented or of types. -/
theorem place_append {helper : Bytes} {ls tail : List Bytes}
    (himport : ∃ l ∈ ls, importsHelper helper l = true)
    (htail : ∀ l ∈ tail, Kind.ofLine l ≠ .regular) :
    place helper (ls ++ tail) = place helper ls ++ tail := by
  cases hi : helperImport? helper ls with
  | none =>
    obtain ⟨l, hl, himports⟩ := himport
    rw [helperImport?_eq_none_iff.1 hi l hl] at himports
    cases himports
  | some i =>
    have hfound : helperImport? helper (ls ++ tail) = some i := by
      rw [helperImport?] at hi
      rw [helperImport?, List.findIdx?_append, hi, Option.some_or]
    obtain ⟨rest, line, hle, rfl, -⟩ := exists_insertIdx_of_helperImport? hi
    have hlong : i ≤ (rest ++ tail).length := by
      rw [List.length_append]
      omega
    have hheading : heading rest i line ≤ rest.length := by
      rw [← behindRegular_eq_heading]
      exact behindRegular_le line hle
    have hslot : slot (rest ++ tail) i line = slot rest i line := by
      rw [slot_eq_landing, slot_eq_landing, heading_append htail, landing_append hheading]
    rw [← insertIdx_append_of_le tail line hle] at hfound ⊢
    rw [place_insertIdx hlong hfound, place_insertIdx hle hi, hslot,
      insertIdx_append_of_le tail line (slot_le line hle)]

/-- The import stands inside a group that nothing closes. The body closes it, opens another, and
holds two more imports of the helper, one indented and one of types. -/
theorem place_append_openGroup :
    let ls := [bytes "import type \x7b", bytes "import \x7b use \x7d from './lib';", bytes "  A,"]
    let tail := [bytes "\x7d from '../types';", bytes "import type \x7b", bytes "  B,",
      bytes "  import \x7b use \x7d from './late';", bytes "import type \x7b use \x7d from './t';"]
    place (bytes "use") (ls ++ tail) =
      bytes "import \x7b use \x7d from './lib';" :: bytes "import type \x7b" :: bytes "  A," ::
        tail := by
  intro ls tail
  rw [place_append (by decide) (by decide)]
  decide

end HelperImports.Import
