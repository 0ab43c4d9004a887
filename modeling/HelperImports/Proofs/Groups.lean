import Mathlib
import HelperImports.Proofs.Position

/-! The import of the helper and the grouped imports of types. Placing looks at the first line that
opens a group and at the first one after it that closes one, so the import never ends up inside the
group that begins there. A group that begins behind that end is not looked at: if the leading
imports or the regular ones end inside it, so does the import. -/

namespace HelperImports.Import

/-- Lines `first` to `last` are one grouped import of types, over several lines; the line `out`, if
one is given, does not count. -/
structure IsGroup (ls : List Bytes) (out : Option Nat) (first last : Nat) : Prop where
  order : first < last
  opens : ∃ l, ls[first]? = some l ∧ opensGroup l = true ∧ closesGroup l = false
  closes : ∃ l, ls[last]? = some l ∧ closesGroup l = true
  inner : ∀ k l, first < k → k < last → out ≠ some k → ls[k]? = some l →
    closesGroup l = false ∧ (Kind.ofLine l).isImport = false

/-- The line at `pos` stands inside a grouped import of types. -/
def Enclosed (ls : List Bytes) (pos : Nat) : Prop :=
  ∃ first last, first < pos ∧ pos < last ∧ IsGroup ls (some pos) first last

/-! ### Groups around a line that is put in -/

theorem isGroup_insertIdx_iff {rest : List Bytes} {pos first last : Nat} (line : Bytes)
    (hfirst : first < pos) (hlast : pos ≤ last) :
    IsGroup (rest.insertIdx pos line) (some pos) first (last + 1) ↔
      IsGroup rest none first last := by
  have hopen : (rest.insertIdx pos line)[first]? = rest[first]? :=
    List.getElem?_insertIdx_of_lt hfirst
  have hclose : (rest.insertIdx pos line)[last + 1]? = rest[last]? :=
    List.getElem?_insertIdx_of_gt (by omega)
  constructor
  · intro h
    refine ⟨by omega, hopen ▸ h.opens, hclose ▸ h.closes, fun k l hk hkl _ hl => ?_⟩
    by_cases hpos : k < pos
    · refine h.inner k l hk (by omega) (by simp; omega) ?_
      rw [List.getElem?_insertIdx_of_lt hpos, hl]
    · refine h.inner (k + 1) l (by omega) (by omega) (by simp; omega) ?_
      rw [List.getElem?_insertIdx_of_gt (by omega), Nat.add_sub_cancel, hl]
  · intro h
    refine ⟨by omega, hopen ▸ h.opens, hclose ▸ h.closes, fun k l hk hkl hne hl => ?_⟩
    by_cases hpos : k < pos
    · rw [List.getElem?_insertIdx_of_lt hpos] at hl
      exact h.inner k l hk (by omega) (by simp) hl
    · have hgt : pos < k := by
        have hneq : pos ≠ k := fun heq => hne (congrArg some heq)
        omega
      rw [List.getElem?_insertIdx_of_gt hgt] at hl
      exact h.inner (k - 1) l (by omega) (by omega) (by simp) hl

theorem enclosed_insertIdx_iff {rest : List Bytes} {pos : Nat} (line : Bytes) :
    Enclosed (rest.insertIdx pos line) pos ↔
      ∃ first last, first < pos ∧ pos ≤ last ∧ IsGroup rest none first last := by
  constructor
  · rintro ⟨first, last, hfirst, hlast, hgroup⟩
    obtain ⟨last, rfl⟩ : ∃ j, last = j + 1 := ⟨last - 1, by omega⟩
    exact ⟨first, last, hfirst, by omega,
      (isGroup_insertIdx_iff line hfirst (by omega)).1 hgroup⟩
  · rintro ⟨first, last, hfirst, hlast, hgroup⟩
    exact ⟨first, last + 1, hfirst, by omega, (isGroup_insertIdx_iff line hfirst hlast).2 hgroup⟩

/-! ### The end of the first group -/

theorem groupEnd_le {ls : List Bytes} {s k : Nat} {l : Bytes} (hs : s ≤ k)
    (hk : ls[k]? = some l) (hl : closesGroup l = true) : groupEnd ls s ≤ k := by
  obtain ⟨hlt, rfl⟩ := List.getElem?_eq_some_iff.1 hk
  by_contra hgt
  have hbefore : k - s < (ls.drop s).findIdx closesGroup := by
    unfold groupEnd at hgt
    omega
  have hnot := List.not_of_lt_findIdx hbefore
  rw [List.getElem_drop] at hnot
  simp only [Nat.add_sub_cancel' hs] at hnot
  rw [hl] at hnot
  cases hnot

theorem closesGroup_groupEnd {ls : List Bytes} {s : Nat} (h : groupEnd ls s < ls.length) :
    ∃ l, ls[groupEnd ls s]? = some l ∧ closesGroup l = true := by
  have hfound : (ls.drop s).findIdx closesGroup < (ls.drop s).length := by
    rw [List.length_drop]
    unfold groupEnd at h
    omega
  refine ⟨ls[groupEnd ls s], List.getElem?_eq_getElem h, ?_⟩
  have hcloses := List.findIdx_getElem (w := hfound)
  rwa [List.getElem_drop] at hcloses

/-- What opens in front of a group ends in front of it or with it. -/
theorem IsGroup.groupEnd_cases {ls : List Bytes} {first last s : Nat}
    (h : IsGroup ls none first last) (hs : s ≤ first) :
    groupEnd ls s < first ∨ groupEnd ls s = last := by
  obtain ⟨closer, hcloser, hcloses⟩ := h.closes
  obtain ⟨opener, hopener, -, hopen⟩ := h.opens
  have horder := h.order
  have hle : groupEnd ls s ≤ last := groupEnd_le (by omega) hcloser hcloses
  have hlast := (List.getElem?_eq_some_iff.1 hcloser).1
  obtain ⟨l, hl, hlcloses⟩ := closesGroup_groupEnd (Nat.lt_of_le_of_lt hle hlast)
  -- The end is a line that closes, and from the opener to `last` no other line does.
  by_contra hneither
  rcases Nat.lt_or_eq_of_le (show first ≤ groupEnd ls s by omega) with hin | heq
  · have hnot := (h.inner _ l hin (by omega) (by simp) hl).1
    rw [hlcloses] at hnot
    cases hnot
  · rw [← heq, hopener] at hl
    obtain rfl := Option.some.inj hl
    rw [hlcloses] at hopen
    cases hopen

/-- A group has a first line that opens one, at its own beginning or in front of it. -/
theorem IsGroup.exists_opener {ls : List Bytes} {out : Option Nat} {first last : Nat}
    (h : IsGroup ls out first last) : ∃ s ≤ first, ls.findIdx? opensGroup = some s := by
  obtain ⟨opener, hopener, hopens, -⟩ := h.opens
  obtain ⟨hlt, rfl⟩ := List.getElem?_eq_some_iff.1 hopener
  cases hs : ls.findIdx? opensGroup with
  | none =>
    have hnone := List.findIdx?_eq_none_iff.1 hs _ (List.getElem_mem hlt)
    simp [hopens] at hnone
  | some s =>
    obtain ⟨_, _, hbefore⟩ := List.findIdx?_eq_some_iff_getElem.1 hs
    refine ⟨s, ?_, rfl⟩
    by_contra hgt
    exact hbefore first (by omega) hopens

/-- A line that lands is inside a group if and only if it was headed for one that begins behind the
end of the first. -/
theorem enclosed_landing_iff (rest : List Bytes) (p : Nat) (line : Bytes) :
    Enclosed (rest.insertIdx (landing rest p) line) (landing rest p) ↔
      ∃ s first last, rest.findIdx? opensGroup = some s ∧ groupEnd rest s < first ∧
        IsGroup rest none first last ∧ first < p ∧ p ≤ last := by
  rw [enclosed_insertIdx_iff]
  constructor
  · rintro ⟨first, last, hfirst, hlast, hgroup⟩
    obtain ⟨s, hs, hopener⟩ := hgroup.exists_opener
    simp only [landing, hopener] at hfirst hlast
    -- In front of the first group nothing encloses the line, so it did not land there.
    split at hfirst
    · omega
    · rename_i houtside
      rw [if_neg houtside] at hlast
      refine ⟨s, first, last, hopener, ?_, hgroup, hfirst, hlast⟩
      rcases hgroup.groupEnd_cases hs with hend | hend <;> omega
  · rintro ⟨s, first, last, hopener, hend, hgroup, hfirst, hlast⟩
    have houtside : ¬ (s < p ∧ p ≤ groupEnd rest s) := by omega
    have hland : landing rest p = p := by
      simp only [landing, hopener, if_neg houtside]
    exact ⟨first, last, by omega, by omega, hgroup⟩

/-! ### Where the import is headed for -/

/-- The lines that do not import the helper. -/
def others (helper : Bytes) (ls : List Bytes) : List Bytes :=
  ls.filter fun l => !importsHelper helper l

/-- The index of the other lines that the import of the helper is headed for: behind the leading
imports and all regular ones if it has to be added. -/
def aim (helper : Bytes) (ls : List Bytes) : Nat :=
  match helperImport? helper ls with
  | none => max (runLength ls) (regularEnd ls)
  | some i => heading (others helper ls) i (ls.getD i [])

theorem others_of_helperImport?_eq_none {helper : Bytes} {ls : List Bytes}
    (h : helperImport? helper ls = none) : others helper ls = ls := by
  rw [helperImport?_eq_none_iff] at h
  exact List.filter_eq_self.2 fun l hl => by simp [h l hl]

/-- Where the import of the helper is the only one, it lands among the other lines where it is
headed for, or in front of their first group. -/
theorem ensure_lands {helper : Bytes} {specifier : Except ε Bytes} {ls : List Bytes} {e : Ensured}
    (hone : ls.countP (importsHelper helper) ≤ 1) (h : ensure helper specifier ls = .ok e) :
    ∃ line, e.lines = (others helper ls).insertIdx
        (landing (others helper ls) (aim helper ls)) line ∧
      helperImport? helper e.lines = some (landing (others helper ls) (aim helper ls)) := by
  rcases ensure_cases h with ⟨i, hi, rfl⟩ | ⟨hno, s, -, rfl⟩
  · obtain ⟨rest, line, hle, rfl, hline⟩ := exists_insertIdx_of_helperImport? hi
    have hrest := helperImport?_of_countP_le_one hle hline hone
    have hothers : others helper (rest.insertIdx i line) = rest := by
      rw [others, filter_insertIdx_of_neg (by simp [hline])]
      exact others_of_helperImport?_eq_none hrest
    have haim : aim helper (rest.insertIdx i line) = heading rest i line := by
      simp [aim, hi, hothers, List.getElem?_insertIdx_self, hle]
    obtain ⟨hplace, hpos⟩ := place_only hrest hle hline
    rw [hothers, haim, hplace]
    exact ⟨line, rfl, hpos⟩
  · have hothers := others_of_helperImport?_eq_none hno
    have haim : aim helper ls = heading ls (runLength ls) (statement helper s) := by
      simp only [aim, hno, heading_statement]
    obtain ⟨hplace, hpos⟩ := place_only hno (runLength_le ls) (importsHelper_statement helper s)
    rw [hothers, haim, insert, hplace]
    exact ⟨statement helper s, rfl, hpos⟩

end HelperImports.Import

namespace HelperImports.Job

open Import

/-- The import of the helper, where it is the only one, ends up outside all grouped imports of types
if and only if it is not headed for one that begins behind the end of the first. -/
theorem ensure_outside_groups_iff {job : Job} {fs : FileSystem} {dir : Bytes} {ls : List Bytes}
    {e : Ensured} (hone : ls.countP (importsHelper job.settings.helper) ≤ 1)
    (h : job.ensure fs dir ls = .ok e) :
    let rest := others job.settings.helper ls
    let p := aim job.settings.helper ls
    ∃ pos, helperImport? job.settings.helper e.lines = some pos ∧
      (¬ Enclosed e.lines pos ↔
        ∀ s first last, rest.findIdx? opensGroup = some s → groupEnd rest s < first →
          IsGroup rest none first last → ¬ (first < p ∧ p ≤ last)) := by
  intro rest p
  obtain ⟨line, hlines, hpos⟩ := ensure_lands hone h
  refine ⟨landing rest p, hpos, ?_⟩
  rw [hlines, enclosed_landing_iff]
  constructor
  · rintro hnot s first last hs hend hgroup ⟨hfirst, hlast⟩
    exact hnot ⟨s, first, last, hs, hend, hgroup, hfirst, hlast⟩
  · rintro hall ⟨s, first, last, hs, hend, hgroup, hfirst, hlast⟩
    exact hall s first last hs hend hgroup ⟨hfirst, hlast⟩

/-- A file whose import of the helper stands inside a group. -/
def importInGroup : List Bytes :=
  [bytes "import type \x7b", bytes "import \x7b use \x7d from './lib';", bytes "  A,",
    bytes "\x7d from '../types';", bytes "use();"]

/-- The group is the first of the file and there is no other behind it, so the import comes out. -/
theorem ensure_outside_groups_importInGroup :
    let job : Job := { settings := ⟨bytes "use", bytes "lib"⟩ }
    importInGroup.countP (importsHelper (bytes "use")) ≤ 1 ∧
      ∃ e pos, job.ensure {} (bytes ".") importInGroup = .ok e ∧
        helperImport? (bytes "use") e.lines = some pos ∧ ¬ Enclosed e.lines pos := by
  have hone : importInGroup.countP (importsHelper (bytes "use")) ≤ 1 := by decide
  have hensure : Job.ensure { settings := ⟨bytes "use", bytes "lib"⟩ } {} (bytes ".")
      importInGroup = .ok ⟨place (bytes "use") importInGroup, false⟩ := by cbv
  intro job
  obtain ⟨pos, hpos, hiff⟩ := ensure_outside_groups_iff hone hensure
  refine ⟨hone, _, pos, hensure, hpos, hiff.2 ?_⟩
  rintro s first last hs hend hgroup -
  obtain rfl : 0 = s := Option.some.inj hs
  have hbehind : groupEnd (others (bytes "use") importInGroup) 0 < first := hend
  obtain ⟨l, hl, -⟩ := hgroup.closes
  have hlast : last < (others (bytes "use") importInGroup).length :=
    (List.getElem?_eq_some_iff.1 hl).1
  rw [show groupEnd (others (bytes "use") importInGroup) 0 = 2 by decide] at hbehind
  rw [show (others (bytes "use") importInGroup).length = 4 by decide] at hlast
  have horder := hgroup.order
  omega

/-- A file that imports one type by itself and then another in a group, and has no other imports. -/
def twoTypeImports : List Bytes :=
  [bytes "import type \x7b Page \x7d from '../types';", bytes "import type \x7b",
    bytes "  Section,", bytes "\x7d from '../types';",
    bytes "const attrs = getVisualEditorAttributes(section);"]

/-- The leading imports of the file end inside its group, which begins behind the end of the first,
and the import is added there. -/
theorem ensure_inside_second_group :
    twoTypeImports.countP (importsHelper defaultHelper) ≤ 1 ∧
      ∃ e pos, Job.ensure {} {} (bytes "components") twoTypeImports = .ok e ∧
        helperImport? defaultHelper e.lines = some pos ∧ Enclosed e.lines pos := by
  have hensure : Job.ensure {} {} (bytes "components") twoTypeImports =
      .ok ⟨twoTypeImports.insertIdx 2
        (statement defaultHelper (bytes "../utils/stackbitBindings")), true⟩ := by cbv
  have hgroup : IsGroup twoTypeImports none 1 3 := by
    refine ⟨by decide, ⟨_, rfl, by decide, by decide⟩, ⟨_, rfl, by decide⟩, ?_⟩
    intro k l hfirst hlast _ hl
    obtain rfl : k = 2 := by omega
    obtain rfl := Option.some.inj hl
    decide
  refine ⟨by decide, _, 2, hensure, by decide, ?_⟩
  exact (enclosed_insertIdx_iff _).2 ⟨1, 3, by decide, by decide, hgroup⟩

end HelperImports.Job
