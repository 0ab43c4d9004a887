import Mathlib
import HelperImports.Proofs.Position

/-! An added import and the last regular one. The statement is added behind the leading imports, and
it is a regular import itself, so placing does not take it back over imports of types that it was
added behind. It stands right behind the last regular import of the file unless the leading imports
go on past that one. -/

namespace HelperImports.Import

/-- The line at `last` is the last regular import. -/
structure IsLastRegular (ls : List Bytes) (last : Nat) : Prop where
  regular : ∃ l, ls[last]? = some l ∧ Kind.ofLine l = .regular
  behind : ∀ k l, last < k → ls[k]? = some l → Kind.ofLine l ≠ .regular

/-- The file begins with imports that go on past the line at `last`: that line, all lines in front
of it and the one behind it are imports. -/
def RunsPast (ls : List Bytes) (last : Nat) : Prop :=
  ∀ k ≤ last + 1, ∃ l, ls[k]? = some l ∧ (Kind.ofLine l).isImport = true

theorem IsLastRegular.cons {ls : List Bytes} {last : Nat} (h : IsLastRegular ls last) (l : Bytes) :
    IsLastRegular (l :: ls) (last + 1) := by
  refine ⟨h.regular, fun k l' hk hl' => ?_⟩
  obtain ⟨k, rfl⟩ : ∃ j, k = j + 1 := ⟨k - 1, by omega⟩
  exact h.behind k l' (by omega) hl'

theorem isLastRegular_of_lastRegular? {ls : List Bytes} {last : Nat}
    (h : lastRegular? ls = some last) : IsLastRegular ls last := by
  induction ls generalizing last with
  | nil => cases h
  | cons l ls ih =>
    rw [lastRegular?] at h
    cases hrest : lastRegular? ls with
    | some i =>
      simp only [hrest, Option.some.injEq] at h
      subst h
      exact (ih hrest).cons l
    | none =>
      have hnone : ∀ l ∈ ls, Kind.ofLine l ≠ .regular := by
        intro l' hl' hregular
        have hsome := (exists_regular_iff ls).1 ⟨l', hl', hregular⟩
        simp [hrest] at hsome
      simp only [hrest] at h
      split at h
      · rename_i hl
        obtain rfl := Option.some.inj h
        refine ⟨⟨l, rfl, hl⟩, fun k l' hk hl' => ?_⟩
        obtain ⟨k, rfl⟩ : ∃ j, k = j + 1 := ⟨k - 1, by omega⟩
        exact hnone l' (List.mem_of_getElem? hl')
      · cases h

theorem exists_isLastRegular {ls : List Bytes} (h : ∃ l ∈ ls, Kind.ofLine l = .regular) :
    ∃ last, IsLastRegular ls last ∧ regularEnd ls = last + 1 := by
  obtain ⟨last, hlast⟩ := Option.isSome_iff_exists.1 ((exists_regular_iff ls).1 h)
  refine ⟨last, isLastRegular_of_lastRegular? hlast, ?_⟩
  rw [regularEnd_eq, hlast]
  rfl

theorem lt_runLength_iff (ls : List Bytes) (n : Nat) :
    n < runLength ls ↔ ∀ k ≤ n, ∃ l, ls[k]? = some l ∧ (Kind.ofLine l).isImport = true := by
  unfold runLength
  induction ls generalizing n with
  | nil =>
    constructor
    · intro h
      simp at h
    · intro h
      obtain ⟨l, hl, -⟩ := h 0 (by omega)
      simp at hl
  | cons a ls ih =>
    by_cases ha : (Kind.ofLine a).isImport = true
    · rw [List.takeWhile_cons, if_pos ha, List.length_cons]
      cases n with
      | zero =>
        refine ⟨fun _ k hk => ?_, fun _ => by omega⟩
        obtain rfl : k = 0 := by omega
        exact ⟨a, rfl, ha⟩
      | succ n =>
        rw [Nat.add_lt_add_iff_right, ih]
        constructor
        · intro h k hk
          cases k with
          | zero => exact ⟨a, rfl, ha⟩
          | succ k => exact h k (by omega)
        · intro h k hk
          exact h (k + 1) (by omega)
    · rw [List.takeWhile_cons, if_neg ha]
      constructor
      · intro h
        simp at h
      · intro h
        obtain ⟨l, hl, himport⟩ := h 0 (by omega)
        obtain rfl : a = l := Option.some.inj hl
        exact absurd himport ha

theorem landing_of_no_group {ls : List Bytes} (h : ∀ l ∈ ls, opensGroup l = false) (p : Nat) :
    landing ls p = p := by
  have hnone : ls.findIdx? opensGroup = none := List.findIdx?_eq_none_iff.2 h
  simp only [landing, hnone]

end HelperImports.Import

namespace HelperImports.Job

open Import

/-- In a file that has regular imports, none of the helper and no line that opens a group, the added
statement goes behind the leading imports and the last regular one, whichever end later. It stands
right behind the last regular import if and only if the leading imports do not go on past that. -/
theorem ensure_behind_regular_iff {job : Job} {fs : FileSystem} {dir : Bytes} {ls : List Bytes}
    {e : Ensured} (hno : ∀ l ∈ ls, importsHelper job.settings.helper l = false)
    (hregular : ∃ l ∈ ls, Kind.ofLine l = .regular) (hgroup : ∀ l ∈ ls, opensGroup l = false)
    (h : job.ensure fs dir ls = .ok e) :
    ∃ last specifier pos, IsLastRegular ls last ∧
      Specifier.between fs.workingDirectory dir job.settings.bindings = .ok specifier ∧
      e.lines = ls.insertIdx pos (statement job.settings.helper specifier) ∧
      helperImport? job.settings.helper e.lines = some pos ∧
      pos = max (runLength ls) (last + 1) ∧
      (pos = last + 1 ↔ ¬ RunsPast ls last) := by
  obtain ⟨last, hlast, hend⟩ := exists_isLastRegular hregular
  obtain ⟨specifier, hspecifier, rfl, hpos⟩ := ensure_adds (helperImport?_eq_none_iff.2 hno) h
  rw [landing_of_no_group hgroup, hend] at hpos ⊢
  refine ⟨last, specifier, _, hlast, hspecifier, rfl, hpos, rfl, ?_⟩
  rw [RunsPast, ← lt_runLength_iff]
  omega

/-- A file with a regular import behind its leading ones, which end in an import of a type. -/
def lateRegular : List Bytes :=
  [bytes "import a from 'a';", bytes "import type B from 'b';", bytes "",
    bytes "import c from 'c';", bytes "use();"]

/-- The leading imports end in front of the last regular one, and the statement comes right behind
it. -/
theorem ensure_behind_regular_lateRegular :
    let job : Job := { settings := ⟨bytes "use", bytes "lib"⟩ }
    ∃ e, job.ensure {} (bytes ".") lateRegular = .ok e ∧ IsLastRegular lateRegular 3 ∧
      e.lines = lateRegular.insertIdx 4 (statement (bytes "use") (bytes "./lib")) := by
  have hensure : Job.ensure { settings := ⟨bytes "use", bytes "lib"⟩ } {} (bytes ".") lateRegular =
      .ok ⟨lateRegular.insertIdx 4 (statement (bytes "use") (bytes "./lib")), true⟩ := rfl
  intro job
  obtain ⟨last, specifier, pos, hlast, -, hlines, hpos, hmax, hiff⟩ :=
    ensure_behind_regular_iff (by decide) ⟨bytes "import c from 'c';", by decide, by decide⟩
      (by decide) hensure
  have hfour : 4 = pos := Option.some.inj (Eq.trans (by decide) hpos)
  have hrun : runLength lateRegular = 2 := by decide
  obtain rfl : last = 3 := by omega
  exact ⟨_, hensure, hlast, rfl⟩

/-- A file whose leading imports are a regular one and then one of a type. -/
def typeBehindRegular : List Bytes :=
  [bytes "import A from 'a';", bytes "import type B from 'b';",
    bytes "const x = getVisualEditorAttributes(y);"]

/-- The statement is added behind the import of the type and stays there, although that is not right
behind the last regular import. -/
theorem ensure_not_behind_regular :
    (∀ l ∈ typeBehindRegular, importsHelper defaultHelper l = false) ∧
      (∀ l ∈ typeBehindRegular, opensGroup l = false) ∧ IsLastRegular typeBehindRegular 0 ∧
      ∃ e, Job.ensure {} {} (bytes ".") typeBehindRegular = .ok e ∧
        helperImport? defaultHelper e.lines = some 2 := by
  have hensure : Job.ensure {} {} (bytes ".") typeBehindRegular =
      .ok ⟨typeBehindRegular.insertIdx 2
        (statement defaultHelper (bytes "./utils/stackbitBindings")), true⟩ := rfl
  refine ⟨by decide, by decide, isLastRegular_of_lastRegular? (by decide), _, hensure, ?_⟩
  decide

end HelperImports.Job
