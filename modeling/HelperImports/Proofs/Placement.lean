import HelperImports.Import.Placement
import Mathlib.Data.List.InsertIdx

/-! The place of the helper's import in one formula. With the import taken out, its place is the
index `slot` of the lines that are left: behind the last regular import, and in front of the first
group if that would be inside it. Both moves are insertions into the same lines, so placing is
settled by index arithmetic, and a line at its slot stays there. -/

namespace HelperImports.Import

/-! ### Lines with one line put in -/

theorem move_insertIdx (rest : List α) {i : Nat} (j : Nat) (l : α) (hi : i ≤ rest.length) :
    move (rest.insertIdx i l) i j = rest.insertIdx j l := by
  have hget : (rest.insertIdx i l)[i]? = some l := by
    rw [List.getElem?_insertIdx_self, if_pos hi]
  simp only [move, hget, List.eraseIdx_insertIdx_self]

theorem findIdx?_insertIdx (f : α → Bool) (rest : List α) {i : Nat} (l : α)
    (hi : i ≤ rest.length) :
    (rest.insertIdx i l).findIdx? f =
      match rest.findIdx? f with
      | none => if f l then some i else none
      | some s => if s < i then some s else if f l then some i else some (s + 1) := by
  induction rest generalizing i with
  | nil =>
    obtain rfl : i = 0 := by simpa using hi
    simp [List.findIdx?_cons]
  | cons a rest ih =>
    cases i with
    | zero =>
      rw [List.insertIdx_zero, List.findIdx?_cons]
      cases hf : (a :: rest).findIdx? f <;> simp
    | succ i =>
      rw [List.insertIdx_succ_cons, List.findIdx?_cons, ih (by simpa using hi), List.findIdx?_cons]
      by_cases ha : f a = true
      · simp [ha]
      · simp only [ha]
        cases hf : rest.findIdx? f with
        | none => by_cases hl : f l = true <;> simp [hl]
        | some s => by_cases hs : s < i <;> by_cases hl : f l = true <;> simp [hl, hs]

theorem le_length_takeWhile_insertIdx (f : α → Bool) (rest : List α) {i : Nat} (l : α)
    (hi : i ≤ rest.length) :
    i ≤ ((rest.insertIdx i l).takeWhile f).length ↔ i ≤ (rest.takeWhile f).length := by
  induction rest generalizing i with
  | nil =>
    obtain rfl : i = 0 := by simpa using hi
    simp
  | cons a rest ih =>
    cases i with
    | zero => simp
    | succ i =>
      rw [List.insertIdx_succ_cons, List.takeWhile_cons, List.takeWhile_cons]
      split
      · simpa using ih (by simpa using hi)
      · simp

theorem drop_insertIdx_of_le (rest : List α) {s i : Nat} (l : α) (h : s ≤ i)
    (hi : i ≤ rest.length) :
    (rest.insertIdx i l).drop s = (rest.drop s).insertIdx (i - s) l := by
  induction s generalizing rest i with
  | zero => rfl
  | succ s ih =>
    obtain ⟨i, rfl⟩ : ∃ j, i = j + 1 := ⟨i - 1, by omega⟩
    cases rest with
    | nil => simp at hi
    | cons a rest =>
      rw [List.insertIdx_succ_cons, List.drop_succ_cons, List.drop_succ_cons, Nat.add_sub_add_right]
      exact ih rest (by omega) (by simpa using hi)

/-! ### The slot -/

/-- The index behind the last regular import of `rest`, where a line from index `i` goes; if it is
a regular import itself and stands behind all others, it stays. -/
def behindRegular (rest : List Bytes) (i : Nat) (line : Bytes) : Nat :=
  match lastRegular? rest with
  | none => i
  | some last => if Kind.ofLine line = .regular then max i (last + 1) else last + 1

/-- The index `p` of `rest`, or that of the first group if `p` is inside it. -/
def clearOfGroup (rest : List Bytes) (p : Nat) : Nat :=
  match group? rest with
  | none => p
  | some g => if g.first < p ∧ p ≤ g.last then g.first else p

/-- The index of `rest` at which a line from index `i` comes to stand. -/
def slot (rest : List Bytes) (i : Nat) (line : Bytes) : Nat :=
  clearOfGroup rest (behindRegular rest i line)

theorem lastRegular?_lt {ls : List Bytes} {last : Nat} (h : lastRegular? ls = some last) :
    last < ls.length := by
  induction ls generalizing last with
  | nil => simp [lastRegular?] at h
  | cons l ls ih =>
    rw [lastRegular?] at h
    cases hl : lastRegular? ls with
    | some i =>
      have := ih hl
      simp only [hl, Option.some.injEq] at h
      simp only [List.length_cons]
      omega
    | none =>
      simp only [hl] at h
      split at h
      · simp only [Option.some.injEq] at h
        simp only [List.length_cons]
        omega
      · simp at h

theorem lastRegular?_insertIdx (rest : List Bytes) {i : Nat} (line : Bytes)
    (hi : i ≤ rest.length) :
    lastRegular? (rest.insertIdx i line) =
      match lastRegular? rest with
      | none => if Kind.ofLine line = .regular then some i else none
      | some last =>
        if i ≤ last then some (last + 1)
        else if Kind.ofLine line = .regular then some i else some last := by
  induction rest generalizing i with
  | nil =>
    obtain rfl : i = 0 := by simpa using hi
    simp [lastRegular?]
  | cons a rest ih =>
    cases i with
    | zero =>
      rw [List.insertIdx_zero, lastRegular?]
      cases hl : lastRegular? (a :: rest) <;> simp
    | succ i =>
      rw [List.insertIdx_succ_cons, lastRegular?, ih (by simpa using hi), lastRegular?]
      cases hl : lastRegular? rest with
      | none =>
        by_cases hr : Kind.ofLine line = .regular <;> by_cases ha : Kind.ofLine a = .regular <;>
          simp [hr, ha]
      | some last =>
        by_cases hr : Kind.ofLine line = .regular <;> by_cases h : i ≤ last <;> simp [hr, h]

theorem behindRegular_le {rest : List Bytes} {i : Nat} (line : Bytes) (hi : i ≤ rest.length) :
    behindRegular rest i line ≤ rest.length := by
  unfold behindRegular
  cases hl : lastRegular? rest with
  | none => exact hi
  | some last =>
    have := lastRegular?_lt hl
    simp only
    split <;> omega

theorem clearOfGroup_le {rest : List Bytes} {p : Nat} (hp : p ≤ rest.length) :
    clearOfGroup rest p ≤ rest.length := by
  unfold clearOfGroup
  cases group? rest with
  | none => exact hp
  | some g =>
    simp only
    split <;> omega

theorem slot_le {rest : List Bytes} {i : Nat} (line : Bytes) (hi : i ≤ rest.length) :
    slot rest i line ≤ rest.length :=
  clearOfGroup_le (behindRegular_le line hi)

/-- The first move puts the line behind the last regular import of the other lines. -/
theorem afterRegular_insertIdx (rest : List Bytes) {i : Nat} (line : Bytes)
    (hi : i ≤ rest.length) :
    afterRegular (rest.insertIdx i line) i =
      (rest.insertIdx (behindRegular rest i line) line, behindRegular rest i line) := by
  unfold afterRegular behindRegular
  rw [lastRegular?_insertIdx rest line hi]
  cases hl : lastRegular? rest with
  | none =>
    by_cases hr : Kind.ofLine line = .regular
    · simp [hr, move_insertIdx rest i line hi]
    · simp [hr]
  | some last =>
    by_cases h : i ≤ last
    · simp [h, Nat.le_succ_of_le h, move_insertIdx rest _ line hi]
    · by_cases hr : Kind.ofLine line = .regular
      · have hmax : max i (last + 1) = i := by omega
        simp [h, hr, hmax, move_insertIdx rest i line hi]
      · simp [h, hr, move_insertIdx rest _ line hi]

/-- The second move takes the line out of the first group of the other lines. The line itself may
open or close a group, and neither changes where it goes: a line that opens the first group stands
in front of it already, and a line that closes it stands at its end. -/
theorem outOfGroup_insertIdx (rest : List Bytes) {p : Nat} (line : Bytes) (hp : p ≤ rest.length) :
    outOfGroup (rest.insertIdx p line) p = rest.insertIdx (clearOfGroup rest p) line := by
  unfold outOfGroup clearOfGroup group?
  rw [findIdx?_insertIdx opensGroup rest line hp]
  cases hf : rest.findIdx? opensGroup with
  | none =>
    by_cases hl : opensGroup line = true
    · simp [hl, move_insertIdx rest p line hp]
    · simp [hl]
  | some s =>
    by_cases hs : s < p
    · have hlast := le_length_takeWhile_insertIdx (fun l => !closesGroup l) (rest.drop s) line
        (i := p - s) (by simp; omega)
      rw [← drop_insertIdx_of_le rest line (by omega) hp] at hlast
      have hinside : (s ≤ p ∧ p ≤ s + (((rest.insertIdx p line).drop s).takeWhile
          fun l => !closesGroup l).length) ↔
          (s < p ∧ p ≤ s + ((rest.drop s).takeWhile fun l => !closesGroup l).length) := by
        omega
      simp only [hs, if_true, Option.map_some, hinside]
      split
      · exact move_insertIdx rest s line hp
      · rfl
    · by_cases hl : opensGroup line = true
      · simp [hl, hs, move_insertIdx rest p line hp]
      · have : ¬ s + 1 ≤ p := by omega
        simp [hl, hs, this]

/-! ### Placing -/

/-- Placing puts the first import of the helper at its slot among the other lines. -/
theorem place_insertIdx {helper : Bytes} {rest : List Bytes} {i : Nat} {line : Bytes}
    (hi : i ≤ rest.length) (h : helperImport? helper (rest.insertIdx i line) = some i) :
    place helper (rest.insertIdx i line) = rest.insertIdx (slot rest i line) line := by
  simp only [place, h, afterRegular_insertIdx rest line hi]
  exact outOfGroup_insertIdx rest line (behindRegular_le line hi)

/-- Lines with an import of the helper are the other lines with its first import put in. -/
theorem exists_insertIdx_of_helperImport? {helper : Bytes} {ls : List Bytes} {i : Nat}
    (h : helperImport? helper ls = some i) :
    ∃ (rest : List Bytes) (line : Bytes), i ≤ rest.length ∧ ls = rest.insertIdx i line ∧
      importsHelper helper line = true := by
  obtain ⟨hi, hline, -⟩ := List.findIdx?_eq_some_iff_getElem.1 h
  refine ⟨ls.eraseIdx i, ls[i], ?_, (List.insertIdx_eraseIdx_getElem hi).symm, hline⟩
  rw [List.length_eraseIdx_of_lt hi]
  omega

/-- From an index in front of its target a line moves forward, and not past the target. -/
theorem behindRegular_between {rest : List Bytes} {i q : Nat} {line : Bytes}
    (h : q ≤ behindRegular rest i line) :
    q ≤ behindRegular rest q line ∧ behindRegular rest q line ≤ behindRegular rest i line := by
  unfold behindRegular at h ⊢
  cases hl : lastRegular? rest with
  | none =>
    simp only [hl] at h ⊢
    omega
  | some last =>
    by_cases hr : Kind.ofLine line = .regular
    · simp only [hl, hr, if_true] at h ⊢
      omega
    · simp only [hl, hr, if_false] at h ⊢
      omega

/-- The slot of a line at its slot is that slot. The first rule may send the line behind regular
imports that follow the group, and the second brings it back in front of the group. -/
theorem slot_slot (rest : List Bytes) (i : Nat) (line : Bytes) :
    slot rest (slot rest i line) line = slot rest i line := by
  unfold slot
  generalize hp : behindRegular rest i line = p
  unfold clearOfGroup
  cases hg : group? rest with
  | none =>
    have := behindRegular_between (show p ≤ behindRegular rest i line by omega)
    simp only
    omega
  | some g =>
    by_cases hin : g.first < p ∧ p ≤ g.last
    · have := behindRegular_between (show g.first ≤ behindRegular rest i line by omega)
      simp only [hin, and_self, if_true]
      split <;> omega
    · have hb : behindRegular rest p line = p := by
        have := behindRegular_between (show p ≤ behindRegular rest i line by omega)
        omega
      simp only [hin, if_false, hb]

/-- Placing a second time changes nothing, as long as the line that was placed still is the first
one that imports the helper. -/
theorem place_slot {helper : Bytes} {rest : List Bytes} {i : Nat} {line : Bytes}
    (hi : i ≤ rest.length)
    (h : helperImport? helper (rest.insertIdx (slot rest i line) line) = some (slot rest i line)) :
    place helper (rest.insertIdx (slot rest i line) line) =
      rest.insertIdx (slot rest i line) line := by
  rw [place_insertIdx (slot_le line hi) h, slot_slot]

/-! ### What placing keeps -/

theorem place_of_helperImport?_eq_none {helper : Bytes} {ls : List Bytes}
    (h : helperImport? helper ls = none) : place helper ls = ls := by
  simp only [place, h]

/-- Placing only moves an import of the helper. -/
theorem exists_place_eq {helper : Bytes} {ls : List Bytes} {i : Nat}
    (h : helperImport? helper ls = some i) :
    ∃ (rest : List Bytes) (line : Bytes) (j : Nat), i ≤ rest.length ∧ j ≤ rest.length ∧
      importsHelper helper line = true ∧ ls = rest.insertIdx i line ∧
      place helper ls = rest.insertIdx j line := by
  obtain ⟨rest, line, hi, rfl, hline⟩ := exists_insertIdx_of_helperImport? h
  exact ⟨rest, line, slot rest i line, hi, slot_le line hi, hline, rfl, place_insertIdx hi h⟩

/-- Placing rearranges the lines. -/
theorem place_perm (helper : Bytes) (ls : List Bytes) : (place helper ls).Perm ls := by
  cases h : helperImport? helper ls with
  | none => rw [place_of_helperImport?_eq_none h]
  | some i =>
    obtain ⟨rest, line, j, hi, hj, -, rfl, hplace⟩ := exists_place_eq h
    rw [hplace]
    exact (List.perm_insertIdx line rest hj).trans (List.perm_insertIdx line rest hi).symm

theorem filter_insertIdx_of_neg {f : α → Bool} {l : α} (hl : f l = false) (rest : List α)
    (i : Nat) : (rest.insertIdx i l).filter f = rest.filter f := by
  induction rest generalizing i with
  | nil => cases i <;> simp [hl]
  | cons a rest ih =>
    cases i with
    | zero => simp [hl]
    | succ i => rw [List.insertIdx_succ_cons, List.filter_cons, List.filter_cons, ih]

/-- The lines that do not import the helper keep their order. -/
theorem filter_place (helper : Bytes) (ls : List Bytes) :
    (place helper ls).filter (fun l => !importsHelper helper l) =
      ls.filter (fun l => !importsHelper helper l) := by
  cases h : helperImport? helper ls with
  | none => rw [place_of_helperImport?_eq_none h]
  | some i =>
    obtain ⟨rest, line, j, -, -, hline, rfl, hplace⟩ := exists_place_eq h
    rw [hplace, filter_insertIdx_of_neg (by simp [hline]),
      filter_insertIdx_of_neg (by simp [hline])]

end HelperImports.Import
