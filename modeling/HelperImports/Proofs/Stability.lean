import HelperImports.Proofs.Ensure

/-! Placing a second time. The line that was placed stays where it is as long as it still is the
first import of the helper. Both rules may fire again, the first sending the line behind regular
imports that follow a group and the second bringing it back, and imports of the helper that were
not overtaken may stand anywhere behind it. -/

namespace HelperImports.Import

theorem clearOfGroup_le_self (rest : List Bytes) (p : Nat) : clearOfGroup rest p ≤ p := by
  unfold clearOfGroup
  cases group? rest with
  | none => exact Nat.le_refl p
  | some g =>
    dsimp only
    split <;> omega

/-- On its way to the last regular import a line is headed for one and the same index. -/
theorem behindRegular_of_between {rest : List Bytes} {i q : Nat} {line : Bytes} (hi : i ≤ q)
    (hq : q ≤ behindRegular rest i line) :
    behindRegular rest q line = behindRegular rest i line := by
  unfold behindRegular at hq ⊢
  cases hl : lastRegular? rest with
  | none =>
    simp only [hl] at hq ⊢
    omega
  | some last =>
    by_cases hr : Kind.ofLine line = .regular
    · simp only [hl, hr, if_true] at hq ⊢
      omega
    · simp only [hr, if_false]

/-- The first import of the helper stands in front of every other line that imports it. -/
theorem le_of_helperImport?_insertIdx {helper : Bytes} {rest : List Bytes} {i k : Nat}
    {line l : Bytes} (h : helperImport? helper (rest.insertIdx i line) = some i)
    (hk : rest[k]? = some l) (hl : importsHelper helper l = true) : i ≤ k := by
  by_contra hlt
  have hget : (rest.insertIdx i line)[k]? = some l := by
    rw [List.getElem?_insertIdx_of_lt (by omega), hk]
  obtain ⟨hbound, rfl⟩ := List.getElem?_eq_some_iff.1 hget
  obtain ⟨_, _, hbefore⟩ := List.findIdx?_eq_some_iff_getElem.1 h
  exact hbefore k (by omega) hl

/-- A line with no import of the helper in front of it is the first one that is found. -/
theorem helperImport?_insertIdx_of_take {helper : Bytes} {rest : List Bytes} {pos : Nat}
    {line : Bytes} (hpos : pos ≤ rest.length) (hline : importsHelper helper line = true)
    (hfirst : ∀ l ∈ (rest.insertIdx pos line).take pos, importsHelper helper l = false) :
    helperImport? helper (rest.insertIdx pos line) = some pos := by
  have hget : (rest.insertIdx pos line)[pos]? = some line := by
    rw [List.getElem?_insertIdx_self, if_pos hpos]
  obtain ⟨hlt, hat⟩ := List.getElem?_eq_some_iff.1 hget
  refine List.findIdx?_eq_some_iff_getElem.2 ⟨hlt, by rw [hat, hline], fun k hk => ?_⟩
  have hbefore := hfirst _ (List.mem_take_iff_getElem.2 ⟨k, by omega, rfl⟩)
  simp [hbefore]

/-- Where the placed line may be said to stand at `pos`, with no import of the helper in front of
it, its slot from there is the slot it has. The index can differ from the slot only if copies of the
line stand in between. -/
theorem slot_eq_of_insertIdx_eq {helper : Bytes} {rest : List Bytes} {i pos : Nat} {line : Bytes}
    (hi : i ≤ rest.length) (h : helperImport? helper (rest.insertIdx i line) = some i)
    (hline : importsHelper helper line = true)
    (hpos : rest.insertIdx (slot rest i line) line = rest.insertIdx pos line)
    (hfirst : helperImport? helper (rest.insertIdx pos line) = some pos) :
    slot rest pos line = slot rest i line := by
  have hle : pos ≤ slot rest i line := by
    by_contra hlt
    obtain ⟨_, _, hbefore⟩ := List.findIdx?_eq_some_iff_getElem.1 hfirst
    have hat : (rest.insertIdx pos line)[slot rest i line]? = some line := by
      rw [← hpos, List.getElem?_insertIdx_self, if_pos (slot_le line hi)]
    obtain ⟨_, hslot⟩ := List.getElem?_eq_some_iff.1 hat
    exact hbefore (slot rest i line) (by omega) (by rw [hslot, hline])
  rcases Nat.lt_or_eq_of_le hle with hlt | rfl
  · have hcopy : rest[pos]? = some line := by
      have hlen : pos ≤ rest.length := Nat.le_trans hle (slot_le line hi)
      calc rest[pos]?
        _ = (rest.insertIdx (slot rest i line) line)[pos]? :=
          (List.getElem?_insertIdx_of_lt hlt).symm
        _ = some line := by rw [hpos, List.getElem?_insertIdx_self, if_pos hlen]
    have hbehind := le_of_helperImport?_insertIdx h hcopy hline
    have htarget : slot rest i line ≤ behindRegular rest i line := clearOfGroup_le_self rest _
    rw [slot, slot, behindRegular_of_between hbehind (by omega)]
  · exact slot_slot rest i line

/-- Placing is stable whenever the line that was moved still is the first import of the helper: if
`pos` is an index at which it stands and no import of the helper stands in front of it, placing a
second time changes nothing. With at most one import that is always so. -/
theorem place_stable (helper : Bytes) (ls : List Bytes) :
    let placed := place helper ls
    (ls.countP (importsHelper helper) ≤ 1 → place helper placed = placed) ∧
    ∀ i line, helperImport? helper ls = some i → ls[i]? = some line →
      (∃ pos < ls.length, placed = (ls.eraseIdx i).insertIdx pos line) ∧
      ∀ pos, placed = (ls.eraseIdx i).insertIdx pos line →
        (∀ l ∈ placed.take pos, importsHelper helper l = false) →
        place helper placed = placed := by
  intro placed
  refine ⟨place_place, fun i line hi hat => ?_⟩
  obtain ⟨rest, line', hle, rfl, hline⟩ := exists_insertIdx_of_helperImport? hi
  obtain rfl : line' = line := by
    rw [List.getElem?_insertIdx_self, if_pos hle] at hat
    exact Option.some.inj hat
  have hslot : placed = rest.insertIdx (slot rest i line') line' := place_insertIdx hle hi
  have hlength : (rest.insertIdx i line').length = rest.length + 1 :=
    List.length_insertIdx_of_le_length hle _
  rw [List.eraseIdx_insertIdx_self]
  refine ⟨⟨slot rest i line', ?_, hslot⟩, fun pos hpos hfirst => ?_⟩
  · have := slot_le line' hle
    omega
  · have hinside : pos ≤ rest.length := by
      by_contra hlt
      have hsame : rest.insertIdx pos line' = rest :=
        List.insertIdx_of_length_lt (by omega)
      have hperm := (place_perm helper (rest.insertIdx i line')).length_eq
      rw [show place helper (rest.insertIdx i line') = rest from hpos.trans hsame] at hperm
      omega
    rw [hpos] at hfirst
    have hfound := helperImport?_insertIdx_of_take hinside hline hfirst
    have hstays := slot_eq_of_insertIdx_eq hle hi hline (hslot.symm.trans hpos) hfound
    calc place helper placed
      _ = place helper (rest.insertIdx pos line') := by rw [hpos]
      _ = rest.insertIdx (slot rest pos line') line' := place_insertIdx hinside hfound
      _ = placed := by rw [hstays, hslot]

/-- A file whose import of the helper stands inside a group that nothing closes. A regular import
follows the group, and a second import of the helper follows that. -/
def importBeforeLate : List Bytes :=
  [bytes "import a from 'a';", bytes "import type \x7b", bytes "import \x7b use \x7d from './lib';",
    bytes "  A,", bytes "import b from 'b';", bytes "  import \x7b use \x7d from './late';"]

/-- The import comes to stand in front of the group. From there the first rule sends it behind the
regular import again, and the second brings it back; the other import is never overtaken. -/
theorem place_stable_importBeforeLate :
    let placed := place (bytes "use") importBeforeLate
    helperImport? (bytes "use") importBeforeLate = some 2 ∧
      (∀ l ∈ placed.take 1, importsHelper (bytes "use") l = false) ∧
      (afterRegular placed 1).2 = 4 ∧ place (bytes "use") placed = placed := by
  intro placed
  obtain ⟨-, hstable⟩ := place_stable (bytes "use") importBeforeLate
  have hfound : helperImport? (bytes "use") importBeforeLate = some 2 := by decide
  have hfirst : ∀ l ∈ placed.take 1, importsHelper (bytes "use") l = false := by decide
  obtain ⟨-, hstays⟩ := hstable 2 (bytes "import \x7b use \x7d from './lib';") hfound (by decide)
  exact ⟨hfound, hfirst, by decide, hstays 1 (by decide) hfirst⟩

end HelperImports.Import
