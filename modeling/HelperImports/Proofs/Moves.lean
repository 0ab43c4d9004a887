import Mathlib
import HelperImports.Proofs.Position

/-! Moves of a line. A line is taken out and put back at an index of what is left, and the move is
refused where one of these two steps has no such index. A line that is moved stands among the same
other lines as before, so only the lines that it passes change their index, and the move back
restores the list. -/

namespace HelperImports.Import

/-! ### The two steps of a move -/

/-- Takes the line at `src` out: the line, and the lines that are left. -/
def detach? (ls : List α) (src : Int) : Option (α × List α) :=
  if 0 ≤ src then ls[src.toNat]?.map (·, ls.eraseIdx src.toNat) else none

/-- Puts a line in at `dst`, which may be the index behind the last line. -/
def attach? (ls : List α) (dst : Int) (l : α) : Option (List α) :=
  if 0 ≤ dst ∧ dst ≤ ls.length then some (ls.insertIdx dst.toNat l) else none

theorem detach?_isSome_iff {ls : List α} {src : Int} :
    (detach? ls src).isSome = true ↔ 0 ≤ src ∧ src < ls.length := by
  unfold detach?
  split
  · rename_i hsrc
    rw [Option.isSome_map, isSome_getElem?]
    omega
  · rename_i hsrc
    simp [hsrc]

theorem attach?_isSome_iff {ls : List α} {dst : Int} {l : α} :
    (attach? ls dst l).isSome = true ↔ 0 ≤ dst ∧ dst ≤ ls.length := by
  unfold attach?
  split <;> simp_all

/-- The line that is taken out can be put back where it was. -/
theorem exists_insertIdx_of_detach? {ls rest : List α} {src : Int} {l : α}
    (h : detach? ls src = some (l, rest)) :
    src.toNat ≤ rest.length ∧ ls = rest.insertIdx src.toNat l := by
  unfold detach? at h
  split at h
  · rw [Option.map_eq_some_iff] at h
    obtain ⟨x, hget, hpair⟩ := h
    obtain ⟨rfl, rfl⟩ := Prod.mk.inj hpair
    obtain ⟨hlt, rfl⟩ := List.getElem?_eq_some_iff.1 hget
    refine ⟨?_, (List.insertIdx_eraseIdx_getElem hlt).symm⟩
    rw [List.length_eraseIdx_of_lt hlt]
    omega
  · cases h

theorem eq_insertIdx_of_attach? {rest moved : List α} {dst : Int} {l : α}
    (h : attach? rest dst l = some moved) :
    dst.toNat ≤ rest.length ∧ moved = rest.insertIdx dst.toNat l := by
  unfold attach? at h
  split at h
  · exact ⟨by omega, (Option.some.inj h).symm⟩
  · cases h

/-- A move is refused where one of its steps is. -/
theorem move?_eq_bind (ls : List α) (src dst : Int) :
    move? ls src dst = (detach? ls src).bind fun taken => attach? taken.2 dst taken.1 := by
  cases hout : detach? ls src with
  | none =>
    have hrange : ¬ (0 ≤ src ∧ src < ls.length) := by
      rw [← detach?_isSome_iff, hout]
      simp
    rw [move?, if_neg (by omega), Option.bind_none]
  | some taken =>
    obtain ⟨l, rest⟩ := taken
    obtain ⟨hle, rfl⟩ := exists_insertIdx_of_detach? hout
    have hsrc := detach?_isSome_iff.1 (by rw [hout]; rfl)
    have hlength := List.length_insertIdx_of_le_length hle l
    rw [move?, Option.bind_some, attach?, move_insertIdx rest dst.toNat l hle]
    refine if_congr ?_ rfl rfl
    show _ ↔ 0 ≤ dst ∧ dst ≤ rest.length
    omega

/-! ### One line among others, at two indices -/

/-- `moved` is `ls` with the line at `src` moved to `dst`. -/
structure IsMove (ls moved : List α) (src dst : Nat) : Prop where
  length : moved.length = ls.length
  line : ∃ l, ls[src]? = some l ∧ moved[dst]? = some l
  others : moved.eraseIdx dst = ls.eraseIdx src
  outside : ∀ i, i < min src dst ∨ max src dst < i → moved[i]? = ls[i]?

theorem isMove_insertIdx {rest : List α} {src dst : Nat} (l : α) (hsrc : src ≤ rest.length)
    (hdst : dst ≤ rest.length) :
    IsMove (rest.insertIdx src l) (rest.insertIdx dst l) src dst where
  length := by
    rw [List.length_insertIdx_of_le_length hsrc, List.length_insertIdx_of_le_length hdst]
  line := ⟨l, by rw [List.getElem?_insertIdx_self, if_pos hsrc],
    by rw [List.getElem?_insertIdx_self, if_pos hdst]⟩
  others := by rw [List.eraseIdx_insertIdx_self, List.eraseIdx_insertIdx_self]
  outside i hi := by
    rcases hi with hbefore | hbehind
    · rw [List.getElem?_insertIdx_of_lt (by omega), List.getElem?_insertIdx_of_lt (by omega)]
    · rw [List.getElem?_insertIdx_of_gt (by omega), List.getElem?_insertIdx_of_gt (by omega)]

/-- A move is the two steps of taking a line out and putting it in, and it is made if and only if
both indices are those of lines. Then the line stands at its new index among the lines that were
left without it, the lines outside of the stretch between the two indices stay where they are, and
the move back restores the list. -/
theorem move?_invertible (ls : List α) (src dst : Int) :
    (move? ls src dst = (detach? ls src).bind fun taken => attach? taken.2 dst taken.1) ∧
    ((∃ moved, move? ls src dst = some moved) ↔
      (0 ≤ src ∧ src < ls.length) ∧ 0 ≤ dst ∧ dst < ls.length) ∧
    ∀ moved, move? ls src dst = some moved →
      IsMove ls moved src.toNat dst.toNat ∧ move? moved dst src = some ls := by
  have hsteps := move?_eq_bind ls src dst
  refine ⟨hsteps, ?_, fun moved hmoved => ?_⟩
  · rw [hsteps, ← Option.isSome_iff_exists, ← detach?_isSome_iff]
    cases hout : detach? ls src with
    | none => simp
    | some taken =>
      obtain ⟨hle, hls⟩ := exists_insertIdx_of_detach? hout
      have hlength := congrArg List.length hls
      rw [List.length_insertIdx_of_le_length hle] at hlength
      rw [Option.bind_some, attach?_isSome_iff]
      simp only [Option.isSome_some, true_and]
      omega
  · rw [hsteps, Option.bind_eq_some_iff] at hmoved
    obtain ⟨⟨l, rest⟩, hout, hin⟩ := hmoved
    obtain ⟨hsrc, rfl⟩ := exists_insertIdx_of_detach? hout
    obtain ⟨hdst, rfl⟩ := eq_insertIdx_of_attach? hin
    refine ⟨isMove_insertIdx l hsrc hdst, ?_⟩
    -- Both lists are the other lines with the line put in, so the way back is a move as well.
    have hback : detach? (rest.insertIdx dst.toNat l) dst = some (l, rest) := by
      have hrange := attach?_isSome_iff.1 (by rw [hin]; rfl)
      rw [detach?, if_pos hrange.1, List.getElem?_insertIdx_self, if_pos hdst,
        List.eraseIdx_insertIdx_self]
      rfl
    have hrange : 0 ≤ src ∧ src ≤ rest.length := by
      have hfront := (detach?_isSome_iff.1 (by rw [hout]; rfl)).1
      omega
    rw [move?_eq_bind, hback, Option.bind_some, attach?, if_pos hrange]

/-- The last line moves to the front, past all others, and back. -/
theorem move?_invertible_lastToFront :
    let ls := [bytes "a", bytes "b", bytes "c"]
    let moved := [bytes "c", bytes "a", bytes "b"]
    move? ls 2 0 = some moved ∧ IsMove ls moved 2 0 ∧ move? moved 0 2 = some ls := by
  intro ls moved
  obtain ⟨-, -, hmove⟩ := move?_invertible ls 2 0
  have hmoved : move? ls 2 0 = some moved := by decide
  exact ⟨hmoved, hmove moved hmoved⟩

end HelperImports.Import
