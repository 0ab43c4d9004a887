import HelperImports.Text.Lines

/-! Lines and their text determine each other: the lines of a text put together are the text, and
lines without a newline are those of their text. -/

namespace HelperImports

namespace Bytes

theorem splitAt_eq_splitOn (mark : UInt8) (text : Bytes) :
    text.splitAt mark = text.splitOn mark := by
  induction text with
  | nil => simp [splitAt]
  | cons b rest ih =>
    rw [splitAt, ih, List.splitOn_cons_eq_if_modifyHead]
    by_cases hb : b = mark
    · simp [hb]
    · rw [if_neg hb, if_neg (by simpa using hb)]
      cases hs : List.splitOn mark rest with
      | nil => exact absurd hs (List.splitOn_ne_nil mark rest)
      | cons piece pieces => rfl

theorem notMem_of_mem_splitAt {mark : UInt8} {text piece : Bytes}
    (h : piece ∈ text.splitAt mark) : mark ∉ piece := by
  induction text generalizing piece with
  | nil =>
    obtain rfl : piece = [] := by simpa [splitAt] using h
    simp
  | cons b rest ih =>
    rw [splitAt] at h
    split at h
    · rcases List.mem_cons.1 h with rfl | h
      · simp
      · exact ih h
    · rename_i hb
      split at h
      · obtain rfl : piece = [b] := by simpa using h
        simpa using Ne.symm hb
      · rename_i first pieces hs
        rcases List.mem_cons.1 h with rfl | h
        · have hfirst : mark ∉ first := ih (by simp [hs])
          simp [hfirst, Ne.symm hb]
        · exact ih (by simp [hs, h])

/-- The first piece of a text holds all of the text up to the first mark. -/
theorem exists_splitAt_of_prefix {mark : UInt8} {part text : Bytes} (hpart : mark ∉ part)
    (h : part <+: text) : ∃ first pieces, text.splitAt mark = first :: pieces ∧ part <+: first := by
  induction part generalizing text with
  | nil =>
    obtain ⟨first, pieces, hsplit⟩ := List.exists_cons_of_ne_nil
      (splitAt_eq_splitOn mark text ▸ List.splitOn_ne_nil mark text)
    exact ⟨first, pieces, hsplit, List.nil_prefix⟩
  | cons b part ih =>
    obtain ⟨rest, rfl⟩ := h
    simp only [List.mem_cons, not_or] at hpart
    obtain ⟨first, pieces, hsplit, hfirst⟩ := ih hpart.2 (List.prefix_append part rest)
    refine ⟨b :: first, pieces, ?_, List.cons_prefix_cons.2 ⟨rfl, hfirst⟩⟩
    rw [List.cons_append, splitAt, if_neg (Ne.symm hpart.1), hsplit]

theorem exists_mem_splitAt_of_infix {mark : UInt8} {part text : Bytes} (hpart : mark ∉ part)
    (h : part <:+: text) : ∃ piece ∈ text.splitAt mark, part <:+: piece := by
  induction text with
  | nil => exact ⟨[], by simp [splitAt], h⟩
  | cons b rest ih =>
    rcases List.infix_cons_iff.1 h with hfront | hrest
    · obtain ⟨first, pieces, hsplit, hfirst⟩ := exists_splitAt_of_prefix hpart hfront
      exact ⟨first, by simp [hsplit], hfirst.isInfix⟩
    · obtain ⟨piece, hpiece, hin⟩ := ih hrest
      rw [splitAt]
      split
      · exact ⟨piece, List.mem_cons_of_mem _ hpiece, hin⟩
      · -- The first byte joins the first piece and leaves the others as they are.
        cases hsplit : splitAt mark rest with
        | nil => simp [hsplit] at hpiece
        | cons first pieces =>
          rw [hsplit] at hpiece
          rcases List.mem_cons.1 hpiece with rfl | hpiece
          · exact ⟨b :: piece, List.mem_cons_self, List.infix_cons hin⟩
          · exact ⟨piece, List.mem_cons_of_mem _ hpiece, hin⟩

end Bytes

theorem lines_ne_nil (text : Bytes) : lines text ≠ [] := by
  rw [lines, Bytes.splitAt_eq_splitOn]
  exact List.splitOn_ne_nil newline text

theorem newline_notMem_of_mem_lines {text l : Bytes} (h : l ∈ lines text) : newline ∉ l :=
  Bytes.notMem_of_mem_splitAt h

@[simp] theorem unlines_lines (text : Bytes) : unlines (lines text) = text := by
  rw [unlines, lines, Bytes.joinWith, Bytes.splitAt_eq_splitOn, List.intercalate_splitOn]

theorem lines_unlines {ls : List Bytes} (hne : ls ≠ []) (h : ∀ l ∈ ls, newline ∉ l) :
    lines (unlines ls) = ls := by
  rw [lines, unlines, Bytes.joinWith, Bytes.splitAt_eq_splitOn, List.splitOn_intercalate _ h hne]

theorem infix_unlines {ls : List Bytes} {l : Bytes} (h : l ∈ ls) : l <:+: unlines ls := by
  induction ls with
  | nil => cases h
  | cons first ls ih =>
    cases ls with
    | nil =>
      obtain rfl : l = first := by simpa using h
      exact ⟨[], [], by simp [unlines, Bytes.joinWith]⟩
    | cons second ls =>
      rw [unlines, Bytes.joinWith, List.intercalate_cons_cons]
      rcases List.mem_cons.1 h with rfl | h
      · rw [List.append_assoc]
        exact (List.prefix_append l _).isInfix
      · exact (ih h).trans (List.suffix_append _ _).isInfix

/-- A line of a text stands in the text. -/
theorem infix_of_mem_lines {text l : Bytes} (h : l ∈ lines text) : l <:+: text := by
  have hl := infix_unlines h
  rwa [unlines_lines] at hl

end HelperImports
