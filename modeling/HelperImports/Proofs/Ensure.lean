import HelperImports.Proofs.Lines
import HelperImports.Proofs.Placement

/-! The added statement is an import of the helper, however the helper and the specifier are
spelled, so lines in which the import was ensured hold one, and ensuring it again changes
nothing. -/

namespace HelperImports

/-! ### Text that begins in ASCII -/

/-- A byte below `0x80` as a character. -/
def asciiRune (b : UInt8) : Rune := ⟨some (Char.ofNat b.toNat), [b]⟩

theorem runes_cons_ascii {b : UInt8} (hb : b.toNat < 0x80) (rest : Bytes) :
    runes (b :: rest) = asciiRune b :: runes rest := by
  simp [runes, runesFrom, Rune.leading?, hb, asciiRune]

theorem runes_append_ascii {front : Bytes} (h : ∀ b ∈ front, b.toNat < 0x80) (rest : Bytes) :
    runes (front ++ rest) = front.map asciiRune ++ runes rest := by
  induction front with
  | nil => rfl
  | cons b front ih =>
    rw [List.forall_mem_cons] at h
    rw [List.cons_append, runes_cons_ascii h.1, ih h.2, List.map_cons, List.cons_append]

theorem unrunes_append (rs ss : List Rune) : unrunes (rs ++ ss) = unrunes rs ++ unrunes ss :=
  List.flatMap_append

theorem unrunes_map_asciiRune (text : Bytes) : unrunes (text.map asciiRune) = text := by
  induction text with
  | nil => rfl
  | cons b text ih =>
    rw [List.map_cons, ← List.singleton_append, unrunes_append, ih]
    rfl

theorem prefix_reverse_dropWhile_reverse {f : α → Bool} {l : α} (hl : f l = false)
    (front rest : List α) :
    front ++ [l] <+: ((front ++ [l] ++ rest).reverse.dropWhile f).reverse := by
  rw [List.reverse_append, List.dropWhile_append]
  split
  · simp [hl]
  · simp

/-- Trimming keeps a beginning in ASCII whose first and last characters are not blank. -/
theorem prefix_trim (first : UInt8) (mid : Bytes) (last : UInt8) (rest : Bytes)
    (h : (first :: mid ++ [last]).all (fun b => b.toNat < 0x80) = true)
    (hfirst : (asciiRune first).isBlank = false) (hlast : (asciiRune last).isBlank = false) :
    first :: mid ++ [last] <+: trim (first :: mid ++ [last] ++ rest) := by
  have hascii : ∀ b ∈ first :: mid ++ [last], b.toNat < 0x80 := fun b hb =>
    of_decide_eq_true (List.all_eq_true.1 h b hb)
  have hruns := runes_append_ascii hascii rest
  rw [List.map_append, List.map_singleton] at hruns
  have hdrop : (runes (first :: mid ++ [last] ++ rest)).dropWhile Rune.isBlank =
      (first :: mid).map asciiRune ++ [asciiRune last] ++ runes rest := by
    rw [hruns, List.map_cons, List.cons_append, List.cons_append, List.dropWhile_cons, hfirst]
    rfl
  obtain ⟨back, hback⟩ :=
    prefix_reverse_dropWhile_reverse hlast ((first :: mid).map asciiRune) (runes rest)
  refine ⟨unrunes back, ?_⟩
  have hfront := unrunes_map_asciiRune (first :: mid ++ [last])
  rw [List.map_append, List.map_singleton] at hfront
  rw [trim, hdrop, ← hback, unrunes_append, hfront]

namespace Import

/-! ### Mentions of the helper -/

/-- A helper that is mentioned in a line of a text stands in the text. -/
theorem infix_of_mentions {helper text : Bytes} (h : mentions helper (lines text) = true) :
    helper <:+: text := by
  obtain ⟨l, hl, hin⟩ := List.any_eq_true.1 h
  exact (Bytes.occursIn_iff.1 hin).trans (infix_of_mem_lines hl)

theorem mentions_lines_iff {helper : Bytes} (hhelper : newline ∉ helper) (text : Bytes) :
    mentions helper (lines text) = true ↔ helper <:+: text := by
  refine ⟨infix_of_mentions, fun h => ?_⟩
  obtain ⟨l, hl, hin⟩ := Bytes.exists_mem_splitAt_of_infix hhelper h
  exact List.any_eq_true.2 ⟨l, hl, Bytes.occursIn_iff.2 hin⟩

/-! ### The statement -/

/-- The statement imports the helper, whatever the helper and the specifier are. -/
theorem importsHelper_statement (helper specifier : Bytes) :
    importsHelper helper (statement helper specifier) = true := by
  have hopen : bytes "import \x7b " = (0x69 : UInt8) :: bytes "mport " ++ [0x7B] ++ [0x20] := by
    decide
  have htrim : keyword <+: trim (statement helper specifier) := by
    have := prefix_trim 0x69 (bytes "mport ") 0x7B
      (0x20 :: helper ++ bytes " \x7d from '" ++ specifier ++ bytes "';") (by decide) (by decide)
      (by decide)
    have hkeyword : keyword <+: (0x69 : UInt8) :: bytes "mport " ++ [0x7B] := by decide
    refine hkeyword.trans ?_
    simpa [statement, hopen] using this
  have hin : helper <:+: statement helper specifier :=
    ⟨bytes "import \x7b ", bytes " \x7d from '" ++ specifier ++ bytes "';", by simp [statement]⟩
  rw [importsHelper, Bool.and_eq_true]
  exact ⟨List.isPrefixOf_iff_prefix.2 htrim, Bytes.occursIn_iff.2 hin⟩

theorem newline_notMem_statement {helper specifier : Bytes} (hh : newline ∉ helper)
    (hs : newline ∉ specifier) : newline ∉ statement helper specifier := by
  have h₁ : newline ∉ bytes "import \x7b " := by decide
  have h₂ : newline ∉ bytes " \x7d from '" := by decide
  have h₃ : newline ∉ bytes "';" := by decide
  simp [statement, *]

/-! ### Adding the statement -/

theorem helperImport?_eq_none_iff {helper : Bytes} {ls : List Bytes} :
    helperImport? helper ls = none ↔ ∀ l ∈ ls, importsHelper helper l = false := by
  simp [helperImport?, List.findIdx?_eq_none_iff]

/-- A line that is put among lines without an import of the helper is the first one that imports
it. -/
theorem helperImport?_insertIdx {helper line : Bytes} {rest : List Bytes} {i : Nat}
    (hno : helperImport? helper rest = none) (hi : i ≤ rest.length)
    (hline : importsHelper helper line = true) :
    helperImport? helper (rest.insertIdx i line) = some i := by
  rw [helperImport?] at hno
  rw [helperImport?, findIdx?_insertIdx _ rest line hi, hno, hline]
  rfl

/-- Beside the only import of the helper there is none. -/
theorem helperImport?_of_countP_le_one {helper line : Bytes} {rest : List Bytes} {i : Nat}
    (hi : i ≤ rest.length) (hline : importsHelper helper line = true)
    (hone : (rest.insertIdx i line).countP (importsHelper helper) ≤ 1) :
    helperImport? helper rest = none := by
  rw [(List.perm_insertIdx line rest hi).countP_eq, List.countP_cons_of_pos hline] at hone
  have hzero : rest.countP (importsHelper helper) = 0 := by omega
  simpa [helperImport?_eq_none_iff] using hzero

theorem runLength_le (ls : List Bytes) : runLength ls ≤ ls.length :=
  (List.takeWhile_sublist _).length_le

theorem insert_perm (line : Bytes) (ls : List Bytes) : (insert line ls).Perm (line :: ls) :=
  List.perm_insertIdx line ls (runLength_le ls)

/-- What `ensure` gives: the lines with their first import in its place, or, if they have none, with
the statement added and put in its place. -/
theorem ensure_cases {helper : Bytes} {specifier : Except ε Bytes} {ls : List Bytes} {e : Ensured}
    (h : ensure helper specifier ls = .ok e) :
    (∃ i, helperImport? helper ls = some i ∧ e = ⟨place helper ls, false⟩) ∨
    (helperImport? helper ls = none ∧ ∃ s, specifier = .ok s ∧
      e = ⟨place helper (insert (statement helper s) ls), true⟩) := by
  unfold ensure at h
  cases hi : helperImport? helper ls with
  | some i =>
    simp only [hi, Except.ok.injEq] at h
    exact .inl ⟨i, rfl, h.symm⟩
  | none =>
    cases specifier with
    | error f => simp [hi, bind, Except.bind] at h
    | ok s =>
      simp only [hi, bind, Except.bind, pure, Except.pure, Except.ok.injEq] at h
      exact .inr ⟨rfl, s, rfl, h.symm⟩

/-- How lines change while the import of the helper is ensured: the other lines stay as they are,
imports of the helper are only moved, and where there is none at most one statement is added. -/
structure Keeps (helper : Bytes) (before after : List Bytes) : Prop where
  others : after.filter (fun l => !importsHelper helper l) =
    before.filter (fun l => !importsHelper helper l)
  imports : (∃ l ∈ before, importsHelper helper l = true) →
    (after.filter (importsHelper helper)).Perm (before.filter (importsHelper helper))
  added : (∀ l ∈ before, importsHelper helper l = false) →
    after.filter (importsHelper helper) = [] ∨
      ∃ specifier, after.filter (importsHelper helper) = [statement helper specifier]

theorem Keeps.refl (helper : Bytes) (ls : List Bytes) : Keeps helper ls ls where
  others := rfl
  imports _ := .refl _
  added h := .inl (by simpa [List.filter_eq_nil_iff] using h)

theorem Keeps.trans {helper : Bytes} {ls₁ ls₂ ls₃ : List Bytes} (h₁ : Keeps helper ls₁ ls₂)
    (h₂ : Keeps helper ls₂ ls₃) : Keeps helper ls₁ ls₃ := by
  refine ⟨h₂.others.trans h₁.others, fun h => ?_, fun h => ?_⟩
  · have hperm := h₁.imports h
    obtain ⟨l, hl, hi⟩ := h
    have hmem := (List.mem_filter.1 (hperm.mem_iff.2 (List.mem_filter.2 ⟨hl, hi⟩))).1
    exact (h₂.imports ⟨l, hmem, hi⟩).trans hperm
  · rcases h₁.added h with hnone | ⟨s, hs⟩
    · exact h₂.added (by simpa [List.filter_eq_nil_iff] using hnone)
    · have hmem : statement helper s ∈ ls₂ := (List.mem_filter.1 (hs ▸ List.mem_singleton_self _)).1
      have hperm := h₂.imports ⟨_, hmem, importsHelper_statement helper s⟩
      rw [hs] at hperm
      exact .inr ⟨s, List.perm_singleton.1 hperm⟩

theorem filter_insert {helper : Bytes} {ls : List Bytes} (specifier : Bytes)
    (h : ∀ l ∈ ls, importsHelper helper l = false) :
    (insert (statement helper specifier) ls).filter (importsHelper helper) =
      [statement helper specifier] := by
  have hls : ls.filter (importsHelper helper) = [] := by
    simpa [List.filter_eq_nil_iff] using h
  have hperm := (insert_perm (statement helper specifier) ls).filter (importsHelper helper)
  rw [List.filter_cons_of_pos (importsHelper_statement helper specifier), hls] at hperm
  exact List.perm_singleton.1 hperm

/-- An added statement is the only import of the helper, wherever it is placed. -/
theorem filter_place_insert {helper : Bytes} {ls : List Bytes} (specifier : Bytes)
    (h : ∀ l ∈ ls, importsHelper helper l = false) :
    (place helper (insert (statement helper specifier) ls)).filter (importsHelper helper) =
      [statement helper specifier] := by
  have hperm := (place_perm helper (insert (statement helper specifier) ls)).filter
    (importsHelper helper)
  rw [filter_insert specifier h] at hperm
  exact List.perm_singleton.1 hperm

/-- Ensuring the import keeps the user's lines. -/
theorem keeps_ensure {helper : Bytes} {specifier : Except ε Bytes} {ls : List Bytes} {e : Ensured}
    (h : ensure helper specifier ls = .ok e) : Keeps helper ls e.lines := by
  rcases ensure_cases h with ⟨i, hi, rfl⟩ | ⟨hnone, s, -, rfl⟩
  · refine ⟨filter_place helper ls, fun _ => (place_perm helper ls).filter _, fun hno => ?_⟩
    rw [helperImport?_eq_none_iff.2 hno] at hi
    cases hi
  · rw [helperImport?_eq_none_iff] at hnone
    refine ⟨?_, fun ⟨l, hl, hi⟩ => ?_, fun _ => .inr ⟨s, filter_place_insert s hnone⟩⟩
    · rw [filter_place]
      exact filter_insertIdx_of_neg (by simp [importsHelper_statement]) ls _
    · simp [hnone l hl] at hi

/-- Ensuring the import brings in no newline but with the statement. -/
theorem newline_notMem_of_mem_ensure {helper : Bytes} {specifier : Except ε Bytes}
    {ls : List Bytes} {e : Ensured} (h : ensure helper specifier ls = .ok e)
    (hls : ∀ l ∈ ls, newline ∉ l) (hh : newline ∉ helper)
    (hs : ∀ s, specifier = .ok s → newline ∉ s) : ∀ l ∈ e.lines, newline ∉ l := by
  intro l hl
  rcases ensure_cases h with ⟨i, -, rfl⟩ | ⟨-, s, hok, rfl⟩
  · exact hls l ((place_perm helper ls).mem_iff.1 hl)
  · have hl := (insert_perm _ ls).mem_iff.1 ((place_perm helper _).mem_iff.1 hl)
    rcases List.mem_cons.1 hl with rfl | hl
    · exact newline_notMem_statement hh (hs s hok)
    · exact hls l hl

theorem ensure_lines_ne_nil {helper : Bytes} {specifier : Except ε Bytes} {ls : List Bytes}
    {e : Ensured} (h : ensure helper specifier ls = .ok e) (hne : ls ≠ []) : e.lines ≠ [] := by
  rw [← List.length_pos_iff] at hne ⊢
  rcases ensure_cases h with ⟨i, -, rfl⟩ | ⟨-, s, -, rfl⟩
  · rw [(place_perm helper ls).length_eq]
    exact hne
  · rw [(place_perm helper _).length_eq, (insert_perm _ ls).length_eq]
    simp

/-! ### Ensuring twice -/

/-- Placing the only import of the helper puts it where it stays. -/
theorem place_place {helper : Bytes} {ls : List Bytes}
    (h : ls.countP (importsHelper helper) ≤ 1) :
    place helper (place helper ls) = place helper ls := by
  cases hi : helperImport? helper ls with
  | none => rw [place_of_helperImport?_eq_none hi, place_of_helperImport?_eq_none hi]
  | some i =>
    obtain ⟨rest, line, hle, rfl, hline⟩ := exists_insertIdx_of_helperImport? hi
    have hrest := helperImport?_of_countP_le_one hle hline h
    rw [place_insertIdx hle hi]
    exact place_slot hle (helperImport?_insertIdx hrest (slot_le line hle) hline)

/-- Lines in which the import was ensured hold it, and in its place. -/
theorem settled_of_ensure {helper : Bytes} {specifier : Except ε Bytes} {ls : List Bytes}
    {e : Ensured} (h : ensure helper specifier ls = .ok e)
    (hone : ls.countP (importsHelper helper) ≤ 1) :
    e.lines.countP (importsHelper helper) = 1 ∧ place helper e.lines = e.lines := by
  rcases ensure_cases h with ⟨i, hi, rfl⟩ | ⟨hnone, s, -, rfl⟩
  · refine ⟨?_, place_place hone⟩
    rw [(place_perm helper ls).countP_eq]
    obtain ⟨rest, line, hle, rfl, hline⟩ := exists_insertIdx_of_helperImport? hi
    rw [(List.perm_insertIdx line rest hle).countP_eq, List.countP_cons_of_pos hline] at hone ⊢
    omega
  · have hcount : (insert (statement helper s) ls).countP (importsHelper helper) = 1 := by
      rw [List.countP_eq_length_filter, filter_insert s (helperImport?_eq_none_iff.1 hnone)]
      rfl
    exact ⟨by rw [(place_perm helper _).countP_eq, hcount], place_place (by omega)⟩

/-- Where an import stands in its place already, ensuring it changes nothing, and asks for no
specifier. -/
theorem ensure_of_settled {helper : Bytes} {ls : List Bytes}
    (hone : ls.countP (importsHelper helper) = 1) (hplace : place helper ls = ls)
    (specifier : Except ε Bytes) : ensure helper specifier ls = .ok ⟨ls, false⟩ := by
  cases hi : helperImport? helper ls with
  | some i => simp only [ensure, hi, hplace]
  | none =>
    have hzero : ls.countP (importsHelper helper) = 0 :=
      List.countP_eq_zero.2 (by simpa using helperImport?_eq_none_iff.1 hi)
    omega

end Import

end HelperImports
