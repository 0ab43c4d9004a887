import HelperImports.FileSystem.Node
import HelperImports.Proofs.Lines

/-! The names of computed paths. A cleaned path is spelled from names that are steps, and these can
be read off it again, so cleaning, joining and making absolute are operations on lists of names: two
paths in a row have the names of both, and names without a step up stay as they are. -/

namespace HelperImports

theorem Bytes.splitAt_append_cons (mark : UInt8) (a b : Bytes) :
    (a ++ mark :: b).splitAt mark = a.splitAt mark ++ b.splitAt mark := by
  induction a with
  | nil => simp [splitAt]
  | cons x a ih =>
    rw [List.cons_append, splitAt, splitAt, ih]
    by_cases hx : x = mark
    · simp [hx]
    · rw [if_neg hx, if_neg hx]
      cases hs : Bytes.splitAt mark a with
      | nil =>
        rw [splitAt_eq_splitOn] at hs
        exact absurd hs (List.splitOn_ne_nil mark a)
      | cons piece pieces => rfl

theorem Bytes.splitAt_joinWith {mark : UInt8} {pieces : List Bytes} (hne : pieces ≠ [])
    (h : ∀ piece ∈ pieces, mark ∉ piece) : (joinWith mark pieces).splitAt mark = pieces := by
  rw [joinWith, splitAt_eq_splitOn, List.splitOn_intercalate _ h hne]

theorem Bytes.joinWith_cons (mark : UInt8) (piece : Bytes) {pieces : List Bytes}
    (hne : pieces ≠ []) :
    joinWith mark (piece :: pieces) = piece ++ mark :: joinWith mark pieces := by
  cases pieces with
  | nil => exact absurd rfl hne
  | cons second pieces => simp [joinWith, List.intercalate_cons_cons]

theorem Bytes.joinWith_splitAt (mark : UInt8) (text : Bytes) :
    joinWith mark (text.splitAt mark) = text := by
  rw [joinWith, splitAt_eq_splitOn, List.intercalate_splitOn]

theorem Bytes.length_joinWith_le {mark : UInt8} {xs ys : List Bytes} (h : xs.Sublist ys) :
    (joinWith mark xs).length ≤ (joinWith mark ys).length := by
  induction h with
  | slnil => exact Nat.le_refl _
  | @cons xs ys y h ih =>
    by_cases hys : ys = []
    · obtain rfl := List.sublist_nil.1 (hys ▸ h)
      exact Nat.zero_le _
    · rw [joinWith_cons mark y hys, List.length_append, List.length_cons]
      omega
  | @cons_cons xs ys y h ih =>
    by_cases hys : ys = []
    · obtain rfl := List.sublist_nil.1 (hys ▸ h)
      exact Nat.le_of_eq (by rw [hys])
    · rw [joinWith_cons mark y hys, List.length_append, List.length_cons]
      by_cases hxs : xs = []
      · rw [hxs, joinWith, List.intercalate_singleton]
        omega
      · rw [joinWith_cons mark y hxs, List.length_append, List.length_cons]
        omega

namespace Path

/-! ### Steps -/

/-- A text that is a step of a path: a name, or the step up. -/
structure IsStep (n : Bytes) : Prop where
  nonempty : n ≠ []
  notDot : n ≠ dot
  plain : slash ∉ n

theorem isStep_dotDot : IsStep dotDot := ⟨by decide, by decide, by decide⟩

theorem isEntryName_iff {n : Bytes} : isEntryName n = true ↔ IsStep n ∧ n ≠ dotDot := by
  simp only [isEntryName, Bool.and_eq_true, Bool.not_eq_true', List.isEmpty_eq_false_iff,
    bne_iff_ne, List.contains_eq_mem, decide_eq_false_iff_not]
  constructor
  · rintro ⟨⟨⟨hne, hdot⟩, hup⟩, hslash⟩
    exact ⟨⟨hne, hdot, hslash⟩, hup⟩
  · rintro ⟨⟨hne, hdot, hslash⟩, hup⟩
    exact ⟨⟨⟨hne, hdot⟩, hup⟩, hslash⟩

theorem isStep_of_mem_names {path n : Bytes} (h : n ∈ names path) : IsStep n := by
  obtain ⟨hpiece, hkept⟩ := List.mem_filter.1 h
  have hkept : n ≠ [] ∧ n ≠ dot := by simpa using hkept
  exact ⟨hkept.1, hkept.2, Bytes.notMem_of_mem_splitAt hpiece⟩

/-! ### Reading names off a path -/

theorem names_append_cons (a b : Bytes) : names (a ++ slash :: b) = names a ++ names b := by
  rw [names, names, names, Bytes.splitAt_append_cons, List.filter_append]

theorem names_joinWith {ns : List Bytes} (h : ∀ n ∈ ns, IsStep n) :
    names (Bytes.joinWith slash ns) = ns := by
  cases ns with
  | nil => rfl
  | cons n ns =>
    rw [names, Bytes.splitAt_joinWith (by simp) fun n hn => (h n hn).plain, List.filter_eq_self]
    intro n hn
    simp [(h n hn).nonempty, (h n hn).notDot]

theorem names_spell (rooted : Bool) {ns : List Bytes} (h : ∀ n ∈ ns, IsStep n) :
    names (spell rooted ns) = ns := by
  unfold spell
  cases rooted with
  | true =>
    have hroot : names (slash :: Bytes.joinWith slash ns) = names (Bytes.joinWith slash ns) :=
      names_append_cons [] _
    rw [if_pos rfl, hroot, names_joinWith h]
  | false =>
    cases ns with
    | nil => decide
    | cons n ns => simpa using names_joinWith h

theorem head?_append_of_ne_nil {a : Bytes} (h : a ≠ []) (b : Bytes) :
    (a ++ b).head? = a.head? := by
  cases a with
  | nil => exact absurd rfl h
  | cons x a => rfl

theorem head?_joinWith {n : Bytes} (h : n ≠ []) (ns : List Bytes) :
    (Bytes.joinWith slash (n :: ns)).head? = n.head? := by
  cases ns with
  | nil => simp [Bytes.joinWith]
  | cons m ns =>
    rw [Bytes.joinWith_cons slash n (by simp), head?_append_of_ne_nil h]

theorem isRooted_spell (rooted : Bool) {ns : List Bytes} (h : ∀ n ∈ ns, IsStep n) :
    isRooted (spell rooted ns) = rooted := by
  unfold spell
  cases rooted with
  | true => simp [isRooted]
  | false =>
    cases ns with
    | nil => decide
    | cons n ns =>
      have hn := h n List.mem_cons_self
      have hhead : n.head? ≠ some slash := fun hslash => hn.plain (List.mem_of_head? hslash)
      simpa [isRooted, head?_joinWith hn.nonempty] using hhead

theorem spell_ne_nil (rooted : Bool) {ns : List Bytes} (h : ∀ n ∈ ns, IsStep n) :
    spell rooted ns ≠ [] := by
  unfold spell
  cases rooted with
  | true => simp
  | false =>
    cases ns with
    | nil => decide
    | cons n ns =>
      intro hnil
      have hne := (h n List.mem_cons_self).nonempty
      have hjoin : Bytes.joinWith slash (n :: ns) = [] := by simpa using hnil
      have hhead := head?_joinWith hne ns
      rw [hjoin] at hhead
      exact hne (List.head?_eq_none_iff.1 hhead.symm)

theorem spell_inj {rooted : Bool} {ns ms : List Bytes} (hns : ∀ n ∈ ns, IsStep n)
    (hms : ∀ n ∈ ms, IsStep n) (h : spell rooted ns = spell rooted ms) : ns = ms := by
  rw [← names_spell rooted hns, h, names_spell rooted hms]

/-! ### The last name -/

/-- A spelled path ends with its last name, and what is in front of that is nothing or ends with a
slash. -/
theorem exists_spell_concat (rooted : Bool) (ns : List Bytes) (n : Bytes) :
    ∃ front, spell rooted (ns ++ [n]) = front ++ n ∧
      (front = [] ∨ ∃ rest, front = rest ++ [slash]) := by
  have hjoin : ∃ front, Bytes.joinWith slash (ns ++ [n]) = front ++ n ∧
      (front = [] ∨ ∃ rest, front = rest ++ [slash]) := by
    induction ns with
    | nil => exact ⟨[], by simp [Bytes.joinWith], .inl rfl⟩
    | cons m ns ih =>
      obtain ⟨front, hfront, hends⟩ := ih
      refine ⟨m ++ slash :: front, ?_, .inr ?_⟩
      · rw [List.cons_append, Bytes.joinWith_cons slash m (by simp), hfront]
        simp
      · rcases hends with rfl | ⟨rest, rfl⟩
        · exact ⟨m, rfl⟩
        · exact ⟨m ++ slash :: rest, by simp⟩
  obtain ⟨front, hfront, hends⟩ := hjoin
  cases rooted with
  | false => exact ⟨front, by simpa [spell] using hfront, hends⟩
  | true =>
    refine ⟨slash :: front, by simp [spell, hfront], .inr ?_⟩
    rcases hends with rfl | ⟨rest, rfl⟩
    · exact ⟨[], rfl⟩
    · exact ⟨slash :: rest, rfl⟩

theorem getLast?_spell_concat (rooted : Bool) (ns : List Bytes) {n : Bytes} (h : IsStep n) :
    (spell rooted (ns ++ [n])).getLast? ≠ some slash := by
  obtain ⟨front, hspell, -⟩ := exists_spell_concat rooted ns n
  have hlast : (front ++ n).getLast? = n.getLast? := by
    rw [List.getLast?_append, List.getLast?_eq_some_getLast h.nonempty, Option.some_or]
  rw [hspell, hlast]
  exact fun hslash => h.plain (List.mem_of_getLast? hslash)

theorem base_spell_concat (rooted : Bool) (ns : List Bytes) {n : Bytes} (h : IsStep n) :
    base (spell rooted (ns ++ [n])) = n := by
  obtain ⟨front, hspell, hends⟩ := exists_spell_concat rooted ns n
  have hkeep : dropSlashes (front ++ n) = front ++ n := by
    have hlast : (front ++ n).reverse.head? ≠ some slash := by
      rw [← hspell, List.head?_reverse]
      exact getLast?_spell_concat rooted ns h
    rw [dropSlashes]
    cases hr : (front ++ n).reverse with
    | nil => exact (List.reverse_eq_nil_iff.1 hr).symm
    | cons b back =>
      have hb : b ≠ slash := by simpa [hr] using hlast
      have hdrop : (b :: back).dropWhile (· == slash) = b :: back := by simp [hb]
      rw [hdrop, ← hr, List.reverse_reverse]
  have hname : (front ++ n).reverse.takeWhile (· != slash) = n.reverse := by
    rw [List.reverse_append, List.takeWhile_append_of_pos]
    · rcases hends with rfl | ⟨rest, rfl⟩ <;> simp
    · intro b hb
      have hne : b ≠ slash := fun heq => h.plain (heq ▸ List.mem_reverse.1 hb)
      simpa using hne
  have hne : front ++ n ≠ [] := by simp [h.nonempty]
  rw [hspell, base, if_neg (by simp [h.nonempty]), hkeep]
  split
  · rename_i hnil
    exact absurd hnil hne
  · rw [hname, List.reverse_reverse]

/-! ### Taking steps up -/

theorem foldl_step {rooted : Bool} {ms : List Bytes} (h : dotDot ∉ ms) (back : List Bytes) :
    ms.foldl (step rooted) back = ms.reverse ++ back := by
  induction ms generalizing back with
  | nil => rfl
  | cons m ms ih =>
    simp only [List.mem_cons, not_or] at h
    have hstep : step rooted back m = m :: back := if_neg (Ne.symm h.1)
    rw [List.foldl_cons, hstep, ih h.2]
    simp

theorem resolved_append {rooted : Bool} {ms : List Bytes} (h : dotDot ∉ ms) (ns : List Bytes) :
    resolved rooted (ns ++ ms) = resolved rooted ns ++ ms := by
  rw [resolved, List.foldl_append, foldl_step h, List.reverse_append, List.reverse_reverse]
  rfl

theorem resolved_of_notMem {rooted : Bool} {ms : List Bytes} (h : dotDot ∉ ms) :
    resolved rooted ms = ms :=
  resolved_append h []

/-- What holds of the step up and of all names holds of the steps that are left. -/
theorem forall_mem_foldl_step {P : Bytes → Prop} {rooted : Bool} (hup : rooted = false → P dotDot)
    {ns back : List Bytes} (hns : ∀ n ∈ ns, n ≠ dotDot → P n) (hback : ∀ n ∈ back, P n) :
    ∀ n ∈ ns.foldl (step rooted) back, P n := by
  induction ns generalizing back with
  | nil => exact hback
  | cons name ns ih =>
    rw [List.forall_mem_cons] at hns
    refine ih hns.2 fun n hn => ?_
    unfold step at hn
    split at hn
    · cases back with
      | nil =>
        cases rooted with
        | true => cases hn
        | false =>
          rw [List.mem_singleton.1 hn]
          exact hup rfl
      | cons last rest =>
        dsimp only at hn
        split at hn
        · rename_i hlast
          rcases List.mem_cons.1 hn with rfl | hn
          · exact hlast ▸ hback last List.mem_cons_self
          · exact hback n hn
        · exact hback n (List.mem_cons_of_mem last hn)
    · rename_i hname
      rcases List.mem_cons.1 hn with rfl | hn
      · exact hns.1 hname
      · exact hback n hn

theorem isStep_of_mem_resolved {rooted : Bool} {ns : List Bytes} (h : ∀ n ∈ ns, IsStep n) :
    ∀ n ∈ resolved rooted ns, IsStep n := by
  intro n hn
  exact forall_mem_foldl_step (fun _ => isStep_dotDot) (fun n hn _ => h n hn) (by simp) n
    (List.mem_reverse.1 hn)

theorem dotDot_notMem_resolved (ns : List Bytes) : dotDot ∉ resolved true ns := by
  intro hmem
  exact forall_mem_foldl_step (P := (· ≠ dotDot)) (by simp) (fun n _ hne => hne) (by simp) dotDot
    (List.mem_reverse.1 hmem) rfl

/-- Steps that are left can be taken again, and lead to themselves. -/
theorem foldl_step_reverse {rooted : Bool} {ns back : List Bytes}
    (h : back.reverse.foldl (step rooted) [] = back) :
    (ns.foldl (step rooted) back).reverse.foldl (step rooted) [] = ns.foldl (step rooted) back := by
  induction ns generalizing back with
  | nil => exact h
  | cons name ns ih =>
    have hagain : (name :: back).reverse.foldl (step rooted) [] = step rooted back name := by
      rw [List.reverse_cons, List.foldl_append, h]
      rfl
    refine ih ?_
    by_cases hname : name = dotDot
    · subst hname
      cases back with
      | nil => cases rooted <;> rfl
      | cons last rest =>
        by_cases hlast : last = dotDot
        · rw [show step rooted (last :: rest) dotDot = dotDot :: last :: rest by
            simp [step, hlast]] at hagain ⊢
          exact hagain
        · -- The last step is taken back, and what is left was reached before it.
          rw [List.reverse_cons, List.foldl_append] at h
          have hstep : last :: rest.reverse.foldl (step rooted) [] = last :: rest := by
            simpa [step, hlast] using h
          simpa [step, hlast] using hstep
    · rw [show step rooted back name = name :: back by simp [step, hname]] at hagain ⊢
      exact hagain

theorem resolved_resolved (rooted : Bool) (ns : List Bytes) :
    resolved rooted (resolved rooted ns) = resolved rooted ns := by
  rw [resolved, resolved, foldl_step_reverse rfl]

/-! ### Cleaned and joined paths -/

/-- The steps of a path once it is cleaned. -/
def steps (path : Bytes) : List Bytes := resolved (isRooted path) (names path)

theorem clean_eq_spell (path : Bytes) : clean path = spell (isRooted path) (steps path) := rfl

theorem isStep_of_mem_steps {path n : Bytes} (h : n ∈ steps path) : IsStep n :=
  isStep_of_mem_resolved (fun _ hn => isStep_of_mem_names hn) n h

theorem names_clean (path : Bytes) : names (clean path) = steps path :=
  names_spell _ fun _ hn => isStep_of_mem_steps hn

theorem isRooted_clean (path : Bytes) : isRooted (clean path) = isRooted path :=
  isRooted_spell _ fun _ hn => isStep_of_mem_steps hn

/-- Where no step up takes a name back, cleaning makes a path no longer. -/
theorem length_clean_le {path : Bytes} (hpath : path ≠ []) (h : steps path = names path) :
    (clean path).length ≤ path.length := by
  rw [clean_eq_spell, h, spell]
  by_cases hrooted : isRooted path = true
  · obtain ⟨rest, rfl⟩ : ∃ rest, path = slash :: rest := by
      cases path with
      | nil => exact absurd rfl hpath
      | cons b rest => exact ⟨rest, by simpa [isRooted] using hrooted⟩
    have hnames : names (slash :: rest) = names rest := names_append_cons [] rest
    have hle : (Bytes.joinWith slash (names rest)).length ≤ _ :=
      Bytes.length_joinWith_le List.filter_sublist
    rw [Bytes.joinWith_splitAt] at hle
    rw [hrooted, hnames]
    simpa using hle
  · have hle : (Bytes.joinWith slash (names path)).length ≤ _ :=
      Bytes.length_joinWith_le List.filter_sublist
    rw [Bytes.joinWith_splitAt] at hle
    rw [Bool.not_eq_true] at hrooted
    rw [hrooted]
    by_cases hnames : names path = []
    · have hdot : dot.length = 1 := by decide
      have hpos : 0 < path.length := List.length_pos_iff.2 hpath
      rw [hnames]
      simp only [Bool.false_eq_true, if_false, List.isEmpty_nil, if_true]
      omega
    · simpa [hnames] using hle

theorem steps_spell (rooted : Bool) {ns : List Bytes} (h : ∀ n ∈ ns, IsStep n) :
    steps (spell rooted ns) = resolved rooted ns := by
  rw [steps, isRooted_spell rooted h, names_spell rooted h]

/-- The path of what stands under the names `rel` below `path`. -/
def under (path : Bytes) (rel : List Bytes) : Bytes := join [path, Bytes.joinWith slash rel]

theorem under_eq_spell {path : Bytes} (hpath : path ≠ []) {rel : List Bytes}
    (hrel : ∀ n ∈ rel, isEntryName n = true) :
    under path rel = spell (isRooted path) (steps path ++ rel) := by
  have hsteps : ∀ n ∈ rel, IsStep n := fun n hn => (isEntryName_iff.1 (hrel n hn)).1
  have hup : dotDot ∉ rel := fun hmem => (isEntryName_iff.1 (hrel _ hmem)).2 rfl
  have hjoin : under path rel = clean (path ++ slash :: Bytes.joinWith slash rel) := by
    simp [under, join, hpath, Bytes.joinWith, List.intercalate_cons_cons]
  rw [hjoin, clean, names_append_cons, names_joinWith hsteps, isRooted,
    head?_append_of_ne_nil hpath]
  exact congrArg (spell _) (resolved_append hup _)

theorem isStep_of_mem_under (path : Bytes) {rel : List Bytes}
    (hrel : ∀ n ∈ rel, isEntryName n = true) : ∀ n ∈ steps path ++ rel, IsStep n := by
  intro n hn
  rcases List.mem_append.1 hn with hn | hn
  · exact isStep_of_mem_steps hn
  · exact (isEntryName_iff.1 (hrel n hn)).1

theorem under_ne_nil {path : Bytes} (hpath : path ≠ []) {rel : List Bytes}
    (hrel : ∀ n ∈ rel, isEntryName n = true) : under path rel ≠ [] := by
  rw [under_eq_spell hpath hrel]
  exact spell_ne_nil _ (isStep_of_mem_under path hrel)

theorem under_inj {path : Bytes} (hpath : path ≠ []) {rel rel' : List Bytes}
    (hrel : ∀ n ∈ rel, isEntryName n = true) (hrel' : ∀ n ∈ rel', isEntryName n = true)
    (h : under path rel = under path rel') : rel = rel' := by
  rw [under_eq_spell hpath hrel, under_eq_spell hpath hrel'] at h
  have hsteps := spell_inj (isStep_of_mem_under path hrel) (isStep_of_mem_under path hrel') h
  exact List.append_cancel_left hsteps

theorem under_singleton (path name : Bytes) : under path [name] = join [path, name] := by
  simp [under, Bytes.joinWith]

theorem base_under_singleton {path name : Bytes} (hpath : path ≠ [])
    (hname : isEntryName name = true) : base (under path [name]) = name := by
  rw [under_eq_spell hpath (by simpa using hname)]
  exact base_spell_concat _ _ (isEntryName_iff.1 hname).1

theorem steps_under {path : Bytes} (hpath : path ≠ []) {rel : List Bytes}
    (hrel : ∀ n ∈ rel, isEntryName n = true) : steps (under path rel) = steps path ++ rel := by
  have hup : dotDot ∉ rel := fun hmem => (isEntryName_iff.1 (hrel _ hmem)).2 rfl
  rw [under_eq_spell hpath hrel, steps_spell _ (isStep_of_mem_under path hrel),
    resolved_append hup, steps, resolved_resolved]

/-- No path below another is spelled like it. -/
theorem under_ne_self {path : Bytes} (hpath : path ≠ []) {rel : List Bytes} (hne : rel ≠ [])
    (hrel : ∀ n ∈ rel, isEntryName n = true) : under path rel ≠ path := by
  intro h
  have hsteps := steps_under hpath hrel
  rw [h] at hsteps
  exact hne (List.self_eq_append_right.1 hsteps)

theorem length_clean_le_under {path : Bytes} (hpath : path ≠ []) {rel : List Bytes}
    (hrel : ∀ n ∈ rel, isEntryName n = true) : (clean path).length ≤ (under path rel).length := by
  have hpos := List.length_pos_iff.2 (under_ne_nil hpath hrel)
  have hjoin : (Bytes.joinWith slash (steps path)).length ≤ _ :=
    Bytes.length_joinWith_le (List.sublist_append_left (steps path) rel)
  rw [under_eq_spell hpath hrel] at hpos ⊢
  rw [clean_eq_spell]
  generalize isRooted path = rooted at hpos ⊢
  cases rooted with
  | true => simpa [spell] using hjoin
  | false =>
    by_cases hnil : steps path = []
    · have hdot : (spell false (steps path)).length = 1 := by
        rw [hnil]
        decide
      omega
    · simpa [spell, hnil] using hjoin

/-- Going further down from a path below another is going down from that one. -/
theorem under_under {path : Bytes} (hpath : path ≠ []) {rel : List Bytes}
    (hrel : ∀ n ∈ rel, isEntryName n = true) {rest : List Bytes}
    (hrest : ∀ n ∈ rest, isEntryName n = true) :
    under (under path rel) rest = under path (rel ++ rest) := by
  have hall : ∀ n ∈ rel ++ rest, isEntryName n = true := by
    intro n hn
    exact (List.mem_append.1 hn).elim (hrel n) (hrest n)
  have hrooted := isRooted_spell (isRooted path) (isStep_of_mem_under path hrel)
  rw [under_eq_spell (under_ne_nil hpath hrel) hrest, steps_under hpath hrel,
    under_eq_spell hpath hall, under_eq_spell hpath hrel, hrooted, List.append_assoc]

end Path

end HelperImports
