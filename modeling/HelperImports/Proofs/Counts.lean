import Mathlib.Data.List.Chain
import HelperImports.Proofs.Faithful
import HelperImports.Proofs.Lines

/-! Counting what an edit adds and removes. A chunk of lines shows as many lines as it has, except
that one without lines shows an empty one. Such an idle edit is what tidying leaves of a deletion
that is also inserted; each comes with an item that is kept in exchange. So the counts never exceed
the lines of the texts, and they balance if and only if there are as many idle insertions as idle
deletions. -/

namespace HelperImports

/-! ### Lines of a text -/

/-- The number of lines of a text: those that a newline ends, and one more if something stands
behind the last newline. -/
def lineCount (text : Bytes) : Nat :=
  text.count newline + if text = [] ∨ text.getLast? = some newline then 0 else 1

@[simp] theorem lineCount_nil : lineCount [] = 0 := rfl

theorem lineCount_append {front : Bytes} (h : front.getLast? = some newline) (back : Bytes) :
    lineCount (front ++ back) = lineCount front + lineCount back := by
  cases back with
  | nil => simp
  | cons b back =>
    have hlast : (front ++ b :: back).getLast? = (b :: back).getLast? := by
      rw [List.getLast?_append_of_ne_nil _ (by simp)]
    simp only [lineCount, List.count_append, hlast, h]
    simp only [List.append_eq_nil_iff, reduceCtorEq, and_false, false_or, or_true, if_true]
    omega

theorem lineCount_cons {b : UInt8} (hb : b ≠ newline) {text : Bytes} (hne : text ≠ []) :
    lineCount (b :: text) = lineCount text := by
  have hlast : (b :: text).getLast? = text.getLast? := List.getLast?_cons_of_ne_nil hne
  simp [lineCount, hlast, hne, List.count_cons_of_ne hb]

theorem length_lines (text : Bytes) : (lines text).length = text.count newline + 1 := by
  unfold lines
  induction text with
  | nil => rfl
  | cons b rest ih =>
    rw [Bytes.splitAt]
    by_cases hb : b = newline
    · rw [if_pos hb, hb, List.length_cons, ih, List.count_cons_self]
    · rw [if_neg hb, List.count_cons_of_ne hb, ← ih]
      cases hsplit : Bytes.splitAt newline rest with
      | nil => simp [hsplit] at ih
      | cons piece pieces => rfl

/-- A text shows as many lines as it has, and an empty one shows one. -/
theorem length_shownLines (text : Bytes) :
    (shownLines text).length = if text = [] then 1 else lineCount text := by
  unfold shownLines Bytes.dropEnd
  rw [length_lines]
  split
  · rename_i hsuffix
    obtain ⟨front, rfl⟩ := List.isSuffixOf_iff_suffix.1 hsuffix
    simp [lineCount]
  · rename_i hsuffix
    by_cases hne : text = []
    · simp [hne]
    · have hlast : text.getLast? ≠ some newline := by
        intro hlast
        obtain ⟨front, rfl⟩ := List.getLast?_eq_some_iff.1 hlast
        exact hsuffix (List.isSuffixOf_iff_suffix.2 ⟨front, rfl⟩)
      simp [lineCount, hne, hlast]

theorem lineCount_of_mem_terminatedLines {text l : Bytes} (h : l ∈ terminatedLines text) :
    lineCount l = 1 := by
  induction text generalizing l with
  | nil => simp [terminatedLines] at h
  | cons b rest ih =>
    rw [terminatedLines] at h
    split at h
    · rename_i hb
      rcases List.mem_cons.1 h with rfl | h
      · simp [lineCount, hb]
      · exact ih h
    · rename_i hb
      split at h
      · obtain rfl : l = [b] := by simpa using h
        simp [lineCount, hb]
      · rename_i first ls hrest
        rcases List.mem_cons.1 h with rfl | h
        · have hone := ih (l := first) (by simp [hrest])
          have hne : first ≠ [] := by
            rintro rfl
            simp at hone
          rw [lineCount_cons hb hne, hone]
        · exact ih (by simp [hrest, h])

/-- All lines but the last end in a newline. -/
theorem isChain_terminatedLines (text : Bytes) :
    (terminatedLines text).IsChain fun l _ => l.getLast? = some newline := by
  induction text with
  | nil => exact .nil
  | cons b rest ih =>
    rw [terminatedLines]
    split
    · rename_i hb
      apply List.IsChain.cons ih
      intro l _
      simp [hb]
    · split
      · exact .singleton _
      · rename_i first ls hrest
        rw [hrest] at ih
        cases ls with
        | nil => exact .singleton _
        | cons second ls =>
          rw [List.isChain_cons_cons] at ih ⊢
          refine ⟨?_, ih.2⟩
          rw [List.getLast?_cons, ih.1]
          rfl

theorem lineCount_flatten {ls : List Bytes}
    (hchain : ls.IsChain fun l _ => l.getLast? = some newline) (hone : ∀ l ∈ ls, lineCount l = 1) :
    lineCount ls.flatten = ls.length := by
  induction ls with
  | nil => rfl
  | cons l ls ih =>
    rw [List.forall_mem_cons] at hone
    cases ls with
    | nil => simpa using hone.1
    | cons next ls =>
      rw [List.isChain_cons_cons] at hchain
      rw [List.flatten_cons, lineCount_append hchain.1, ih hchain.2 hone.2, hone.1, Nat.add_comm]
      rfl

/-- A stretch of the lines of a text has as many lines as it has items. -/
theorem lineCount_flatten_stretch {text : Bytes} {ls : List Bytes}
    (h : ls <:+: terminatedLines text) : lineCount ls.flatten = ls.length := by
  have hchain := isChain_terminatedLines text
  obtain ⟨front, back, htext⟩ := h
  rw [← htext] at hchain
  apply lineCount_flatten hchain.left_of_append.right_of_append
  intro l hl
  have hmem : l ∈ terminatedLines text := by simp [← htext, hl]
  exact lineCount_of_mem_terminatedLines hmem

theorem length_terminatedLines (text : Bytes) :
    (terminatedLines text).length = lineCount text := by
  rw [← lineCount_flatten_stretch (List.infix_refl _), flatten_terminatedLines]

namespace EditScript

/-! ### Items and idle edits -/

/-- The number of items in the chunks of one kind. -/
def itemCount (op : Op) (cs : EditScript α) : Nat :=
  ((cs.filter (·.op = op)).flatMap (·.items)).length

/-- The number of chunks of one kind that have no items. -/
def idleCount (op : Op) (cs : EditScript α) : Nat :=
  cs.countP fun c => c.op = op && c.items.isEmpty

@[simp] theorem itemCount_nil (op : Op) : itemCount op ([] : EditScript α) = 0 := rfl

@[simp] theorem itemCount_cons (op : Op) (c : Chunk α) (cs : EditScript α) :
    itemCount op (c :: cs) = (if c.op = op then c.items.length else 0) + itemCount op cs := by
  by_cases h : c.op = op <;> simp [itemCount, h]

@[simp] theorem itemCount_append (op : Op) (cs ds : EditScript α) :
    itemCount op (cs ++ ds) = itemCount op cs + itemCount op ds := by
  simp [itemCount]

@[simp] theorem idleCount_nil (op : Op) : idleCount op ([] : EditScript α) = 0 := rfl

@[simp] theorem idleCount_cons (op : Op) (c : Chunk α) (cs : EditScript α) :
    idleCount op (c :: cs) = (if c.op = op ∧ c.items = [] then 1 else 0) + idleCount op cs := by
  rw [idleCount, List.countP_cons, Nat.add_comm]
  simp [idleCount]

@[simp] theorem idleCount_append (op : Op) (cs ds : EditScript α) :
    idleCount op (cs ++ ds) = idleCount op cs + idleCount op ds := by
  simp [idleCount]

@[simp] theorem itemCount_kept (xs : List α) : itemCount .equal (kept xs) = xs.length := by
  cases xs <;> simp [kept]

@[simp] theorem itemCount_held (h : Option (List α)) :
    itemCount .equal (EditScript.held h) = (h.getD []).length := by
  cases h <;> simp [held]

theorem length_old (cs : EditScript α) :
    (old cs).length = itemCount .equal cs + itemCount .delete cs := by
  induction cs with
  | nil => rfl
  | cons c cs ih =>
    obtain ⟨_ | _ | _, xs⟩ := c <;> simp [ih] <;> omega

theorem length_new (cs : EditScript α) :
    (new cs).length = itemCount .equal cs + itemCount .insert cs := by
  induction cs with
  | nil => rfl
  | cons c cs ih =>
    obtain ⟨_ | _ | _, xs⟩ := c <;> simp [ih] <;> omega

section

variable {op : Op} (hop : op ≠ .equal)
include hop

theorem idleCount_kept (xs : List α) : idleCount op (kept xs) = 0 := by
  cases xs <;> simp [kept, hop.symm]

theorem idleCount_held (h : Option (List α)) : idleCount op (EditScript.held h) = 0 := by
  cases h <;> simp [held, hop.symm]

end

/-! ### Tidying -/

/-- What was gathered of one kind of edit. -/
def Gathered.edit (g : Gathered α) : Op → Option (List α)
  | .equal => none
  | .insert => g.inserted
  | .delete => g.deleted

/-- One if an edit was gathered and has no items. -/
def idle : Option (List α) → Nat
  | some [] => 1
  | _ => 0

theorem idle_some (xs : List α) : idle (some xs) = if xs = [] then 1 else 0 := by
  cases xs <;> rfl

/-- More items for an edit make it idle only if there are none. -/
theorem idle_append_le (o : Option (List α)) (xs : List α) :
    idle (some (o.getD [] ++ xs)) ≤ idle o + if xs = [] then 1 else 0 := by
  cases xs with
  | nil => cases o <;> simp [idle_some]
  | cons x xs => simp [idle_some]

variable [DecidableEq α] {op : Op}

/-- What a deletion and an insertion share is kept, so where nothing is left of one of them, either
it had no items before or some are kept instead. -/
theorem Gathered.idleCount_settle (hop : op ≠ .equal) (g : Gathered α) (next : List α) :
    idleCount op (g.settle next).1 + ((g.held.getD []).length + next.length) ≤
      idle (g.edit op) + (itemCount .equal (g.settle next).1 + (g.settle next).2.length) := by
  obtain ⟨h, _ | d, _ | i⟩ := g
  · simp [settle]
  · cases op <;> simp [settle, Gathered.edit, idle_some, idleCount_held hop]
  · cases op <;> simp [settle, Gathered.edit, idle_some, idleCount_held hop]
  · -- Each edit is the shared front, what is left of it and the shared back.
    have hi := length_commonPrefix_left i d
    have hd := length_commonPrefix_right i d
    have hi' := length_commonSuffix_left (afterPrefix (commonPrefix i d) i)
      (afterPrefix (commonPrefix i d) d)
    have hd' := length_commonSuffix_right (afterPrefix (commonPrefix i d) i)
      (afterPrefix (commonPrefix i d) d)
    have hfront : itemCount .equal (EditScript.held (if (commonPrefix i d).isEmpty then h
        else some (h.getD [] ++ commonPrefix i d))) =
          (h.getD []).length + (commonPrefix i d).length := by
      rw [itemCount_held]
      split
      · rename_i hempty
        simp [List.isEmpty_iff.1 hempty]
      · simp
    simp only [settle, idleCount_append, idleCount_held hop, idleCount_cons, idleCount_nil,
      itemCount_append, hfront, itemCount_cons, itemCount_nil, List.length_append]
    cases op with
    | equal => exact absurd rfl hop
    | insert | delete =>
      simp only [Gathered.edit, idle_some, ← List.length_eq_zero_iff, reduceCtorEq, false_and,
        true_and, if_false]
      split <;> split <;> omega

/-- Gathering makes edits idle only where it keeps items in exchange. -/
theorem idleCount_gather (hop : op ≠ .equal) (g : Gathered α) (cs : EditScript α) :
    idleCount op (gather g cs) + ((g.held.getD []).length + itemCount .equal cs) ≤
      idle (g.edit op) + idleCount op cs + itemCount .equal (gather g cs) := by
  induction cs generalizing g with
  | nil =>
    have hs := g.idleCount_settle hop []
    simp only [gather, idleCount_append, idleCount_kept hop, itemCount_append, itemCount_kept,
      idleCount_nil, itemCount_nil, List.length_nil] at hs ⊢
    omega
  | cons c rest ih =>
    obtain ⟨_ | _ | _, xs⟩ := c
    · have hs := g.idleCount_settle hop xs
      have hr := ih { held := some (g.settle xs).2 }
      have hnone : idle (Gathered.edit { held := some (g.settle xs).2 } op) = 0 := by
        cases op <;> rfl
      simp only [gather, idleCount_append, itemCount_append, idleCount_cons, itemCount_cons,
        hop.symm, Option.getD_some, false_and, if_true, if_false] at hr ⊢
      omega
    · have hr := ih { g with inserted := some (g.inserted.getD [] ++ xs) }
      have hidle : idle (Gathered.edit { g with inserted := some (g.inserted.getD [] ++ xs) } op) ≤
          idle (g.edit op) + if Op.insert = op ∧ xs = [] then 1 else 0 := by
        cases op <;> simp [Gathered.edit, idle_append_le]
      simp only [gather, idleCount_cons, itemCount_cons, reduceCtorEq, if_false] at hr ⊢
      omega
    · have hr := ih { g with deleted := some (g.deleted.getD [] ++ xs) }
      have hidle : idle (Gathered.edit { g with deleted := some (g.deleted.getD [] ++ xs) } op) ≤
          idle (g.edit op) + if Op.delete = op ∧ xs = [] then 1 else 0 := by
        cases op <;> simp [Gathered.edit, idle_append_le]
      simp only [gather, idleCount_cons, itemCount_cons, reduceCtorEq, if_false] at hr ⊢
      omega

/-- An edit that slides keeps its length, and so do the kept stretches around it together. -/
theorem idleCount_slideEdits (hop : op ≠ .equal) (cs : EditScript α) :
    idleCount op (slideEdits cs).1 = idleCount op cs ∧
      itemCount .equal (slideEdits cs).1 = itemCount .equal cs := by
  fun_induction slideEdits cs with
  | case1 p c n rest h hs cs moved heq ih =>
    have hlength : (p.items ++ beforeSuffix p.items c.items).length = c.items.length := by
      have := (List.isSuffixOf_iff_suffix.1 hs).length_le
      simp only [beforeSuffix, List.length_append, List.length_take]
      omega
    rw [heq] at ih
    simp only [idleCount_cons, itemCount_cons, ← List.length_eq_zero_iff, hlength, h.1, h.2,
      hop.symm, false_and, if_true, if_false, List.length_append] at ih ⊢
    omega
  | case2 p c n rest h hs hp cs moved heq ih =>
    have hlength : (afterPrefix n.items c.items ++ n.items).length = c.items.length := by
      have := (List.isPrefixOf_iff_prefix.1 hp).length_le
      simp only [afterPrefix, List.length_append, List.length_drop]
      omega
    rw [heq] at ih
    simp only [idleCount_cons, itemCount_cons, ← List.length_eq_zero_iff, hlength, h.1, h.2,
      hop.symm, false_and, if_true, if_false, List.length_append] at ih ⊢
    omega
  | case3 p c n rest h hs hp cs moved heq ih =>
    rw [heq] at ih
    simp only [idleCount_cons op p, itemCount_cons .equal p, ih, and_self]
  | case4 p c n rest h cs moved heq ih =>
    rw [heq] at ih
    simp only [idleCount_cons op p, itemCount_cons .equal p, ih, and_self]
  | case5 cs h => exact ⟨rfl, rfl⟩

/-- Tidying makes edits idle only where it keeps items in exchange. -/
theorem idleCount_tidy (hop : op ≠ .equal) (cs : EditScript α) :
    idleCount op (tidy cs) + itemCount .equal cs ≤
      idleCount op cs + itemCount .equal (tidy cs) := by
  have hgather (cs : EditScript α) : idleCount op (gather {} cs) + itemCount .equal cs ≤
      idleCount op cs + itemCount .equal (gather {} cs) := by
    have hnone : idle (Gathered.edit (α := α) {} op) = 0 := by cases op <;> rfl
    have := idleCount_gather hop {} cs
    simp only [Option.getD_none, List.length_nil] at this
    omega
  fun_induction tidy cs with
  | case1 cs gathered h ih =>
    have hg : idleCount op gathered + itemCount .equal cs ≤
        idleCount op cs + itemCount .equal gathered := hgather cs
    obtain ⟨hidle, hitems⟩ := idleCount_slideEdits hop gathered
    omega
  | case2 cs gathered h => exact hgather cs

/-! ### Comparing -/

omit [DecidableEq α] in
/-- Edits around a kept stretch are not both idle if they do not both have no items. -/
theorem idleCount_around (hop : op ≠ .equal) (kind : Op) {front mid back : List α} (hmid : mid ≠ [])
    (hboth : ¬ (front = [] ∧ back = [])) :
    idleCount op [⟨kind, front⟩, ⟨.equal, mid⟩, ⟨kind, back⟩] ≤
      itemCount .equal [⟨kind, front⟩, ⟨.equal, mid⟩, ⟨kind, back⟩] := by
  have hpos := List.length_pos_iff.2 hmid
  have hone : (if kind = op ∧ front = [] then 1 else 0) +
      (if kind = op ∧ back = [] then 1 else 0) ≤ 1 := by
    split <;> split <;> simp_all
  simp only [idleCount_cons, idleCount_nil, hop.symm, false_and, if_false, itemCount_cons, if_true]
  omega

theorem idleCount_containment? (hop : op ≠ .equal) {xs ys : List α} {cs : EditScript α}
    (hxs : xs ≠ []) (hys : ys ≠ []) (hne : xs ≠ ys) (h : containment? xs ys = some cs) :
    idleCount op cs ≤ itemCount .equal cs := by
  unfold containment? at h
  -- If nothing stood around the occurrence, the two sequences would be equal.
  split at h
  · obtain ⟨i, hi, rfl⟩ := Option.map_eq_some_iff.1 h
    apply idleCount_around hop .delete hys
    rintro ⟨hfront, hback⟩
    have hall := take_append_occurrence hi
    rw [hfront, hback, List.nil_append, List.append_nil] at hall
    exact hne hall.symm
  · obtain ⟨i, hi, rfl⟩ := Option.map_eq_some_iff.1 h
    apply idleCount_around hop .insert hxs
    rintro ⟨hfront, hback⟩
    have hall := take_append_occurrence hi
    rw [hfront, hback, List.nil_append, List.append_nil] at hall
    exact hne hall

/-- A script at hand has at most one idle edit, and none if it keeps nothing. -/
theorem idleCount_plan (hop : op ≠ .equal) {xs ys : List α} {cs : EditScript α} (hne : xs ≠ ys)
    (h : plan xs ys = .inl cs) : idleCount op cs ≤ itemCount .equal cs := by
  unfold plan at h
  split at h
  · rename_i hxs
    have hys : ys ≠ [] := fun hys => hne (by rw [List.isEmpty_iff.1 hxs, hys])
    cases h
    simp [hys]
  rename_i hxs
  split at h
  · rw [List.isEmpty_iff] at hxs
    cases h
    simp [hxs]
  rename_i hys
  rw [List.isEmpty_iff] at hxs hys
  have hreplaced : idleCount op [⟨.delete, xs⟩, ⟨.insert, ys⟩] ≤
      itemCount .equal [⟨.delete, xs⟩, ⟨.insert, ys⟩] := by
    simp [hxs, hys]
  split at h
  · rename_i hc
    cases h
    exact idleCount_containment? hop hxs hys hne hc
  split at h
  · cases h
    exact hreplaced
  split at h
  · cases h
  · cases h
    exact hreplaced

/-- A script between two sequences has no more idle edits of one kind than it keeps items. -/
theorem idleCount_between (hop : op ≠ .equal) (xs ys : List α) :
    idleCount op (between xs ys) ≤ itemCount .equal (between xs ys) := by
  fun_induction between xs ys with
  | case1 xs =>
    rw [idleCount_kept hop]
    omega
  | case2 xs ys hne e mid ih₁ ih₂ =>
    have hmid : idleCount op mid ≤ itemCount .equal mid := by
      simp only [mid]
      split
      · rename_i cs hplan
        refine idleCount_plan hop (fun hmids => hne ?_) hplan
        calc
          xs = e.front ++ e.mid₁ ++ e.back := e.eq₁.symm
          _ = e.front ++ e.mid₂ ++ e.back := by rw [hmids]
          _ = ys := e.eq₂
      · rename_i d hplan
        have := ih₁ d
        have := ih₂ d
        simp only [idleCount_append, idleCount_kept hop, itemCount_append]
        omega
    have htidy := idleCount_tidy hop (kept e.front ++ mid ++ kept e.back)
    simp only [idleCount_append, idleCount_kept hop, itemCount_append] at htidy
    omega

/-! ### The lines of a script -/

omit [DecidableEq α] in
theorem infix_old_of_mem {cs : EditScript α} {c : Chunk α} (h : c ∈ cs) : c.old <:+: old cs := by
  obtain ⟨front, back, rfl⟩ := List.append_of_mem h
  rw [old_append, old_cons, ← List.append_assoc]
  exact List.infix_append _ _ _

omit [DecidableEq α] in
theorem infix_new_of_mem {cs : EditScript α} {c : Chunk α} (h : c ∈ cs) : c.new <:+: new cs := by
  obtain ⟨front, back, rfl⟩ := List.append_of_mem h
  rw [new_append, new_cons, ← List.append_assoc]
  exact List.infix_append _ _ _

end EditScript

/-- The number of lines that the chunks of one kind show. -/
def shownCount (op : Op) (cs : EditScript Bytes) : Nat :=
  ((cs.filter (·.op = op)).flatMap fun c => shownLines c.text).length

@[simp] theorem shownCount_nil (op : Op) : shownCount op [] = 0 := rfl

@[simp] theorem shownCount_cons (op : Op) (c : Chunk Bytes) (cs : EditScript Bytes) :
    shownCount op (c :: cs) =
      (if c.op = op then (shownLines c.text).length else 0) + shownCount op cs := by
  by_cases h : c.op = op <;> simp [shownCount, h]

@[simp] theorem shownCount_append (op : Op) (cs ds : EditScript Bytes) :
    shownCount op (cs ++ ds) = shownCount op cs + shownCount op ds := by
  simp [shownCount]

theorem lineCounts_eq (before after : Bytes) :
    lineCounts before after =
      ⟨shownCount .insert (lineScript before after), shownCount .delete (lineScript before after)⟩ :=
  rfl

/-- A chunk of lines of a text shows one line for each item, and one if it has none. -/
theorem length_shownLines_text {c : Chunk Bytes} {text : Bytes}
    (h : c.items <:+: terminatedLines text) :
    (shownLines c.text).length = c.items.length + if c.items = [] then 1 else 0 := by
  have hcount : lineCount c.text = c.items.length := lineCount_flatten_stretch h
  rw [length_shownLines]
  by_cases hitems : c.items = []
  · simp [Chunk.text, hitems]
  · have htext : c.text ≠ [] := by
      intro htext
      rw [htext, lineCount_nil] at hcount
      exact hitems (List.length_eq_zero_iff.1 hcount.symm)
    rw [if_neg htext, if_neg hitems, hcount, Nat.add_zero]

theorem shownCount_eq {op : Op} {cs : EditScript Bytes} {text : Bytes}
    (h : ∀ c ∈ cs, c.op = op → c.items <:+: terminatedLines text) :
    shownCount op cs = EditScript.itemCount op cs + EditScript.idleCount op cs := by
  induction cs with
  | nil => rfl
  | cons c cs ih =>
    rw [List.forall_mem_cons] at h
    rw [shownCount_cons, EditScript.itemCount_cons, EditScript.idleCount_cons, ih h.2]
    by_cases hop : c.op = op
    · rw [if_pos hop, if_pos hop, length_shownLines_text (h.1 hop)]
      simp only [hop, true_and]
      omega
    · simp [hop]

/-- An edit adds at most as many lines as the text after it has, and removes at most as many as the
text before it has. What is left of the two texts is equally many lines if and only if the script
has as many idle insertions as idle deletions: an idle edit counts as a line. -/
theorem lineCounts_balance_iff (before after : Bytes) :
    let counts := lineCounts before after
    let script := lineScript before after
    counts.added ≤ lineCount after ∧ counts.removed ≤ lineCount before ∧
      (lineCount before - counts.removed = lineCount after - counts.added ↔
        EditScript.idleCount .insert script = EditScript.idleCount .delete script) := by
  intro counts script
  have hleads : EditScript.Leads script _ _ :=
    EditScript.leads_between (terminatedLines before) (terminatedLines after)
  have hdeleted : ∀ c ∈ script, c.op = .delete → c.items <:+: terminatedLines before := by
    intro c hc hop
    have hin := EditScript.infix_old_of_mem hc
    rwa [hleads.old, Chunk.old, hop] at hin
  have hinserted : ∀ c ∈ script, c.op = .insert → c.items <:+: terminatedLines after := by
    intro c hc hop
    have hin := EditScript.infix_new_of_mem hc
    rwa [hleads.new, Chunk.new, hop] at hin
  have hremoved : counts.removed =
      EditScript.itemCount .delete script + EditScript.idleCount .delete script :=
    shownCount_eq hdeleted
  have hadded : counts.added =
      EditScript.itemCount .insert script + EditScript.idleCount .insert script :=
    shownCount_eq hinserted
  have hbefore := EditScript.length_old script
  have hafter := EditScript.length_new script
  rw [hleads.old, length_terminatedLines] at hbefore
  rw [hleads.new, length_terminatedLines] at hafter
  have hidleInsert : EditScript.idleCount .insert script ≤ EditScript.itemCount .equal script :=
    EditScript.idleCount_between (by decide) _ _
  have hidleDelete : EditScript.idleCount .delete script ≤ EditScript.itemCount .equal script :=
    EditScript.idleCount_between (by decide) _ _
  omega

/-- The script has a deletion without lines in front of its last insertion, and counts it as a line
that is removed. -/
theorem lineCounts_unbalanced :
    let before := bytes "b\nc\na\nc\na\n"
    let after := bytes "c\na\nc\nc\na\nc\na\nc\nb\n"
    lineCounts before after = ⟨5, 2⟩ ∧ lineCount before = 5 ∧ lineCount after = 9 ∧
      lineCount before - (lineCounts before after).removed ≠
        lineCount after - (lineCounts before after).added := by
  decide +kernel

end HelperImports
