import HelperImports.EditScript.LineScript

/-! Edit scripts are faithful: what a script keeps and deletes is the sequence it starts from, and
what it keeps and inserts is the sequence it leads to. Each part of the comparison is shown to keep
the two sequences, so the script between two texts spells out both of them. -/

namespace HelperImports

namespace Chunk

theorem old_of_equal {c : Chunk α} (h : c.op = .equal) : c.old = c.items := by
  simp [old, h]

theorem new_of_equal {c : Chunk α} (h : c.op = .equal) : c.new = c.items := by
  simp [new, h]

end Chunk

namespace EditScript

/-- `cs` leads from `xs` to `ys`. -/
structure Leads (cs : EditScript α) (xs ys : List α) : Prop where
  old : EditScript.old cs = xs
  new : EditScript.new cs = ys

theorem Leads.append {cs ds : EditScript α} {xs ys xs' ys' : List α} (h₁ : Leads cs xs ys)
    (h₂ : Leads ds xs' ys') : Leads (cs ++ ds) (xs ++ xs') (ys ++ ys') :=
  ⟨by rw [old_append, h₁.old, h₂.old], by rw [new_append, h₁.new, h₂.new]⟩

theorem Leads.cons {cs : EditScript α} {xs ys : List α} (c : Chunk α) (h : Leads cs xs ys) :
    Leads (c :: cs) (c.old ++ xs) (c.new ++ ys) :=
  ⟨by rw [old_cons, h.old], by rw [new_cons, h.new]⟩

theorem leads_kept (xs : List α) : Leads (kept xs) xs xs := ⟨old_kept xs, new_kept xs⟩

theorem leads_held (h : Option (List α)) : Leads (EditScript.held h) (h.getD []) (h.getD []) := by
  cases h <;> exact ⟨by simp [held], by simp [held]⟩

variable [DecidableEq α]

/-! ### Tidying -/

/-- What was gathered, with the stretch after it, is what the settled script and the stretch that
it leaves make up. -/
theorem Gathered.leads_settle (g : Gathered α) (next : List α) :
    Leads ((g.settle next).1 ++ kept (g.settle next).2)
      (g.held.getD [] ++ g.deleted.getD [] ++ next)
      (g.held.getD [] ++ g.inserted.getD [] ++ next) := by
  obtain ⟨h, _ | d, _ | i⟩ := g
  · exact ⟨by simp [settle], by simp [settle]⟩
  · have := leads_held h
    exact ⟨by simp [settle, this.old], by simp [settle, this.new]⟩
  · have := leads_held h
    exact ⟨by simp [settle, this.old], by simp [settle, this.new]⟩
  · -- The common front moves to the stretch before the edits, the common back to the one after.
    have hfront : Leads (EditScript.held (if (commonPrefix i d).isEmpty then h
        else some (h.getD [] ++ commonPrefix i d))) (h.getD [] ++ commonPrefix i d)
        (h.getD [] ++ commonPrefix i d) := by
      split
      · rename_i hempty
        rw [List.isEmpty_iff.1 hempty, List.append_nil]
        exact leads_held h
      · exact leads_held (some _)
    have hi := commonPrefix_append_left i d
    have hd := commonPrefix_append_right i d
    have hi' := append_commonSuffix_left (afterPrefix (commonPrefix i d) i)
      (afterPrefix (commonPrefix i d) d)
    have hd' := append_commonSuffix_right (afterPrefix (commonPrefix i d) i)
      (afterPrefix (commonPrefix i d) d)
    constructor
    · simp only [settle, old_append, hfront.old, old_cons, old_nil, Chunk.old_delete,
        Chunk.old_insert, old_kept, Option.getD_some, List.append_nil, List.append_assoc]
      rw [← List.append_assoc (beforeSuffix _ _), hd', ← List.append_assoc (commonPrefix i d), hd]
    · simp only [settle, new_append, hfront.new, new_cons, new_nil, Chunk.new_delete,
        Chunk.new_insert, new_kept, Option.getD_some, List.append_nil, List.nil_append,
        List.append_assoc]
      rw [← List.append_assoc (beforeSuffix _ _), hi', ← List.append_assoc (commonPrefix i d), hi]

/-- Gathering keeps the two sequences of the script and of what was gathered before it. -/
theorem leads_gather (g : Gathered α) (cs : EditScript α) :
    Leads (gather g cs) (g.held.getD [] ++ g.deleted.getD [] ++ old cs)
      (g.held.getD [] ++ g.inserted.getD [] ++ new cs) := by
  induction cs generalizing g with
  | nil => exact g.leads_settle []
  | cons c rest ih =>
    obtain ⟨_ | _ | _, xs⟩ := c
    · have hs := g.leads_settle xs
      have hr := ih { held := some (g.settle xs).2 }
      simp only [Option.getD_some, Option.getD_none, List.append_nil] at hr
      constructor
      · have := hs.old
        simp only [old_append, old_kept] at this
        rw [gather, old_append, hr.old, ← List.append_assoc, this]
        simp
      · have := hs.new
        simp only [new_append, new_kept] at this
        rw [gather, new_append, hr.new, ← List.append_assoc, this]
        simp
    · have hr := ih { g with inserted := some (g.inserted.getD [] ++ xs) }
      exact ⟨by simp [gather, hr.old], by simp [gather, hr.new]⟩
    · have hr := ih { g with deleted := some (g.deleted.getD [] ++ xs) }
      exact ⟨by simp [gather, hr.old], by simp [gather, hr.new]⟩

/-- An edit that slides over a kept stretch takes nothing away and adds nothing. -/
theorem leads_slideEdits (cs : EditScript α) : Leads (slideEdits cs).1 (old cs) (new cs) := by
  fun_induction slideEdits cs with
  | case1 p c n rest h hs cs moved heq ih =>
    obtain ⟨op, items⟩ := c
    obtain ⟨front, rfl⟩ := List.isSuffixOf_iff_suffix.1 hs
    rw [heq] at ih
    have hp := Chunk.old_of_equal h.1
    have hp' := Chunk.new_of_equal h.1
    have hn := Chunk.old_of_equal h.2
    have hn' := Chunk.new_of_equal h.2
    have := ih.old
    have := ih.new
    constructor <;> cases op <;> simp_all [beforeSuffix]
  | case2 p c n rest h hs hp cs moved heq ih =>
    obtain ⟨op, items⟩ := c
    obtain ⟨back, rfl⟩ := List.isPrefixOf_iff_prefix.1 hp
    rw [heq] at ih
    have hp := Chunk.old_of_equal h.1
    have hp' := Chunk.new_of_equal h.1
    have hn := Chunk.old_of_equal h.2
    have hn' := Chunk.new_of_equal h.2
    have := ih.old
    have := ih.new
    constructor <;> cases op <;> simp_all [afterPrefix]
  | case3 p c n rest h hs hp cs moved heq ih =>
    rw [heq] at ih
    exact ih.cons p
  | case4 p c n rest h cs moved heq ih =>
    rw [heq] at ih
    exact ih.cons p
  | case5 cs h => exact ⟨rfl, rfl⟩

/-- Tidying keeps the two sequences. -/
theorem leads_tidy (cs : EditScript α) : Leads (tidy cs) (old cs) (new cs) := by
  fun_induction tidy cs with
  | case1 cs gathered h ih =>
    have hs := leads_slideEdits (gather {} cs)
    have hg := leads_gather {} cs
    exact ⟨by rw [ih.old, hs.old, hg.old]; simp, by rw [ih.new, hs.new, hg.new]; simp⟩
  | case2 cs gathered h =>
    have hg := leads_gather {} cs
    exact ⟨by rw [hg.old]; simp, by rw [hg.new]; simp⟩

/-! ### Comparing -/

theorem take_append_occurrence {part xs : List α} {i : Nat}
    (h : (occurrences part xs).head? = some i) :
    xs.take i ++ part ++ xs.drop (i + part.length) = xs := by
  have hmem : i ∈ occurrences part xs := List.mem_of_head? h
  simp only [occurrences, List.mem_filter] at hmem
  obtain ⟨back, hback⟩ := List.isPrefixOf_iff_prefix.1 hmem.2
  have hdrop : xs.drop (i + part.length) = back := by
    rw [← List.drop_drop, ← hback, List.drop_left]
  rw [hdrop, List.append_assoc, hback, List.take_append_drop]

theorem leads_containment? {xs ys : List α} {cs : EditScript α}
    (h : containment? xs ys = some cs) : Leads cs xs ys := by
  unfold containment? at h
  split at h
  · obtain ⟨i, hi, rfl⟩ := Option.map_eq_some_iff.1 h
    have := take_append_occurrence hi
    exact ⟨by simpa using this, by simp⟩
  · obtain ⟨i, hi, rfl⟩ := Option.map_eq_some_iff.1 h
    have := take_append_occurrence hi
    exact ⟨by simp, by simpa using this⟩

/-- A script at hand leads from the one sequence to the other. -/
theorem leads_of_plan {xs ys : List α} {cs : EditScript α} (h : plan xs ys = .inl cs) :
    Leads cs xs ys := by
  have replaced : Leads [⟨.delete, xs⟩, ⟨.insert, ys⟩] xs ys := ⟨by simp, by simp⟩
  unfold plan at h
  split at h
  · rename_i hxs
    cases h
    exact ⟨by simp [List.isEmpty_iff.1 hxs], by simp⟩
  split at h
  · rename_i hys
    cases h
    exact ⟨by simp, by simp [List.isEmpty_iff.1 hys]⟩
  split at h
  · rename_i hc
    cases h
    exact leads_containment? hc
  split at h
  · cases h
    exact replaced
  split at h
  · cases h
  · cases h
    exact replaced

/-- The script between two sequences leads from the one to the other. The recursion is that of the
comparison: either half of a division, and what the two sequences share at their ends. -/
theorem leads_between (xs ys : List α) : Leads (between xs ys) xs ys := by
  fun_induction between xs ys with
  | case1 xs => exact leads_kept xs
  | case2 xs ys hne e mid ih₁ ih₂ =>
    have hmid : Leads mid e.mid₁ e.mid₂ := by
      simp only [mid]
      split
      · rename_i cs hplan
        exact leads_of_plan hplan
      · rename_i d hplan
        have := ((ih₁ d).append (leads_kept d.shared)).append (ih₂ d)
        rwa [d.eq₁, d.eq₂] at this
    have hall := ((leads_kept e.front).append hmid).append (leads_kept e.back)
    rw [e.eq₁, e.eq₂] at hall
    have ht := leads_tidy (kept e.front ++ mid ++ kept e.back)
    rwa [hall.old, hall.new] at ht

end EditScript

/-! ### Lines -/

/-- The lines of a text with their newlines, put together, are the text. -/
theorem flatten_terminatedLines (text : Bytes) : (terminatedLines text).flatten = text := by
  fun_induction terminatedLines text <;> simp_all

/-- The texts of the chunks that are not insertions are the old sequence's text. -/
theorem flatMap_text_old (cs : EditScript Bytes) :
    (cs.filter (·.op ≠ .insert)).flatMap Chunk.text = (EditScript.old cs).flatten := by
  induction cs with
  | nil => rfl
  | cons c cs ih =>
    obtain ⟨_ | _ | _, xs⟩ := c <;> simp_all [Chunk.text]

theorem flatMap_text_new (cs : EditScript Bytes) :
    (cs.filter (·.op ≠ .delete)).flatMap Chunk.text = (EditScript.new cs).flatten := by
  induction cs with
  | nil => rfl
  | cons c cs ih =>
    obtain ⟨_ | _ | _, xs⟩ := c <;> simp_all [Chunk.text]

/-- The script between two texts is faithful: the texts of its kept and deleted chunks, put
together, are the text before, and those of its kept and inserted chunks the text after. -/
theorem lineScript_faithful (before after : Bytes) :
    ((lineScript before after).filter (·.op ≠ .insert)).flatMap Chunk.text = before ∧
      ((lineScript before after).filter (·.op ≠ .delete)).flatMap Chunk.text = after := by
  have h := EditScript.leads_between (terminatedLines before) (terminatedLines after)
  constructor
  · rw [flatMap_text_old, lineScript, h.old, flatten_terminatedLines]
  · rw [flatMap_text_new, lineScript, h.new, flatten_terminatedLines]

end HelperImports
