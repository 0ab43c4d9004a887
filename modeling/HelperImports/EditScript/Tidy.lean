import HelperImports.EditScript.Chunk
import HelperImports.EditScript.Overlap

/-! Tidy scripts. Between two kept stretches a tidy script deletes at most once and inserts at most
once, in this order, and an edit that could slide over a neighbouring kept stretch has done so.
Tidying keeps the old and the new sequence. -/

namespace HelperImports.EditScript

variable [DecidableEq α]

/-- The edits gathered since the last kept stretch, with that stretch. An edit of no items is an
edit. -/
structure Gathered (α : Type u) where
  held : Option (List α) := none
  deleted : Option (List α) := none
  inserted : Option (List α) := none

/-- The kept stretch that was held, as a script. -/
def held : Option (List α) → EditScript α
  | none => []
  | some xs => [⟨.equal, xs⟩]

/-- The script of what was gathered before a kept stretch `next`, and `next` with what it takes
over. Of a deletion and an insertion, what they share at the start goes to the stretch before them,
and what they share at the end to the stretch after them. -/
def Gathered.settle (g : Gathered α) (next : List α) : EditScript α × List α :=
  match g.deleted, g.inserted with
  | none, none => ([], g.held.getD [] ++ next)
  | some d, none => (EditScript.held g.held ++ [⟨.delete, d⟩], next)
  | none, some i => (EditScript.held g.held ++ [⟨.insert, i⟩], next)
  | some d, some i =>
    let front := commonPrefix i d
    let before := if front.isEmpty then g.held else some (g.held.getD [] ++ front)
    let d := afterPrefix front d
    let i := afterPrefix front i
    let back := commonSuffix i d
    (EditScript.held before ++ [⟨.delete, beforeSuffix back d⟩, ⟨.insert, beforeSuffix back i⟩],
      back ++ next)

/-- Gathers the edits between kept stretches. -/
def gather (g : Gathered α) : EditScript α → EditScript α
  | [] =>
    let (cs, last) := g.settle []
    cs ++ kept last
  | ⟨.delete, xs⟩ :: rest => gather { g with deleted := some (g.deleted.getD [] ++ xs) } rest
  | ⟨.insert, xs⟩ :: rest => gather { g with inserted := some (g.inserted.getD [] ++ xs) } rest
  | ⟨.equal, xs⟩ :: rest =>
    let (cs, next) := g.settle xs
    cs ++ gather { held := some next } rest

/-- Slides single edits over a kept stretch next to them where that makes the stretch vanish:
backwards if the edit ends with the stretch before it, otherwise forwards if it begins with the
stretch after it. Says whether any edit moved. -/
def slideEdits : EditScript α → EditScript α × Bool
  | p :: c :: n :: rest =>
    if p.op = .equal ∧ n.op = .equal then
      if p.items.isSuffixOf c.items then
        let (cs, _) := slideEdits (⟨.equal, p.items ++ n.items⟩ :: rest)
        (⟨c.op, p.items ++ beforeSuffix p.items c.items⟩ :: cs, true)
      else if n.items.isPrefixOf c.items then
        let (cs, _) := slideEdits (⟨c.op, afterPrefix n.items c.items ++ n.items⟩ :: rest)
        (⟨.equal, p.items ++ n.items⟩ :: cs, true)
      else
        let (cs, moved) := slideEdits (c :: n :: rest)
        (p :: cs, moved)
    else
      let (cs, moved) := slideEdits (c :: n :: rest)
      (p :: cs, moved)
  | cs => (cs, false)
termination_by cs => cs.length

/-! Tidying ends, because every edit that slides removes a kept stretch, and a kept stretch is only
ever made out of items that were deleted and inserted before. -/

/-- A kept stretch counts one, an edit counts its items. -/
def chunkWeight (c : Chunk α) : Nat :=
  match c.op with
  | .equal => 1
  | _ => c.items.length

/-- The weight of a script's chunks together. -/
def weight : EditScript α → Nat
  | [] => 0
  | c :: cs => chunkWeight c + weight cs

omit [DecidableEq α] in
@[simp] theorem weight_nil : weight ([] : EditScript α) = 0 := rfl

omit [DecidableEq α] in
@[simp] theorem weight_cons (c : Chunk α) (cs : EditScript α) :
    weight (c :: cs) = chunkWeight c + weight cs := rfl

omit [DecidableEq α] in
@[simp] theorem weight_append (cs ds : EditScript α) :
    weight (cs ++ ds) = weight cs + weight ds := by
  induction cs with
  | nil => simp
  | cons c cs ih => simp only [List.cons_append, weight_cons, ih]; omega

/-- What was gathered, with the weight it had as chunks. -/
def Gathered.weight (g : Gathered α) : Nat :=
  g.held.toList.length + (g.deleted.getD []).length + (g.inserted.getD []).length

theorem length_commonPrefix_left (xs ys : List α) :
    (commonPrefix xs ys).length + (afterPrefix (commonPrefix xs ys) xs).length = xs.length := by
  simpa using congrArg List.length (commonPrefix_append_left xs ys)

theorem length_commonPrefix_right (xs ys : List α) :
    (commonPrefix xs ys).length + (afterPrefix (commonPrefix xs ys) ys).length = ys.length := by
  simpa using congrArg List.length (commonPrefix_append_right xs ys)

theorem length_commonSuffix_left (xs ys : List α) :
    (beforeSuffix (commonSuffix xs ys) xs).length + (commonSuffix xs ys).length = xs.length := by
  simpa using congrArg List.length (append_commonSuffix_left xs ys)

theorem length_commonSuffix_right (xs ys : List α) :
    (beforeSuffix (commonSuffix xs ys) ys).length + (commonSuffix xs ys).length = ys.length := by
  simpa using congrArg List.length (append_commonSuffix_right xs ys)

omit [DecidableEq α] in
theorem weight_held (h : Option (List α)) : weight (held h) = h.toList.length := by
  cases h <;> simp [held, chunkWeight]

theorem Gathered.weight_settle (g : Gathered α) (next : List α) :
    EditScript.weight (g.settle next).1 ≤ g.weight := by
  obtain ⟨h, _ | d, _ | i⟩ := g
  · simp [settle]
  · simp [settle, Gathered.weight, weight_held, chunkWeight]
  · simp [settle, Gathered.weight, weight_held, chunkWeight]
  · have h₁ := length_commonPrefix_left i d
    have h₂ := length_commonPrefix_right i d
    have h₃ := length_commonSuffix_left (afterPrefix (commonPrefix i d) i)
      (afterPrefix (commonPrefix i d) d)
    have h₄ := length_commonSuffix_right (afterPrefix (commonPrefix i d) i)
      (afterPrefix (commonPrefix i d) d)
    simp only [settle, Gathered.weight, weight_append, weight_held, weight_cons, chunkWeight,
      weight_nil, Option.getD_some]
    split
    · omega
    · rename_i hne
      have : 0 < (commonPrefix i d).length := by
        cases hc : commonPrefix i d <;> simp_all
      simp only [Option.toList_some, List.length_singleton]
      omega

theorem Gathered.weight_settle_end (g : Gathered α) :
    EditScript.weight (g.settle []).1 + EditScript.weight (kept (g.settle []).2) ≤ g.weight := by
  obtain ⟨h, _ | d, _ | i⟩ := g
  · rcases h with _ | _ | _ <;> simp [settle, kept, Gathered.weight, chunkWeight]
  · simp [settle, kept, Gathered.weight, weight_held, chunkWeight]
  · simp [settle, kept, Gathered.weight, weight_held, chunkWeight]
  · have h₁ := length_commonPrefix_left i d
    have h₂ := length_commonPrefix_right i d
    have h₃ := length_commonSuffix_left (afterPrefix (commonPrefix i d) i)
      (afterPrefix (commonPrefix i d) d)
    have h₄ := length_commonSuffix_right (afterPrefix (commonPrefix i d) i)
      (afterPrefix (commonPrefix i d) d)
    have h₅ : EditScript.weight (kept (commonSuffix (afterPrefix (commonPrefix i d) i)
        (afterPrefix (commonPrefix i d) d))) ≤ (commonSuffix (afterPrefix (commonPrefix i d) i)
        (afterPrefix (commonPrefix i d) d)).length := by
      cases hc : commonSuffix (afterPrefix (commonPrefix i d) i)
        (afterPrefix (commonPrefix i d) d) <;> simp [kept, chunkWeight]
    simp only [settle, Gathered.weight, weight_append, weight_held, weight_cons, chunkWeight,
      weight_nil, Option.getD_some, List.append_nil]
    split
    · omega
    · rename_i hne
      have : 0 < (commonPrefix i d).length := by
        cases hc : commonPrefix i d <;> simp_all
      simp only [Option.toList_some, List.length_singleton]
      omega

theorem weight_gather (g : Gathered α) (cs : EditScript α) :
    weight (gather g cs) ≤ g.weight + weight cs := by
  induction cs generalizing g with
  | nil =>
    have := g.weight_settle_end
    simp only [gather, weight_append, weight_nil]
    omega
  | cons c rest ih =>
    obtain ⟨_ | _ | _, xs⟩ := c
    · have h₁ := g.weight_settle xs
      have h₂ := ih { held := some (g.settle xs).2 }
      simp only [gather, weight_append, weight_cons, chunkWeight] at h₂ ⊢
      simp only [Gathered.weight, Option.toList_some, List.length_singleton, Option.getD_none,
        List.length_nil] at h₁ h₂ ⊢
      omega
    · have h := ih { g with inserted := some (g.inserted.getD [] ++ xs) }
      simp only [gather, weight_cons, chunkWeight]
      simp only [Gathered.weight, Option.getD_some, List.length_append] at h ⊢
      omega
    · have h := ih { g with deleted := some (g.deleted.getD [] ++ xs) }
      simp only [gather, weight_cons, chunkWeight]
      simp only [Gathered.weight, Option.getD_some, List.length_append] at h ⊢
      omega

omit [DecidableEq α] in
theorem chunkWeight_equal (xs : List α) : chunkWeight ⟨.equal, xs⟩ = 1 := rfl

omit [DecidableEq α] in
theorem chunkWeight_congr {op : Op} {xs ys : List α} (h : xs.length = ys.length) :
    chunkWeight ⟨op, xs⟩ = chunkWeight ⟨op, ys⟩ := by
  cases op <;> simp [chunkWeight, h]

theorem weight_slideEdits (cs : EditScript α) :
    weight (slideEdits cs).1 + (slideEdits cs).2.toNat ≤ weight cs := by
  fun_induction slideEdits cs with
  | case1 p c n rest h hs cs moved heq ih =>
    have hc : chunkWeight ⟨c.op, p.items ++ beforeSuffix p.items c.items⟩ = chunkWeight c := by
      apply chunkWeight_congr
      have := (List.isSuffixOf_iff_suffix.1 hs).length_le
      simp only [beforeSuffix, List.length_append, List.length_take]
      omega
    have hp : chunkWeight p = 1 := by simp [chunkWeight, h.1]
    have hn : chunkWeight n = 1 := by simp [chunkWeight, h.2]
    simp only [weight_cons, hc, hp, hn, heq, chunkWeight_equal, Bool.toNat_true] at ih ⊢
    omega
  | case2 p c n rest h hs hp' cs moved heq ih =>
    have hc : chunkWeight ⟨c.op, afterPrefix n.items c.items ++ n.items⟩ = chunkWeight c := by
      apply chunkWeight_congr
      have := (List.isPrefixOf_iff_prefix.1 hp').length_le
      simp only [afterPrefix, List.length_append, List.length_drop]
      omega
    have hp : chunkWeight p = 1 := by simp [chunkWeight, h.1]
    have hn : chunkWeight n = 1 := by simp [chunkWeight, h.2]
    simp only [weight_cons, hc, hp, hn, heq, chunkWeight_equal, Bool.toNat_true] at ih ⊢
    omega
  | case3 p c n rest h hs hp cs moved heq ih =>
    simp only [weight_cons, heq] at ih ⊢
    omega
  | case4 p c n rest h cs moved heq ih =>
    simp only [weight_cons, heq] at ih ⊢
    omega
  | case5 cs h => simp

theorem weight_slideEdits_lt {cs : EditScript α} (h : (slideEdits cs).2 = true) :
    weight (slideEdits cs).1 < weight cs := by
  have := weight_slideEdits cs
  rw [h, Bool.toNat_true] at this
  omega

/-- Gathers the edits between kept stretches and slides single edits, over and over until none
moves. -/
def tidy (cs : EditScript α) : EditScript α :=
  let gathered := gather {} cs
  if _h : (slideEdits gathered).2 then tidy (slideEdits gathered).1 else gathered
termination_by weight cs
decreasing_by
  have h₁ := weight_slideEdits_lt _h
  have h₂ := weight_gather {} cs
  simp only [Gathered.weight, Option.toList_none, Option.getD_none, List.length_nil] at h₂
  simp only [gathered] at h₁
  omega

end HelperImports.EditScript
