import HelperImports.EditScript.Rendering
import HelperImports.Proofs.Faithful
import HelperImports.Proofs.Lines

/-! What a sink is left with. The colors of a header may get lost where a sink takes no more output,
but a changed line comes after them, and it would be refused too: where nothing is refused that has
to be taken, everything was taken. -/

namespace HelperImports

namespace Sink

/-- A sink that takes no more output lets optional writes pass only. -/
theorem optional_of_writeAll_full {ws : List Write} {taken : Bytes}
    (h : (writeAll ws (.keep (some 0) taken)).2 = true) : ∀ w ∈ ws, w.optional = true := by
  induction ws with
  | nil => simp
  | cons w ws ih =>
    simp only [writeAll, write, Bool.false_or] at h
    by_cases hw : w.optional = true
    · rw [if_pos hw] at h
      exact List.forall_mem_cons.2 ⟨hw, ih h⟩
    · rw [if_neg hw] at h
      cases h

/-- The last write, if there is one, has to be taken. -/
def Firm (ws : List Write) : Prop := ∀ w, ws.getLast? = some w → w.optional = false

theorem Firm.tail {w : Write} {ws : List Write} (h : Firm (w :: ws)) : Firm ws := by
  intro v hv
  refine h v ?_
  rw [List.getLast?_cons, hv]
  rfl

/-- Where the last write has to be taken, a sink that takes no more output refuses. -/
theorem writeAll_full {w : Write} {ws : List Write} {taken : Bytes} (hfirm : Firm (w :: ws)) :
    (writeAll (w :: ws) (.keep (some 0) taken)).2 = false := by
  rw [Bool.eq_false_iff]
  intro h
  have hlast := List.getLast?_eq_some_getLast (List.cons_ne_nil w ws)
  have hoptional := optional_of_writeAll_full h _ (List.getLast_mem (List.cons_ne_nil w ws))
  rw [hfirm _ hlast] at hoptional
  cases hoptional

/-- Where the last write has to be taken, all were taken if none was refused. -/
theorem writeAll_keep {ws : List Write} {room : Option Nat} {taken : Bytes} (hfirm : Firm ws)
    (h : (writeAll ws (.keep room taken)).2 = true) :
    ∃ room', (writeAll ws (.keep room taken)).1 = .keep room' (taken ++ ws.flatMap (·.text)) := by
  induction ws generalizing room taken with
  | nil => exact ⟨room, by simp [writeAll]⟩
  | cons w ws ih =>
    match room with
    | none =>
      simp only [writeAll, write, Bool.true_or, if_true] at h ⊢
      obtain ⟨room', hroom'⟩ := ih hfirm.tail h
      exact ⟨room', by simp [hroom']⟩
    | some (n + 1) =>
      simp only [writeAll, write, Bool.true_or, if_true] at h ⊢
      obtain ⟨room', hroom'⟩ := ih hfirm.tail h
      exact ⟨room', by simp [hroom']⟩
    | some 0 => cases (writeAll_full hfirm).symm.trans h

/-- The sink takes `n` writes more. -/
def Takes (n : Nat) : Sink → Prop
  | keep (some room) _ => n ≤ room
  | _ => True

theorem Takes.mono {m n : Nat} {s : Sink} (h : s.Takes n) (hmn : m ≤ n) : s.Takes m := by
  match s with
  | discard => trivial
  | keep none _ => trivial
  | keep (some room) _ => exact Nat.le_trans hmn h

@[simp] theorem takes_zero (s : Sink) : s.Takes 0 := by
  match s with
  | discard => trivial
  | keep none _ => trivial
  | keep (some room) _ => exact Nat.zero_le room

/-- Where the last write has to be taken, none is refused if and only if there is room for all. -/
theorem writeAll_iff_takes {ws : List Write} (hfirm : Firm ws) (s : Sink) :
    (s.writeAll ws).2 = true ↔ s.Takes ws.length := by
  induction ws generalizing s with
  | nil => simp [writeAll]
  | cons w ws ih =>
    match s with
    | discard => exact ih hfirm.tail discard
    | keep none taken => exact ih hfirm.tail (keep none (taken ++ w.text))
    | keep (some 0) taken =>
      rw [writeAll_full hfirm]
      simp [Takes]
    | keep (some (room + 1)) taken =>
      refine (ih hfirm.tail (keep (some room) (taken ++ w.text))).trans ?_
      simp [Takes]

/-- Writes for which there is room leave that much less of it. -/
theorem takes_writeAll {ws : List Write} {s : Sink} (h : s.Takes ws.length) (n : Nat) :
    (s.writeAll ws).1.Takes n ↔ s.Takes (ws.length + n) := by
  induction ws generalizing s with
  | nil => simp [writeAll]
  | cons w ws ih =>
    match s with
    | discard => exact ih (s := discard) trivial
    | keep none taken => exact ih (s := keep none (taken ++ w.text)) trivial
    | keep (some 0) taken => simp [Takes] at h
    | keep (some (room + 1)) taken =>
      have hroom : ws.length ≤ room := by simpa [Takes] using h
      refine (ih (s := keep (some room) (taken ++ w.text)) hroom).trans ?_
      simp only [Takes, List.length_cons]
      omega

end Sink

namespace EditScript

theorem old_eq_new_of_equal {cs : EditScript α} (h : ∀ c ∈ cs, c.op = .equal) :
    old cs = new cs := by
  induction cs with
  | nil => rfl
  | cons c cs ih =>
    rw [List.forall_mem_cons] at h
    rw [old_cons, new_cons, ih h.2, Chunk.old_of_equal h.1, Chunk.new_of_equal h.1]

end EditScript

/-- A script that deletes and inserts nothing stands between equal texts. -/
theorem eq_of_lineScript_equal {before after : Bytes}
    (h : ∀ c ∈ lineScript before after, c.op = .equal) : before = after := by
  have hleads := EditScript.leads_between (terminatedLines before) (terminatedLines after)
  have hsame : terminatedLines before = terminatedLines after := calc
    terminatedLines before = EditScript.old (lineScript before after) := hleads.old.symm
    _ = EditScript.new (lineScript before after) := EditScript.old_eq_new_of_equal h
    _ = terminatedLines after := hleads.new
  rw [← flatten_terminatedLines before, hsame, flatten_terminatedLines]

namespace Rendering

theorem chunk_ne_nil (palette : Palette) {c : Chunk Bytes} (h : c.op ≠ .equal) :
    chunk palette c ≠ [] := by
  have hshown : shownLines c.text ≠ [] := lines_ne_nil _
  unfold chunk
  cases hop : c.op with
  | equal => exact absurd hop h
  | insert => simpa using hshown
  | delete => simpa using hshown

theorem optional_of_mem_chunk {palette : Palette} {c : Chunk Bytes} {w : Write}
    (h : w ∈ chunk palette c) : w.optional = false := by
  unfold chunk at h
  cases hop : c.op with
  | equal => simp [hop] at h
  | insert =>
    simp only [hop] at h
    obtain ⟨line, -, rfl⟩ := List.mem_map.1 h
    cases palette <;> rfl
  | delete =>
    simp only [hop] at h
    obtain ⟨line, -, rfl⟩ := List.mem_map.1 h
    cases palette <;> rfl

/-- What shows an edit ends in a changed line. -/
theorem firm_writes (palette : Palette) (path before after : Bytes) :
    Sink.Firm (writes palette path before after) := by
  intro w hw
  unfold writes at hw
  split at hw
  · simp at hw
  · rename_i hne
    have hlines : (lineScript before after).flatMap (chunk palette) ≠ [] := by
      intro hnil
      refine hne (eq_of_lineScript_equal fun c hc => ?_)
      by_cases hop : c.op = .equal
      · exact hop
      · exact absurd (List.flatMap_eq_nil_iff.1 hnil c hc) (chunk_ne_nil palette hop)
    rw [List.getLast?_append, List.getLast?_eq_some_getLast hlines] at hw
    obtain rfl := Option.some.inj hw
    obtain ⟨c, -, hmem⟩ := List.mem_flatMap.1 (List.getLast_mem hlines)
    exact optional_of_mem_chunk hmem

end Rendering

end HelperImports
