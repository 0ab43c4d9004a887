import HelperImports.Proofs.Counts
import HelperImports.Proofs.Rendering

/-! An edit is shown piece by piece: the header, then every changed line after its mark. A sink that
closes is left with the first pieces, whole and in order, and the edit counts as shown if and only if
there was room for all. A piece is counted as a line that is added or removed, the header apart, so
the counts tell how much room is needed. -/

namespace HelperImports

namespace Sink

/-- Of writes that all have to be taken, a sink takes as many as it has room for, and none is refused
if and only if there is room for all. -/
theorem writeAll_required {ws : List Write} (h : ∀ w ∈ ws, w.optional = false) (room : Nat)
    (taken : Bytes) :
    (writeAll ws (.keep (some room) taken)).1.taken = taken ++ ((ws.map (·.text)).take room).flatten ∧
      ((writeAll ws (.keep (some room) taken)).2 = false ↔ room < ws.length) := by
  induction ws generalizing room taken with
  | nil => simp [writeAll, Sink.taken]
  | cons w ws ih =>
    rw [List.forall_mem_cons] at h
    cases room with
    | zero => simp [writeAll, write, h.1, Sink.taken]
    | succ room =>
      obtain ⟨htaken, hrefused⟩ := ih h.2 room (taken ++ w.text)
      simp only [writeAll, write, Bool.true_or, if_true]
      rw [htaken, hrefused]
      simp

end Sink

namespace Rendering

/-- The changed lines of a chunk, each after its mark and with a newline at its end. -/
def marked (c : Chunk Bytes) : List Bytes :=
  match c.op with
  | .equal => []
  | .insert => (shownLines c.text).map fun l => bytes "+" ++ l ++ bytes "\n"
  | .delete => (shownLines c.text).map fun l => bytes "-" ++ l ++ bytes "\n"

/-- The pieces that show an edit without colors: the two lines of the header at once, then the
changed lines in the order of the script. -/
def pieces (path before after : Bytes) : List Bytes :=
  (bytes "--- " ++ path ++ bytes "\n+++ " ++ path ++ bytes "\n") ::
    (lineScript before after).flatMap marked

theorem length_flatMap_marked (cs : EditScript Bytes) :
    (cs.flatMap marked).length = shownCount .insert cs + shownCount .delete cs := by
  induction cs with
  | nil => rfl
  | cons c cs ih =>
    obtain ⟨_ | _ | _, xs⟩ := c <;> simp [marked, ih] <;> omega

theorem length_pieces (path before after : Bytes) :
    (pieces path before after).length =
      1 + (lineCounts before after).added + (lineCounts before after).removed := by
  rw [pieces, List.length_cons, length_flatMap_marked]
  show _ = 1 + shownCount .insert _ + shownCount .delete _
  omega

theorem text_chunk (c : Chunk Bytes) : (chunk .plain c).map (·.text) = marked c := by
  unfold chunk marked
  cases c.op <;> simp [changedLine]

theorem text_writes {before after : Bytes} (hne : before ≠ after) (path : Bytes) :
    (writes .plain path before after).map (·.text) = pieces path before after := by
  rw [writes, if_neg hne, List.map_append, List.map_flatMap]
  simp only [text_chunk]
  rfl

theorem required_writes (path before after : Bytes) :
    ∀ w ∈ writes .plain path before after, w.optional = false := by
  intro w h
  unfold writes at h
  split at h
  · simp at h
  · rcases List.mem_append.1 h with h | h
    · obtain rfl := List.mem_singleton.1 h
      rfl
    · obtain ⟨c, -, hc⟩ := List.mem_flatMap.1 h
      exact optional_of_mem_chunk hc

/-- Two texts that differ have a line that is shown. -/
theorem one_lt_length_pieces {before after : Bytes} (hne : before ≠ after) (path : Bytes) :
    1 < (pieces path before after).length := by
  have hlines : (lineScript before after).flatMap marked ≠ [] := by
    intro hnil
    refine hne (eq_of_lineScript_equal fun c hc => ?_)
    by_contra hop
    apply chunk_ne_nil .plain hop
    rw [← List.map_eq_nil_iff, text_chunk]
    exact List.flatMap_eq_nil_iff.1 hnil c hc
  have hpos := List.length_pos_iff.2 hlines
  rw [pieces, List.length_cons]
  omega

/-- Showing an edit without colors on a sink with room for `k` writes. It says that there is an edit
if and only if the texts differ; it fails if and only if there is not room for the header and for
every line that is added or removed; and the sink is left with as many of these pieces as there is
room for, from the first on. Texts that differ have more to show than the header. -/
theorem render_takes_pieces (path before after taken : Bytes) (k : Nat) :
    let counts := lineCounts before after
    let n := if before = after then 0 else 1 + counts.added + counts.removed
    let shown := render .plain path before after (.keep (some k) taken)
    (shown.changed = true ↔ before ≠ after) ∧
      (shown.complete = false ↔ k < n) ∧
      shown.sink.taken = taken ++ ((pieces path before after).take (min k n)).flatten ∧
      (before ≠ after → n = (pieces path before after).length ∧ 1 < n) := by
  intro counts n shown
  refine ⟨bne_iff_ne, ?_⟩
  by_cases heq : before = after
  · have hn : n = 0 := if_pos heq
    have hwrites : writes .plain path before after = [] := if_pos heq
    have hshown : shown = ⟨.keep (some k) taken, before != after, true⟩ := by
      simp only [shown, render, hwrites, Sink.writeAll]
    rw [hshown, hn]
    exact ⟨by simp, by simp [Sink.taken], fun hne => absurd heq hne⟩
  · have hn : n = (pieces path before after).length := by
      rw [length_pieces]
      exact if_neg heq
    obtain ⟨htaken, hrefused⟩ := Sink.writeAll_required (required_writes path before after) k taken
    rw [← List.length_map, text_writes heq] at hrefused
    rw [text_writes heq] at htaken
    rw [hn, ← List.take_eq_take_min]
    exact ⟨hrefused, htaken, fun _ => ⟨rfl, one_lt_length_pieces heq path⟩⟩

/-- A line is replaced by another, and the sink closes between the two pieces that show it. -/
theorem render_takes_pieces_closing :
    let shown := render .plain (bytes "f") (bytes "a\nb\n") (bytes "a\nc\n") (.keep (some 2) [])
    shown.changed = true ∧ shown.complete = false ∧
      shown.sink.taken = bytes "--- f\n+++ f\n-b\n" := by
  obtain ⟨hchanged, hcomplete, htaken, -⟩ :=
    render_takes_pieces (bytes "f") (bytes "a\nb\n") (bytes "a\nc\n") [] 2
  refine ⟨hchanged.2 (by decide), hcomplete.2 (by decide +kernel), htaken.trans ?_⟩
  decide +kernel

end Rendering

end HelperImports
