import HelperImports.FileSystem.Search

/-! Trees of files apart from what the files hold. The outline of a tree forgets the contents of
its files; a file that is written where one stands keeps the outline, changes the content at its own
names, and no other. -/

namespace HelperImports

mutual

/-- The tree with the contents of all files forgotten. -/
def Node.outline : Node → Node
  | .file _ => .file []
  | .link target => .link target
  | .dir es => .dir (outlineEntries es)

/-- The entries of a directory with the contents of all files forgotten. -/
def outlineEntries : List (Bytes × Node) → List (Bytes × Node)
  | [] => []
  | (name, node) :: es => (name, node.outline) :: outlineEntries es

end

theorem outlineEntries_append (es fs : List (Bytes × Node)) :
    outlineEntries (es ++ fs) = outlineEntries es ++ outlineEntries fs := by
  induction es with
  | nil => rfl
  | cons e es ih => simp only [List.cons_append, outlineEntries, ih]

theorem map_fst_outlineEntries (es : List (Bytes × Node)) :
    (outlineEntries es).map (·.1) = es.map (·.1) := by
  induction es with
  | nil => rfl
  | cons e es ih => simp only [outlineEntries, List.map_cons, ih]

theorem lookup_cons_eq_ite (name n : Bytes) (x : Node) (es : List (Bytes × Node)) :
    ((n, x) :: es).lookup name = if name = n then some x else es.lookup name := by
  rw [List.lookup_cons]
  by_cases h : name = n
  · simp [h]
  · simp [h, beq_eq_false_iff_ne.2 h]

theorem lookup_outlineEntries (name : Bytes) (es : List (Bytes × Node)) :
    (outlineEntries es).lookup name = (es.lookup name).map Node.outline := by
  induction es with
  | nil => rfl
  | cons e es ih =>
    rw [outlineEntries, lookup_cons_eq_ite, lookup_cons_eq_ite, ih]
    split <;> rfl

namespace Node

@[simp] theorem isDir_outline (n : Node) : n.outline.isDir = n.isDir := by
  cases n <;> rfl

theorem child?_outline (n : Node) (name : Bytes) :
    n.outline.child? name = (n.child? name).map outline := by
  cases n with
  | file => rfl
  | link => rfl
  | dir es => exact lookup_outlineEntries name es

theorem get?_outline (n : Node) (names : List Bytes) :
    n.outline.get? names = (n.get? names).map outline := by
  induction names generalizing n with
  | nil => rfl
  | cons name rest ih =>
    rw [get?, get?, child?_outline]
    cases n.child? name with
    | none => rfl
    | some c => exact ih c

end Node

/-! ### Putting a file where one stands -/

/-- Where a name has an entry, putting replaces the node of that entry. The order of the entries
leads the search to it. -/
theorem exists_putEntry_eq {name : Bytes} {es : List (Bytes × Node)} {x : Node}
    (ordered : es.Pairwise (·.1 < ·.1)) (h : es.lookup name = some x) :
    ∃ front back, es = front ++ (name, x) :: back ∧
      ∀ y, putEntry name y es = front ++ (name, y) :: back := by
  induction es with
  | nil => simp at h
  | cons e es ih =>
    obtain ⟨n, z⟩ := e
    rw [List.pairwise_cons] at ordered
    by_cases hn : name = n
    · subst hn
      obtain rfl : z = x := by simpa [lookup_cons_eq_ite] using h
      exact ⟨[], es, rfl, fun y => by simp [putEntry]⟩
    · have hlookup : es.lookup name = some x := by simpa [lookup_cons_eq_ite, hn] using h
      have hlt : n < name := ordered.1 _ (Node.mem_of_lookup hlookup)
      obtain ⟨front, back, rfl, hput⟩ := ih ordered.2 hlookup
      refine ⟨(n, z) :: front, back, rfl, fun y => ?_⟩
      rw [putEntry, if_neg hn, if_neg (List.lt_asymm hlt), hput y, List.cons_append]

theorem lookup_putEntry (name name' : Bytes) (y : Node) (es : List (Bytes × Node)) :
    (putEntry name y es).lookup name' = if name' = name then some y else es.lookup name' := by
  fun_induction putEntry name y es with
  | case1 => exact lookup_cons_eq_ite name' name y []
  | case2 x es =>
    rw [lookup_cons_eq_ite, lookup_cons_eq_ite]
    split <;> rfl
  | case3 n x es => exact lookup_cons_eq_ite name' name y _
  | case4 n x es hne hlt ih =>
    rw [lookup_cons_eq_ite, lookup_cons_eq_ite, ih]
    by_cases h : name' = n
    · rw [if_pos h, if_pos h, if_neg (h ▸ Ne.symm hne)]
    · rw [if_neg h, if_neg h]

namespace Node

/-- The content of the file at the end of the given names. -/
def content? (n : Node) (names : List Bytes) : Option Bytes :=
  match n.get? names with
  | some (file c) => some c
  | _ => none

theorem content?_eq_some_iff {n : Node} {names : List Bytes} {c : Bytes} :
    n.content? names = some c ↔ n.get? names = some (file c) := by
  unfold content?
  split <;> simp_all

/-- The directory that leads to a file has the next name on the way to it as a proper entry. -/
theorem exists_of_content? {n : Node} (hn : n.WellFormed) {name : Bytes} {rest : List Bytes}
    {c : Bytes} (h : n.content? (name :: rest) = some c) :
    ∃ es x, n = dir es ∧ es.Pairwise (·.1 < ·.1) ∧ isEntryName name = true ∧
      es.lookup name = some x ∧ x.WellFormed ∧ x.content? rest = some c := by
  rw [content?_eq_some_iff, get?] at h
  cases hx : n.child? name with
  | none => simp [hx] at h
  | some x =>
    simp only [hx] at h
    have hwf := hn.child? hx
    cases hn with
    | file => simp [child?, entries] at hx
    | link => simp [child?, entries] at hx
    | dir ordered named _ =>
      exact ⟨_, x, rfl, ordered, named _ (mem_of_lookup hx), hx, hwf, content?_eq_some_iff.2 h⟩

theorem outline_put {n : Node} (hn : n.WellFormed) {names : List Bytes} {c : Bytes}
    (h : n.content? names = some c) (c' : Bytes) :
    (n.put (file c') names).outline = n.outline := by
  induction names generalizing n with
  | nil =>
    obtain rfl : n = file c := by simpa [content?_eq_some_iff, get?] using h
    rfl
  | cons name rest ih =>
    obtain ⟨es, x, rfl, ordered, hname, hx, hwf, hrest⟩ := exists_of_content? hn h
    obtain ⟨front, back, rfl, hput⟩ := exists_putEntry_eq ordered hx
    have hchild : (dir (front ++ (name, x) :: back)).child? name = some x := hx
    simp only [put, hname, if_true, hchild, Option.getD_some, hput, outline,
      outlineEntries_append, outlineEntries, ih hwf hrest]

/-- A file written where one stands has the new content, and every other file has the old one. -/
theorem content?_put {n : Node} (hn : n.WellFormed) {names : List Bytes} {c : Bytes}
    (h : n.content? names = some c) (c' : Bytes) (names' : List Bytes) :
    (n.put (file c') names).content? names' =
      if names' = names then some c' else n.content? names' := by
  induction names generalizing n names' with
  | nil =>
    obtain rfl : n = file c := by simpa [content?_eq_some_iff, get?] using h
    cases names' with
    | nil => rfl
    | cons name' rest' => rfl
  | cons name rest ih =>
    obtain ⟨es, x, rfl, ordered, hname, hx, hwf, hrest⟩ := exists_of_content? hn h
    have hchild : (dir es).child? name = some x := hx
    have hput : (dir es).put (file c') (name :: rest) =
        dir (putEntry name (x.put (file c') rest) es) := by
      simp only [put, hname, if_true, hchild, Option.getD_some]
    rw [hput]
    cases names' with
    | nil => simp [content?, get?]
    | cons name' rest' =>
      have hget : (dir (putEntry name (x.put (file c') rest) es)).child? name' =
          if name' = name then some (x.put (file c') rest) else es.lookup name' :=
        lookup_putEntry name name' _ es
      by_cases hn' : name' = name
      · subst hn'
        have := ih hwf hrest rest'
        simp only [content?, get?, hget, if_true, hchild, List.cons.injEq, true_and] at this ⊢
        exact this
      · simp only [content?, get?, hget, hn', if_false, List.cons.injEq, false_and]
        rfl

/-- Writing what a file holds changes nothing. -/
theorem put_content? {n : Node} (hn : n.WellFormed) {names : List Bytes} {c : Bytes}
    (h : n.content? names = some c) : n.put (file c) names = n := by
  induction names generalizing n with
  | nil =>
    obtain rfl : n = file c := by simpa [content?_eq_some_iff, get?] using h
    rfl
  | cons name rest ih =>
    obtain ⟨es, x, rfl, ordered, hname, hx, hwf, hrest⟩ := exists_of_content? hn h
    obtain ⟨front, back, rfl, hput⟩ := exists_putEntry_eq ordered hx
    have hchild : (dir (front ++ (name, x) :: back)).child? name = some x := hx
    simp only [put, hname, if_true, hchild, Option.getD_some, hput, ih hwf hrest]

end Node

/-! ### Searching -/

mutual

/-- A search finds the same in a tree and in its outline. -/
theorem Search.below_outline (root path : Bytes) (n : Node) :
    Search.below root path n.outline = Search.below root path n := by
  cases n with
  | file => rfl
  | link => rfl
  | dir es => simp only [Node.outline, Search.below, Search.belowAll_outline root path es]

theorem Search.belowAll_outline (root path : Bytes) (es : List (Bytes × Node)) :
    Search.belowAll root path (outlineEntries es) = Search.belowAll root path es := by
  cases es with
  | nil => rfl
  | cons e es =>
    obtain ⟨name, node⟩ := e
    simp only [outlineEntries, Search.belowAll, Search.below_outline root _ node,
      Search.belowAll_outline root path es]

end

end HelperImports
