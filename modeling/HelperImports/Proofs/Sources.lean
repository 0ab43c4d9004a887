import Mathlib
import HelperImports.FileSystem.Search
import HelperImports.Proofs.Way

/-! What a search finds. A search comes to the entries below a directory in the order of their
names, and passes over what is in a skipped directory; it finds those of them that are no
directories and are named like a source. So where every look at an entry succeeds, the paths that
are found are those of the sources below the directory, each once and in order. -/

namespace HelperImports

/-! ### Names -/

namespace Path

/-- A name has an ending with no other dot in it if and only if it ends so. -/
theorem extension_eq_iff {name ending : Bytes} (hdot : 0x2E ∉ ending) (hslash : slash ∉ ending) :
    extension name = 0x2E :: ending ↔ 0x2E :: ending <:+ name := by
  rw [← List.reverse_prefix, List.reverse_cons]
  unfold extension
  dsimp only
  constructor
  · intro h
    have hname := List.takeWhile_prefix (p := (· != slash)) (l := name.reverse)
    generalize name.reverse.takeWhile (· != slash) = last at h hname
    have hsplit := List.takeWhile_append_dropWhile (p := (· != 0x2E)) (l := last)
    cases hrest : last.dropWhile (· != 0x2E) with
    | nil =>
      rw [hrest] at h
      cases h
    | cons mark rest =>
      rw [hrest] at h hsplit
      obtain ⟨rfl, rfl⟩ := List.cons.inj h
      refine List.IsPrefix.trans ⟨rest, ?_⟩ hname
      rw [List.reverse_reverse, List.append_assoc, List.singleton_append, hsplit]
  · rintro ⟨rest, hrest⟩
    have hplain : ∀ b ∈ ending.reverse, (b != slash) = true := by
      intro b hb
      have hne : b ≠ slash := fun heq => hslash (heq ▸ List.mem_reverse.1 hb)
      simpa using hne
    have hbefore : ∀ b ∈ ending.reverse, (b != 0x2E) = true := by
      intro b hb
      have hne : b ≠ 0x2E := fun heq => hdot (heq ▸ List.mem_reverse.1 hb)
      simpa using hne
    have hlast : name.reverse.takeWhile (· != slash) =
        ending.reverse ++ 0x2E :: rest.takeWhile (· != slash) := by
      rw [← hrest, List.append_assoc, List.singleton_append, List.takeWhile_append_of_pos hplain,
        List.takeWhile_cons_of_pos (p := (· != slash)) (by decide)]
    have hdrop : (name.reverse.takeWhile (· != slash)).dropWhile (· != 0x2E) =
        0x2E :: rest.takeWhile (· != slash) := by
      rw [hlast, List.dropWhile_append_of_pos hbefore, List.dropWhile_cons_of_neg (by decide)]
    have htake : (name.reverse.takeWhile (· != slash)).takeWhile (· != 0x2E) = ending.reverse := by
      rw [hlast, List.takeWhile_append_of_pos hbefore, List.takeWhile_cons_of_neg (by decide),
        List.append_nil]
    simp only [hdrop, htake, List.reverse_reverse]

theorem isSourceFile_iff {name : Bytes} :
    isSourceFile name = true ↔
      ¬ bytes ".d.ts" <:+ name ∧ ∃ e ∈ sourceExtensions, bytes e <:+ name := by
  have hextension : ∀ e ∈ sourceExtensions, extension name = bytes e ↔ bytes e <:+ name := by
    intro e he
    have hshape : bytes e = 0x2E :: (bytes e).tail ∧ 0x2E ∉ (bytes e).tail ∧
        slash ∉ (bytes e).tail := by
      revert e
      decide
    rw [hshape.1]
    exact extension_eq_iff hshape.2.1 hshape.2.2
  simp only [isSourceFile, Bool.and_eq_true, Bool.not_eq_true', List.any_eq_true, beq_iff_eq,
    ← Bool.not_eq_true, List.isSuffixOf_iff_suffix]
  refine and_congr_right fun _ => exists_congr fun e => and_congr_right fun he => ?_
  rw [← hextension e he, eq_comm]

theorem isSkippedDirectory_eq_false_iff {name : Bytes} :
    isSkippedDirectory name = false ↔ name ≠ bytes "node_modules" ∧ ¬ dot <+: name := by
  rw [← Bool.not_eq_true]
  simp [isSkippedDirectory, List.isPrefixOf_iff_prefix]

end Path

/-! ### The entries that a search comes to -/

namespace Node

/-- The entry at `rel` below the directory `n`, under no directory that is passed over, is `x`. -/
structure IsVisited (n : Node) (rel : List Bytes) (x : Node) : Prop where
  below : rel ≠ []
  stands : n.get? rel = some x
  passed : ∀ name ∈ rel.dropLast, Path.isSkippedDirectory name = false

/-- At `rel` below the directory `n` stands a source: a file or a link, with the name of a source,
under no directory that is passed over. -/
structure IsSource (n : Node) (rel : List Bytes) : Prop where
  stands : ∃ x, n.get? rel = some x ∧ x.isDir = false
  named : ∃ name, rel.getLast? = some name ∧ ¬ bytes ".d.ts" <:+ name ∧
    ∃ e ∈ Path.sourceExtensions, bytes e <:+ name
  passed : ∀ name ∈ rel.dropLast, name ≠ bytes "node_modules" ∧ ¬ Path.dot <+: name

mutual

/-- The entry `name` of a directory and what is visited below it, in order. -/
def visits (name : Bytes) : Node → List (List Bytes × Node)
  | .dir es =>
    ([name], .dir es) ::
      if Path.isSkippedDirectory name then [] else (visitsAll es).map fun v => (name :: v.1, v.2)
  | .file content => [([name], .file content)]
  | .link target => [([name], .link target)]

def visitsAll : List (Bytes × Node) → List (List Bytes × Node)
  | [] => []
  | (name, node) :: es => visits name node ++ visitsAll es

end

theorem isVisited_cons {es : List (Bytes × Node)} {name : Bytes} {rel : List Bytes} {x : Node} :
    IsVisited (.dir es) (name :: rel) x ↔
      (es.lookup name).bind (·.get? rel) = some x ∧
        ∀ s ∈ (name :: rel).dropLast, Path.isSkippedDirectory s = false := by
  have hget : (dir es).get? (name :: rel) = (es.lookup name).bind (·.get? rel) := by
    simp only [get?, child?, entries]
    cases es.lookup name <;> rfl
  rw [← hget]
  exact ⟨fun h => ⟨h.stands, h.passed⟩, fun h => ⟨by simp, h.1, h.2⟩⟩

theorem not_isVisited_nil {n x : Node} : ¬ IsVisited n [] x := fun h => h.below rfl

mutual

theorem mem_visits {name : Bytes} {node x : Node} (h : node.WellFormed) {rel : List Bytes} :
    (rel, x) ∈ visits name node ↔
      ∃ rest, rel = name :: rest ∧ node.get? rest = some x ∧
        ∀ s ∈ rel.dropLast, Path.isSkippedDirectory s = false := by
  cases node with
  | dir es =>
    rw [visits, List.mem_cons, Prod.mk.injEq]
    constructor
    · rintro (⟨rfl, rfl⟩ | hbelow)
      · exact ⟨[], rfl, rfl, by simp⟩
      · split at hbelow
        · cases hbelow
        · rename_i hkept
          obtain ⟨⟨rest, y⟩, hvisit, heq⟩ := List.mem_map.1 hbelow
          obtain ⟨rfl, rfl⟩ := Prod.mk.inj heq
          have hvisited := (mem_visitsAll h).1 hvisit
          refine ⟨rest, rfl, hvisited.stands, ?_⟩
          rw [List.dropLast_cons_of_ne_nil hvisited.below, List.forall_mem_cons]
          exact ⟨by simpa using hkept, hvisited.passed⟩
    · rintro ⟨rest, rfl, hget, hpassed⟩
      by_cases hrest : rest = []
      · subst hrest
        exact .inl ⟨rfl, (Option.some.inj hget).symm⟩
      · rw [List.dropLast_cons_of_ne_nil hrest, List.forall_mem_cons] at hpassed
        refine .inr ?_
        rw [if_neg (by simp [hpassed.1]), List.mem_map]
        exact ⟨(rest, x), (mem_visitsAll h).2 ⟨hrest, hget, hpassed.2⟩, rfl⟩
  | _ =>
    simp only [visits, List.mem_singleton, Prod.mk.injEq]
    constructor
    · rintro ⟨rfl, rfl⟩
      exact ⟨[], rfl, rfl, by simp⟩
    · rintro ⟨rest, rfl, hget, -⟩
      cases rest with
      | nil => exact ⟨rfl, (Option.some.inj hget).symm⟩
      | cons => cases hget

theorem mem_visitsAll {es : List (Bytes × Node)} (h : (Node.dir es).WellFormed) {rel : List Bytes}
    {x : Node} : (rel, x) ∈ visitsAll es ↔ IsVisited (.dir es) rel x := by
  cases es with
  | nil =>
    simp only [visitsAll, List.not_mem_nil, false_iff]
    intro hvisited
    cases rel with
    | nil => exact not_isVisited_nil hvisited
    | cons name rest => cases hvisited.stands
  | cons e es =>
    obtain ⟨name, node⟩ := e
    obtain ⟨hnode, habsent⟩ := h.head
    rw [visitsAll, List.mem_append, mem_visits hnode, mem_visitsAll h.tail]
    cases rel with
    | nil => simp [not_isVisited_nil]
    | cons m rest =>
      rw [isVisited_cons, isVisited_cons, lookup_cons_eq_ite]
      by_cases hm : m = name
      · -- The name of the first entry does not come back.
        simp [hm, habsent]
      · simp [hm]

end

/-! ### Their order -/

mutual

theorem pairwise_visits {name : Bytes} {node : Node} (h : node.WellFormed) :
    ((visits name node).map (·.1)).Pairwise (· < ·) := by
  cases node with
  | dir es =>
    rw [visits, List.map_cons, List.pairwise_cons]
    constructor
    · intro rel hrel
      split at hrel
      · cases hrel
      · rw [List.map_map, List.mem_map] at hrel
        obtain ⟨v, hv, rfl⟩ := hrel
        have hne : v.1 ≠ [] := ((mem_visitsAll h).1 hv).below
        obtain ⟨m, rest, hm⟩ := List.exists_cons_of_ne_nil hne
        simp [hm]
    · split
      · exact .nil
      · rw [List.map_map]
        have hbelow := pairwise_visitsAll h
        rw [List.pairwise_map] at hbelow ⊢
        refine hbelow.imp fun hlt => ?_
        exact List.cons_lt_cons_iff.2 (.inr ⟨rfl, hlt⟩)
  | _ => simp [visits]

theorem pairwise_visitsAll {es : List (Bytes × Node)} (h : (Node.dir es).WellFormed) :
    ((visitsAll es).map (·.1)).Pairwise (· < ·) := by
  cases es with
  | nil => exact .nil
  | cons e es =>
    obtain ⟨name, node⟩ := e
    rw [visitsAll, List.map_append, List.pairwise_append]
    refine ⟨pairwise_visits h.head.1, pairwise_visitsAll h.tail, ?_⟩
    intro rel hrel rel' hrel'
    obtain ⟨⟨rel, x⟩, hfirst, rfl⟩ := List.mem_map.1 hrel
    obtain ⟨⟨rel', x'⟩, hlater, rfl⟩ := List.mem_map.1 hrel'
    obtain ⟨rest, rfl, -, -⟩ := (mem_visits h.head.1).1 hfirst
    have hvisited := (mem_visitsAll h.tail).1 hlater
    cases rel' with
    | nil => exact absurd hvisited not_isVisited_nil
    | cons m rest' =>
      obtain ⟨y, hy, -⟩ := Option.bind_eq_some_iff.1 (isVisited_cons.1 hvisited).1
      cases h with
      | dir ordered _ _ =>
        have hlt : name < m := (List.pairwise_cons.1 ordered).1 _ (mem_of_lookup hy)
        exact List.cons_lt_cons_iff.2 (.inl hlt)

end

/-! ### The sources among them -/

/-- An entry that is found: no directory, and with the name of a source. -/
def isFound (v : List Bytes × Node) : Bool := !v.2.isDir && v.1.getLast?.any Path.isSourceFile

/-- Where the entries that are found stand. -/
def sources (vs : List (List Bytes × Node)) : List (List Bytes) := (vs.filter isFound).map (·.1)

theorem sources_append (vs ws : List (List Bytes × Node)) :
    sources (vs ++ ws) = sources vs ++ sources ws := by
  rw [sources, List.filter_append, List.map_append, sources, sources]

theorem mem_sources_visitsAll {es : List (Bytes × Node)} (h : (Node.dir es).WellFormed)
    {rel : List Bytes} : rel ∈ sources (visitsAll es) ↔ IsSource (.dir es) rel := by
  simp only [sources, List.mem_map, List.mem_filter, isFound, Bool.and_eq_true, Bool.not_eq_true',
    Option.any_eq_true, Path.isSourceFile_iff]
  constructor
  · rintro ⟨⟨rel, x⟩, ⟨hvisit, hdir, hnamed⟩, rfl⟩
    have hvisited := (mem_visitsAll h).1 hvisit
    refine ⟨⟨x, hvisited.stands, hdir⟩, hnamed, fun name hname => ?_⟩
    exact Path.isSkippedDirectory_eq_false_iff.1 (hvisited.passed name hname)
  · rintro ⟨⟨x, hstands, hdir⟩, hnamed, hpassed⟩
    have hbelow : rel ≠ [] := by
      rintro rfl
      obtain ⟨name, hname, -⟩ := hnamed
      cases hname
    have hvisited : IsVisited (.dir es) rel x :=
      ⟨hbelow, hstands, fun s hs => Path.isSkippedDirectory_eq_false_iff.2 (hpassed s hs)⟩
    exact ⟨(rel, x), ⟨(mem_visitsAll h).2 hvisited, hdir, hnamed⟩, rfl⟩

theorem pairwise_sources_visitsAll {es : List (Bytes × Node)} (h : (Node.dir es).WellFormed) :
    (sources (visitsAll es)).Pairwise (· < ·) :=
  (pairwise_visitsAll h).sublist (List.filter_sublist.map _)

theorem mem_visits_self (name : Bytes) (node : Node) : ([name], node) ∈ visits name node := by
  cases node <;> simp [visits]

theorem WellFormed.get? {n x : Node} (h : n.WellFormed) {names : List Bytes}
    (hget : n.get? names = some x) : x.WellFormed ∧ ∀ s ∈ names, isEntryName s = true := by
  induction names generalizing n with
  | nil =>
    obtain rfl := Option.some.inj hget
    exact ⟨h, by simp⟩
  | cons name names ih =>
    cases hc : n.child? name with
    | none => simp [Node.get?, hc] at hget
    | some c =>
      have hrest : c.get? names = some x := by simpa [Node.get?, hc] using hget
      obtain ⟨hx, hnames⟩ := ih (h.child? hc) hrest
      refine ⟨hx, List.forall_mem_cons.2 ⟨?_, hnames⟩⟩
      cases h with
      | file => cases hc
      | link => cases hc
      | dir _ named _ => exact named _ (mem_of_lookup hc)

end Node

/-! ### What is found on the way -/

namespace FileSystem

/-- A search along the entries `vs` below `path`: it finds their sources, in order, and all of them
unless it ends with a fault, which it does not if every entry can be looked at. -/
structure Finds (fs : FileSystem) (path : Bytes) (vs : List (List Bytes × Node)) (s : Search) :
    Prop where
  among : s.found <+: (Node.sources vs).map (Path.under path)
  all : s.fault = none → s.found = (Node.sources vs).map (Path.under path)
  clear : (∀ v ∈ vs, ∃ x, fs.find .itself (Path.under path v.1) = .ok x) → s.fault = none
  short : ∀ f ∈ s.found, f.length < maxPathLength

theorem Finds.nil (fs : FileSystem) (path : Bytes) : fs.Finds path [] {} :=
  ⟨List.prefix_rfl, fun _ => rfl, fun _ => rfl, by simp⟩

theorem Finds.of_fault {fs : FileSystem} {path : Bytes} {vs : List (List Bytes × Node)}
    {v : List Bytes × Node} (hv : v ∈ vs)
    (h : ∀ x, fs.find .itself (Path.under path v.1) ≠ .ok x) (fault : Fault) :
    fs.Finds path vs { fault := some fault } := by
  refine ⟨List.nil_prefix, nofun, fun hclear => ?_, by simp⟩
  obtain ⟨x, hx⟩ := hclear v hv
  exact absurd hx (h x)

theorem Finds.andThen {fs : FileSystem} {path : Bytes} {vs ws : List (List Bytes × Node)}
    {s t : Search} (hs : fs.Finds path vs s) (ht : fs.Finds path ws t) :
    fs.Finds path (vs ++ ws) (s.andThen t) := by
  unfold Search.andThen
  cases hfault : s.fault with
  | some fault =>
    -- The second part is not come to, so what was found is only a beginning.
    refine ⟨?_, by simp [hfault], fun hclear => ?_, hs.short⟩
    · rw [Node.sources_append, List.map_append]
      exact hs.among.trans (List.prefix_append _ _)
    · exact hs.clear fun v hv => hclear v (List.mem_append_left _ hv)
  | none =>
    rw [hs.all hfault]
    refine ⟨?_, fun htend => ?_, fun hclear => ?_, fun f hf => ?_⟩
    · rw [Node.sources_append, List.map_append]
      exact (List.prefix_append_right_inj _).2 ht.among
    · rw [Node.sources_append, List.map_append, ht.all htend]
    · exact ht.clear fun v hv => hclear v (List.mem_append_right _ hv)
    · rcases List.mem_append.1 hf with hf | hf
      · rw [← hs.all hfault] at hf
        exact hs.short f hf
      · exact ht.short f hf

theorem Finds.cons_dir {fs : FileSystem} {path : Bytes} {vs : List (List Bytes × Node)} {s : Search}
    (h : fs.Finds path vs s) (rel : List Bytes) (es : List (Bytes × Node)) :
    fs.Finds path ((rel, .dir es) :: vs) s := by
  have hsources : Node.sources ((rel, .dir es) :: vs) = Node.sources vs := by
    simp [Node.sources, Node.isFound, Node.isDir]
  refine ⟨?_, ?_, fun hclear => h.clear fun v hv => hclear v (List.mem_cons_of_mem _ hv), h.short⟩
  · rw [hsources]
    exact h.among
  · rw [hsources]
    exact h.all

/-- What is found along entries below a directory is found along these entries below the directory
above it. -/
theorem Finds.up {fs : FileSystem} {path name : Bytes} {es : List (Bytes × Node)} {s : Search}
    (hpath : path ≠ []) (hname : isEntryName name = true) (hes : (Node.dir es).WellFormed)
    (h : fs.Finds (Path.under path [name]) (Node.visitsAll es) s) :
    fs.Finds path ((Node.visitsAll es).map fun v => (name :: v.1, v.2)) s := by
  have hunder : ∀ v ∈ Node.visitsAll es,
      Path.under (Path.under path [name]) v.1 = Path.under path (name :: v.1) := by
    intro v hv
    have hrel := (hes.get? ((Node.mem_visitsAll hes).1 hv).stands).2
    exact Path.under_under hpath (by simpa using hname) hrel
  have hsources : (Node.sources ((Node.visitsAll es).map fun v => (name :: v.1, v.2))).map
      (Path.under path) =
      (Node.sources (Node.visitsAll es)).map (Path.under (Path.under path [name])) := by
    have hfound : ∀ v ∈ Node.visitsAll es,
        (Node.isFound ∘ fun v => (name :: v.1, v.2)) v = Node.isFound v := by
      intro v hv
      have hne : v.1 ≠ [] := ((Node.mem_visitsAll hes).1 hv).below
      simp [Node.isFound, List.getLast?_cons_of_ne_nil hne]
    rw [Node.sources, List.filter_map, List.filter_congr hfound, Node.sources, List.map_map,
      List.map_map, List.map_map]
    refine List.map_congr_left fun v hv => ?_
    exact (hunder v (List.mem_filter.1 hv).1).symm
  refine ⟨?_, ?_, fun hclear => h.clear fun v hv => ?_, h.short⟩
  · rw [hsources]
    exact h.among
  · rw [hsources]
    exact h.all
  · rw [hunder v hv]
    exact hclear (name :: v.1, v.2) (List.mem_map.2 ⟨v, hv, rfl⟩)

theorem Finds.single {fs : FileSystem} {path name : Bytes} {node : Node} (hpath : path ≠ [])
    (hname : isEntryName name = true) (hdir : node.isDir = false)
    (hshort : (Path.under path [name]).length < maxPathLength) :
    fs.Finds path [([name], node)] (Search.single (Path.under path [name])) := by
  have hsources : Node.sources [([name], node)] =
      if Path.isSourceFile name then [[name]] else [] := by
    cases hsource : Path.isSourceFile name <;> simp [Node.sources, Node.isFound, hdir, hsource]
  rw [Search.single, Path.base_under_singleton hpath hname]
  split
  · rename_i hsource
    rw [if_pos hsource] at hsources
    refine ⟨?_, fun _ => ?_, fun _ => rfl, by simpa using hshort⟩
    · rw [hsources]
      exact List.prefix_rfl
    · rw [hsources]
      rfl
  · rename_i hsource
    rw [if_neg hsource] at hsources
    refine ⟨List.nil_prefix, fun _ => ?_, fun _ => rfl, by simp⟩
    rw [hsources]
    rfl

theorem exists_node?_of_find {fs : FileSystem} {purpose : Purpose} {path : Bytes} {x : Node}
    (h : fs.find purpose path = .ok x) :
    ∃ p, fs.locate purpose path = .ok p ∧ fs.node? p = some x := by
  unfold find at h
  cases hlocate : fs.locate purpose path with
  | error c => simp [hlocate, bind, Except.bind] at h
  | ok p =>
    refine ⟨p, rfl, ?_⟩
    cases hnode : fs.node? p with
    | none => simp [hlocate, hnode, bind, Except.bind, throw, throwThe, MonadExceptOf.throw] at h
    | some n => simpa [hlocate, hnode, bind, Except.bind, pure, Except.pure] using h

theorem exists_dir_of_isDirectory {fs : FileSystem} {path : Bytes}
    (h : fs.isDirectory path = .ok true) :
    ∃ p es, fs.locate .destination path = .ok p ∧ fs.node? p = some (.dir es) := by
  unfold isDirectory at h
  split at h
  · rename_i x hfind
    obtain ⟨p, hlocate, hnode⟩ := exists_node?_of_find hfind
    cases x with
    | dir es => exact ⟨p, es, hlocate, hnode⟩
    | file => cases h
    | link => cases h
  · cases h

theorem find_ne_ok_of_long {fs : FileSystem} {purpose : Purpose} {path : Bytes}
    (h : maxPathLength ≤ path.length) (x : Node) : fs.find purpose path ≠ .ok x := by
  intro hfind
  obtain ⟨p, hlocate, -⟩ := exists_node?_of_find hfind
  have hshort := (locate_eq_ok_iff.1 hlocate).2.2.1
  omega

/-- A path at or below that of the root of a search. -/
structure IsWithin (root path : Bytes) : Prop where
  nonempty : path ≠ []
  apart : ∀ rel ≠ [], (∀ s ∈ rel, isEntryName s = true) → Path.under path rel ≠ root

theorem isWithin_self {root : Bytes} (h : root ≠ []) : IsWithin root root :=
  ⟨h, fun _ => Path.under_ne_self h⟩

theorem IsWithin.down {root path name : Bytes} (h : IsWithin root path)
    (hname : isEntryName name = true) : IsWithin root (Path.under path [name]) := by
  have hsingle : ∀ s ∈ [name], isEntryName s = true := by simpa using hname
  refine ⟨Path.under_ne_nil h.nonempty hsingle, fun rel _ hrel => ?_⟩
  rw [Path.under_under h.nonempty hsingle hrel]
  exact h.apart _ (by simp) (List.forall_mem_cons.2 ⟨hname, hrel⟩)

/-- Below the root of a search no directory is taken for the root, so it is passed over by its name
alone. -/
theorem passesOver_under {root path name : Bytes} (h : IsWithin root path)
    (hname : isEntryName name = true) :
    Search.passesOver root (Path.under path [name]) = Path.isSkippedDirectory name := by
  have hne : Path.under path [name] ≠ root := h.apart [name] (by simp) (by simpa using hname)
  rw [Search.passesOver, bne_iff_ne.2 hne, Bool.true_and,
    Path.base_under_singleton h.nonempty hname]

mutual

theorem finds_below (fs : FileSystem) {root path name : Bytes} {node : Node}
    (hpath : IsWithin root path) (hname : isEntryName name = true) (hnode : node.WellFormed)
    (hshort : (Path.under path [name]).length < maxPathLength) :
    fs.Finds path (Node.visits name node) (Search.below root (Path.under path [name]) node) := by
  cases node with
  | dir es =>
    rw [Node.visits, Search.below, passesOver_under hpath hname]
    apply Finds.cons_dir
    split
    · exact Finds.nil fs path
    · exact Finds.up hpath.nonempty hname hnode (finds_belowAll fs (hpath.down hname) hnode)
  | _ => exact Finds.single hpath.nonempty hname rfl hshort

theorem finds_belowAll (fs : FileSystem) {root path : Bytes} {es : List (Bytes × Node)}
    (hpath : IsWithin root path) (hes : (Node.dir es).WellFormed) :
    fs.Finds path (Node.visitsAll es) (Search.belowAll root path es) := by
  cases es with
  | nil => exact Finds.nil fs path
  | cons e es =>
    obtain ⟨name, node⟩ := e
    have hname : isEntryName name = true := by
      cases hes with
      | dir _ named _ => exact named _ List.mem_cons_self
    rw [Node.visitsAll, Search.belowAll, ← Path.under_singleton]
    refine Finds.andThen ?_ (finds_belowAll fs hpath hes.tail)
    by_cases hlong : maxPathLength ≤ (Path.under path [name]).length
    · rw [if_pos hlong]
      exact Finds.of_fault (Node.mem_visits_self name node) (find_ne_ok_of_long hlong) _
    · rw [if_neg hlong]
      exact finds_below fs hpath hname hes.head.1 (Nat.lt_of_not_le hlong)

end

/-! ### Searching a directory -/

theorem wellFormed_of_node? {fs : FileSystem} {p : Place} {es : List (Bytes × Node)}
    (hstands : p.removed = 0) (hdir : fs.node? p = some (.dir es)) :
    (Node.dir es).WellFormed ∧ ∀ s ∈ p.names, isEntryName s = true := by
  rw [node?_of_stands hstands] at hdir
  exact fs.wellFormed.get? hdir

/-- An entry that is looked at below the path of a directory is the entry of that directory. -/
theorem eq_of_find_under {fs : FileSystem} {path : Bytes} {p : Place} {es : List (Bytes × Node)}
    (hpath : path ≠ []) (hclean : fs.locate .destination (Path.clean path) = .ok p)
    (hstands : p.removed = 0) (hdir : fs.node? p = some (.dir es)) {name : Bytes} {node x : Node}
    (hvisit : ([name], node) ∈ Node.visitsAll es)
    (hfind : fs.find .itself (Path.under path [name]) = .ok x) : x = node := by
  obtain ⟨left, hunder⟩ := exists_locate_under hpath hclean
  have hes := (wellFormed_of_node? hstands hdir).1
  have hget := ((Node.mem_visitsAll hes).1 hvisit).stands
  have hname := (hes.get? hget).2
  obtain ⟨r, hlocate, hx⟩ := exists_node?_of_find hfind
  obtain ⟨hzero, -, hshort, -⟩ := locate_eq_ok_iff.1 hlocate
  rw [hunder .itself (by simp) [name] (by simp) hname hzero hshort] at hlocate
  have hnode : fs.node? r = some node := by
    rw [follow_down (by simp) hstands hdir hname hget (.inl rfl) hlocate, node?_of_stands rfl,
      Node.get?_append, ← node?_of_stands hstands, hdir]
    exact hget
  exact Option.some.inj (hx.symm.trans hnode)

theorem finds_searchEntries {fs : FileSystem} {path : Bytes} (hpath : path ≠ [])
    {es : List (Bytes × Node)} (hes : (Node.dir es).WellFormed)
    (h : ∀ name node x, ([name], node) ∈ Node.visitsAll es →
      fs.find .itself (Path.under path [name]) = .ok x → x = node) :
    fs.Finds path (Node.visitsAll es) (fs.searchEntries path (es.map (·.1))) := by
  induction es with
  | nil => exact Finds.nil fs path
  | cons e es ih =>
    obtain ⟨name, node⟩ := e
    have hname : isEntryName name = true := by
      cases hes with
      | dir _ named _ => exact named _ List.mem_cons_self
    have hself := Node.mem_visits_self name node
    rw [Node.visitsAll] at h ⊢
    rw [List.map_cons, searchEntries, ← Path.under_singleton]
    cases hfind : fs.find .itself (Path.under path [name]) with
    | error c =>
      refine Finds.of_fault (List.mem_append_left _ hself) (fun x hx => ?_) _
      rw [hfind] at hx
      cases hx
    | ok x =>
      obtain rfl := h name node x (List.mem_append_left _ hself) hfind
      have hshort : (Path.under path [name]).length < maxPathLength :=
        Nat.lt_of_not_le fun hlong => find_ne_ok_of_long hlong x hfind
      refine Finds.andThen (finds_below fs (isWithin_self hpath) hname hes.head.1 hshort) ?_
      exact ih hes.tail fun n y z hvisit => h n y z (List.mem_append_right _ hvisit)

/-- A search in a directory that stands in the tree goes along the entries below it. -/
theorem finds_findSources {fs : FileSystem} {path : Bytes} {p : Place} {es : List (Bytes × Node)}
    (hroot : fs.locate .itself path = .ok p) (hdir : fs.node? p = some (.dir es))
    (hclean : fs.CleansTo path p) (hstands : p.removed = 0) :
    fs.Finds path (Node.visitsAll es) (fs.findSources path) := by
  have hpath : path ≠ [] := (locate_eq_ok_iff.1 hroot).2.1
  have hlead := locate_clean hroot (by simp [isDirAt, hdir, Node.isDir]) hclean
  have hes := (wellFormed_of_node? hstands hdir).1
  have hsearch : fs.findSources path = fs.searchEntries path (es.map (·.1)) := by
    simp [findSources, hroot, hdir, hstands, Search.passesOver]
  rw [hsearch]
  exact finds_searchEntries hpath hes fun name node x =>
    eq_of_find_under hpath hlead hstands hdir

/-- The directory `p`, with the entries `es`, and what is below it can be listed from `path`: it
stands in the tree, and every entry that a search comes to can be looked at. -/
structure CanList (fs : FileSystem) (path : Bytes) (p : Place) (es : List (Bytes × Node)) :
    Prop where
  stands : p.removed = 0
  seen : ∀ rel x, Node.IsVisited (.dir es) rel x →
    ∃ y, fs.find .itself (Path.under path rel) = .ok y

/-- Whether a directory can be listed is told by looking at the entries one after the other. -/
theorem canList_of_all {fs : FileSystem} {path : Bytes} {p : Place} {es : List (Bytes × Node)}
    (hstands : p.removed = 0) (hdir : fs.node? p = some (.dir es))
    (h : (Node.visitsAll es).all (fun v => (fs.find .itself (Path.under path v.1)).isOk) = true) :
    fs.CanList path p es := by
  refine ⟨hstands, fun rel x hvisited => ?_⟩
  have hvisit := (Node.mem_visitsAll (wellFormed_of_node? hstands hdir).1).2 hvisited
  have hok := List.all_eq_true.1 h (rel, x) hvisit
  cases hfind : fs.find .itself (Path.under path rel) with
  | error c => simp [hfind, Except.isOk, Except.toBool] at hok
  | ok y => exact ⟨y, rfl⟩

/-- A search in a directory finds exactly the sources below it, each once and in the order of their
names, if the path still leads to the directory once it is cleaned. -/
theorem findSources_exact {fs : FileSystem} {path : Bytes} {p : Place} {es : List (Bytes × Node)}
    (hroot : fs.locate .itself path = .ok p) (hdir : fs.node? p = some (.dir es))
    (hlist : fs.CanList path p es) (hclean : fs.CleansTo path p) :
    (fs.findSources path).fault = none ∧
      (fs.findSources path).found.Nodup ∧
      ∃ rels : List (List Bytes), (fs.findSources path).found = rels.map (Path.under path) ∧
        rels.Pairwise (· < ·) ∧ ∀ rel, rel ∈ rels ↔ Node.IsSource (.dir es) rel := by
  have hpath : path ≠ [] := (locate_eq_ok_iff.1 hroot).2.1
  have hes := (wellFormed_of_node? hlist.stands hdir).1
  have hfinds := finds_findSources hroot hdir hclean hlist.stands
  have hfault : (fs.findSources path).fault = none := by
    apply hfinds.clear
    intro v hv
    exact hlist.seen v.1 v.2 ((Node.mem_visitsAll hes).1 hv)
  have hordered := Node.pairwise_sources_visitsAll hes
  refine ⟨hfault, ?_, Node.sources (Node.visitsAll es), hfinds.all hfault, hordered,
    fun rel => Node.mem_sources_visitsAll hes⟩
  rw [hfinds.all hfault, List.Nodup, List.pairwise_map]
  refine hordered.imp_of_mem fun {rel rel'} hrel hrel' hlt heq => ?_
  obtain ⟨x, hx, -⟩ := ((Node.mem_sources_visitsAll hes).1 hrel).stands
  obtain ⟨x', hx', -⟩ := ((Node.mem_sources_visitsAll hes).1 hrel').stands
  obtain rfl := Path.under_inj hpath (hes.get? hx).2 (hes.get? hx').2 heq
  exact List.lt_irrefl rel hlt

/-- A hidden directory: in it a source in a directory and one beside that directory, a link that
leads nowhere, a declaration file, and a source in another hidden directory. -/
def hiddenSources : FileSystem :=
  (((((({} : FileSystem).put [bytes ".w", bytes "a", bytes "b.ts"] (.file []) (.file _)).put
    [bytes ".w", bytes "a.ts"] (.file []) (.file _)).put
    [bytes ".w", bytes "l.js"] (.link (bytes "gone")) (.link _)).put
    [bytes ".w", bytes "t.d.ts"] (.file []) (.file _)).put
    [bytes ".w", bytes ".git", bytes "x.ts"] (.file []) (.file _))

def hiddenEntries : List (Bytes × Node) :=
  [(bytes ".git", .dir [(bytes "x.ts", .file [])]), (bytes "a", .dir [(bytes "b.ts", .file [])]),
    (bytes "a.ts", .file []), (bytes "l.js", .link (bytes "gone")), (bytes "t.d.ts", .file [])]

/-- What is in a directory comes before what stands beside it, and the hidden directory that is
searched is not passed over. -/
theorem findSources_exact_hiddenSources :
    let fs := hiddenSources
    let path := bytes "./.w//"
    let p : Place := ⟨[bytes ".w"], 0⟩
    (fs.locate .itself path = .ok p ∧ fs.node? p = some (.dir hiddenEntries) ∧
      fs.CanList path p hiddenEntries ∧ fs.CleansTo path p) ∧
    (fs.findSources path).found = [bytes ".w/a/b.ts", bytes ".w/a.ts", bytes ".w/l.js"] ∧
      (fs.findSources path).fault = none ∧
      (fs.findSources path).found.Nodup ∧
      ∃ rels : List (List Bytes), (fs.findSources path).found = rels.map (Path.under path) ∧
        rels.Pairwise (· < ·) ∧ ∀ rel, rel ∈ rels ↔ Node.IsSource (.dir hiddenEntries) rel := by
  have hfound : (hiddenSources.findSources (bytes "./.w//")).found =
      [bytes ".w/a/b.ts", bytes ".w/a.ts", bytes ".w/l.js"] := by cbv
  have hroot : hiddenSources.locate .itself (bytes "./.w//") = .ok ⟨[bytes ".w"], 0⟩ := by cbv
  have hdir : hiddenSources.node? ⟨[bytes ".w"], 0⟩ = some (.dir hiddenEntries) := by cbv
  have hlist : hiddenSources.CanList (bytes "./.w//") ⟨[bytes ".w"], 0⟩ hiddenEntries :=
    canList_of_all rfl hdir (by cbv)
  have hclean : hiddenSources.CleansTo (bytes "./.w//") ⟨[bytes ".w"], 0⟩ := .inl (by cbv)
  intro fs path p
  exact ⟨⟨hroot, hdir, hlist, hclean⟩, hfound, findSources_exact hroot hdir hlist hclean⟩

/-- A link to a directory below another one, and a directory with the same name beside the link. -/
def linkedElsewhere : FileSystem :=
  ((({} : FileSystem).put [bytes "real", bytes "sub"] (.dir []) Node.wellFormed_empty).put
    [bytes "sub", bytes "z.ts"] (.file (bytes "export \x7b\x7d")) (.file _)).put
    [bytes "link"] (.link (bytes "real/sub")) (.link _)

/-- The path `link/..` leads to a directory that can be listed and has no source below it, but once
it is cleaned it leads elsewhere, and the source that is there is found. -/
theorem findSources_linkedElsewhere :
    let fs := linkedElsewhere
    let path := bytes "link/.."
    let p : Place := ⟨[bytes "real"], 0⟩
    let es := [(bytes "sub", Node.dir [])]
    fs.locate .itself path = .ok p ∧ fs.node? p = some (.dir es) ∧ fs.CanList path p es ∧
      (∀ rel, ¬ Node.IsSource (.dir es) rel) ∧
      fs.findSources path = { found := [bytes "sub/z.ts"], fault := none } := by
  have hroot : linkedElsewhere.locate .itself (bytes "link/..") = .ok ⟨[bytes "real"], 0⟩ := by cbv
  have hdir : linkedElsewhere.node? ⟨[bytes "real"], 0⟩ = some (.dir [(bytes "sub", .dir [])]) := by
    cbv
  have hlist : linkedElsewhere.CanList (bytes "link/..") ⟨[bytes "real"], 0⟩
      [(bytes "sub", .dir [])] := canList_of_all rfl hdir (by cbv)
  have hfound : linkedElsewhere.findSources (bytes "link/..") =
      { found := [bytes "sub/z.ts"], fault := none } := by cbv
  intro fs path p es
  refine ⟨hroot, hdir, hlist, fun rel hsource => ?_, hfound⟩
  have hes : (Node.dir es).WellFormed := .dir (by simp [es]) (by decide) fun e he => by
    rw [List.mem_singleton.1 he]
    exact Node.wellFormed_empty
  have hmem := (Node.mem_sources_visitsAll hes).2 hsource
  cases hmem

end FileSystem

end HelperImports
