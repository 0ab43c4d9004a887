import Mathlib
import HelperImports.Proofs.Runs
import HelperImports.Proofs.Sources

/-! The files that an argument reaches, told by where they stand. An argument that leads to a file
reaches it, and one that leads to a directory reaches the sources below the directory. A search does
not keep to this: it goes on from the argument once it is cleaned, and where that leads elsewhere,
it finds the sources that are there. -/

namespace HelperImports

theorem Search.mem_andThen {a b : Search} {path : Bytes} (h : path ∈ (a.andThen b).found) :
    path ∈ a.found ∨ path ∈ b.found := by
  unfold andThen at h
  split at h
  · exact .inl h
  · exact List.mem_append.1 h

namespace FileSystem

/-- A file that is found below the directory at `p`: it stands there as a source, or a link stands
there as a source and leads to it. -/
inductive FoundBelow (fs : FileSystem) (p : Place) : List Bytes → Prop
  | file {es : List (Bytes × Node)} {rel : List Bytes} {content : Bytes}
      (directory : fs.node? p = some (.dir es)) (source : Node.IsSource (.dir es) rel)
      (stands : (Node.dir es).get? rel = some (.file content)) : FoundBelow fs p (p.names ++ rel)
  | link {es : List (Bytes × Node)} {rel names : List Bytes} {target : Bytes} {n m : Nat}
      (directory : fs.node? p = some (.dir es)) (source : Node.IsSource (.dir es) rel)
      (stands : (Node.dir es).get? rel = some (.link target))
      (way : Way fs n rel p m ⟨names, 0⟩) : FoundBelow fs p names

/-- The file with these names is named by the argument, or found below the directory that the
argument leads to. -/
inductive Reaches (fs : FileSystem) (arg : Bytes) (names : List Bytes) : Prop
  | named (leads : fs.fileNames? arg = some names)
  | below {p : Place} (leads : fs.locate .destination arg = .ok p) (found : fs.FoundBelow p names)

/-- The argument leads to a directory, and to another place `q` once it is cleaned. -/
structure Strays (fs : FileSystem) (arg : Bytes) (q : Place) : Prop where
  directory : ∃ p, fs.locate .destination arg = .ok p ∧ fs.isDirAt p = true ∧ p ≠ q
  cleaned : fs.locate .destination (Path.clean arg) = .ok q

theorem not_strays_of_clean_eq {fs : FileSystem} {arg : Bytes} {q : Place}
    (h : Path.clean arg = arg) : ¬ fs.Strays arg q := by
  rintro ⟨⟨p, hlead, -, hother⟩, hclean⟩
  rw [h] at hclean
  exact hother (Except.ok.inj (hlead.symm.trans hclean))

/-! ### Where a search comes to -/

theorem locate_of_fileNames? {fs : FileSystem} {path : Bytes} {names : List Bytes}
    (h : fs.fileNames? path = some names) : fs.locate .destination path = .ok ⟨names, 0⟩ := by
  unfold fileNames? at h
  split at h
  · cases h
  · rename_i p hlocate
    split at h
    · rename_i c hnode
      have hstands : p.removed = 0 := by
        by_contra hremoved
        rw [node?, if_neg hremoved] at hnode
        cases hnode
      rw [hlocate, ← Option.some.inj h, ← hstands]
    · cases h

theorem wellFormed_of_find {fs : FileSystem} {purpose : Purpose} {path : Bytes} {x : Node}
    (h : fs.find purpose path = .ok x) : x.WellFormed := by
  obtain ⟨p, -, hnode⟩ := exists_node?_of_find h
  by_cases hstands : p.removed = 0
  · rw [node?_of_stands hstands] at hnode
    exact (fs.wellFormed.get? hnode).1
  · rw [node?, if_neg hstands] at hnode
    obtain rfl := Option.some.inj hnode
    exact Node.wellFormed_empty

theorem exists_of_mem_searchEntries {fs : FileSystem} {root path : Bytes} {names : List Bytes}
    (h : path ∈ (fs.searchEntries root names).found) :
    ∃ name ∈ names, ∃ node, fs.find .itself (Path.under root [name]) = .ok node ∧
      path ∈ (Search.below root (Path.under root [name]) node).found := by
  induction names with
  | nil => cases h
  | cons name names ih =>
    rw [searchEntries, ← Path.under_singleton] at h
    cases hfind : fs.find .itself (Path.under root [name]) with
    | error c =>
      simp only [hfind] at h
      cases h
    | ok node =>
      simp only [hfind] at h
      rcases Search.mem_andThen h with h | h
      · exact ⟨name, List.mem_cons_self, node, hfind, h⟩
      · obtain ⟨other, hother, hfound⟩ := ih h
        exact ⟨other, List.mem_cons_of_mem name hother, hfound⟩

/-- A way that begins with the name of an entry begins in a directory that has the entry. -/
theorem Way.exists_entry {fs : FileSystem} {n m : Nat} {name : Bytes} {rest : List Bytes}
    {p q : Place} (h : Way fs n (name :: rest) p m q) (hname : isEntryName name = true) :
    p.removed = 0 ∧ ∃ es x, fs.node? p = some (.dir es) ∧ es.lookup name = some x := by
  have hproper := isProper_of_isEntryName hname
  have hfirst : fs.isDirAt p = true ∧ p.removed = 0 ∧ ∃ x, fs.node? (p.down name) = some x := by
    cases h with
    | stay _ still _ => exact absurd still (not_or.2 ⟨hproper.nonempty, hproper.notDot⟩)
    | up _ _ => exact absurd rfl hproper.notDotDot
    | link directory _ stands _ found _ => exact ⟨directory, stands, _, found⟩
    | down directory _ stands _ found _ _ => exact ⟨directory, stands, _, found⟩
  obtain ⟨hdir, hstands, x, hx⟩ := hfirst
  refine ⟨hstands, ?_⟩
  rw [isDirAt] at hdir
  cases hnode : fs.node? p with
  | none => simp [hnode] at hdir
  | some node =>
    rw [node?_down hstands hnode] at hx
    cases node with
    | dir es => exact ⟨es, x, rfl, hx⟩
    | file => cases hx
    | link => cases hx

/-- What a search finds at or below an entry leads to a file below the directory that the root of
the search leads to once it is cleaned. -/
theorem exists_foundBelow_of_entry {fs : FileSystem} {root name path : Bytes} {node : Node}
    {names : List Bytes} (hroot : root ≠ []) (hname : isEntryName name = true)
    (hfind : fs.find .itself (Path.under root [name]) = .ok node)
    (hpath : path ∈ (Search.below root (Path.under root [name]) node).found)
    (hnames : fs.fileNames? path = some names) :
    ∃ q, fs.locate .destination (Path.clean root) = .ok q ∧ fs.FoundBelow q names := by
  have hshort : (Path.under root [name]).length < maxPathLength :=
    Nat.lt_of_not_le fun hlong => find_ne_ok_of_long hlong node hfind
  have hnode := wellFormed_of_find hfind
  have hfinds := finds_below fs (isWithin_self hroot) hname hnode hshort
  obtain ⟨rel, hrel, rfl⟩ := List.mem_map.1 (hfinds.among.subset hpath)
  obtain ⟨⟨rel, x⟩, hlisted, rfl⟩ := List.mem_map.1 hrel
  obtain ⟨hvisit, hfound⟩ := List.mem_filter.1 hlisted
  obtain ⟨rest, rfl, hget, hpassed⟩ := (Node.mem_visits hnode).1 hvisit
  have hentries : ∀ s ∈ name :: rest, isEntryName s = true :=
    List.forall_mem_cons.2 ⟨hname, (hnode.get? hget).2⟩
  obtain ⟨q, n, m, hclean, hway⟩ :=
    exists_way_under hroot (by simp) hentries (locate_of_fileNames? hnames)
  refine ⟨q, hclean, ?_⟩
  obtain ⟨hstands, es, y, hdir, hlookup⟩ := hway.exists_entry hname
  have hes := (wellFormed_of_node? hstands hdir).1
  -- The entry that was looked at is the one of the directory that the cleaned root leads to.
  have hself : Node.IsVisited (.dir es) [name] y :=
    Node.isVisited_cons.2 ⟨by rw [hlookup]; rfl, by simp⟩
  obtain rfl := eq_of_find_under hroot hclean hstands hdir ((Node.mem_visitsAll hes).2 hself) hfind
  have hvisited : Node.IsVisited (.dir es) (name :: rest) x :=
    Node.isVisited_cons.2 ⟨by rw [hlookup]; exact hget, hpassed⟩
  have hsource : Node.IsSource (.dir es) (name :: rest) := by
    refine (Node.mem_sources_visitsAll hes).1 (List.mem_map.2 ⟨(name :: rest, x), ?_, rfl⟩)
    exact List.mem_filter.2 ⟨(Node.mem_visitsAll hes).2 hvisited, hfound⟩
  cases x with
  | dir => simp [Node.isFound, Node.isDir] at hfound
  | link target => exact .link hdir hsource hvisited.stands hway
  | file content =>
    obtain ⟨-, hend⟩ := hway.eq_of_get? hstands hdir hentries hvisited.stands (by simp)
    obtain rfl : names = q.names ++ name :: rest := congrArg Place.names hend
    exact .file hdir hsource hvisited.stands

/-- A file behind a path that is found for a directory stands below the directory that the cleaned
path of the directory leads to. -/
theorem exists_foundBelow {fs : FileSystem} {arg path : Bytes} {names : List Bytes}
    (hdirectory : fs.isDirectory arg = .ok true) (hpath : path ∈ (fs.findSources arg).found)
    (hnames : fs.fileNames? path = some names) :
    ∃ q, fs.locate .destination (Path.clean arg) = .ok q ∧ fs.FoundBelow q names := by
  unfold findSources at hpath
  split at hpath
  · cases hpath
  · rename_i p hlocate
    split at hpath
    · rename_i es hnode
      split at hpath
      · cases hpath
      · split at hpath
        · cases hpath
        · rename_i hstands _
          obtain ⟨name, hname, node, hfind, hbelow⟩ := exists_of_mem_searchEntries hpath
          obtain ⟨e, he, rfl⟩ := List.mem_map.1 hname
          have hes := (wellFormed_of_node? (by simpa using hstands) hnode).1
          have hentry : isEntryName e.1 = true := by
            cases hes with
            | dir _ named _ => exact named e he
          exact exists_foundBelow_of_entry (locate_eq_ok_iff.1 hlocate).2.1 hentry hfind hbelow
            hnames
    · -- A link to a directory is found as it is, and leads to no file.
      unfold Search.single at hpath
      split at hpath
      · obtain rfl : path = arg := by simpa using hpath
        obtain ⟨r, es, hr, hdir⟩ := exists_dir_of_isDirectory hdirectory
        simp [fileNames?, hr, hdir] at hnames
      · cases hpath

/-! ### What arguments reach -/

theorem reaches_of_mem_expansion {fs : FileSystem} {arg path : Bytes} {paths names : List Bytes}
    (h : fs.expansion arg = .ok paths) (hpath : path ∈ paths)
    (hnames : fs.fileNames? path = some names) :
    fs.Reaches arg names ∨ ∃ q, fs.Strays arg q ∧ fs.FoundBelow q names := by
  unfold expansion at h
  split at h
  · rename_i hdirectory
    split at h
    · cases h
    · obtain rfl := Except.ok.inj h
      obtain ⟨q, hclean, hfound⟩ := exists_foundBelow hdirectory hpath hnames
      obtain ⟨p, es, hlead, hnode⟩ := exists_dir_of_isDirectory hdirectory
      have hdir : fs.isDirAt p = true := by simp [isDirAt, hnode, Node.isDir]
      by_cases hsame : p = q
      · subst hsame
        exact .inl (.below hlead hfound)
      · exact .inr ⟨q, ⟨⟨p, hlead, hdir, hsame⟩, hclean⟩, hfound⟩
  · obtain rfl := Except.ok.inj h
    obtain rfl : path = arg := by simpa using hpath
    exact .inl (.named hnames)

theorem exists_reaches_of_mem_reached {fs : FileSystem} {args names : List Bytes} {path : Bytes}
    (h : path ∈ (fs.reached args).1) (hnames : fs.fileNames? path = some names) :
    ∃ arg ∈ args, fs.Reaches arg names ∨ ∃ q, fs.Strays arg q ∧ fs.FoundBelow q names := by
  induction args with
  | nil => cases h
  | cons arg args ih =>
    rw [reached] at h
    split at h
    · cases h
    · rename_i paths hpaths
      rcases List.mem_append.1 h with h | h
      · exact ⟨arg, List.mem_cons_self, reaches_of_mem_expansion hpaths h hnames⟩
      · obtain ⟨a, ha, hreaches⟩ := ih h
        exact ⟨a, List.mem_cons_of_mem arg ha, hreaches⟩

end FileSystem

end HelperImports
