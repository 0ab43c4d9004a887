import HelperImports.FileSystem.Access
import HelperImports.Proofs.Outline

/-! Files by their paths. A path leads to a file at certain names, which depend on the outline of
the tree and on the working directory alone. Reading a path gives the content at its names, and
writing a path that leads to a file changes that content and nothing else. -/

namespace HelperImports.FileSystem

/-- The content of the file at the given names. -/
def content? (fs : FileSystem) (names : List Bytes) : Option Bytes := fs.tree.content? names

/-- The names of the file that a path leads to. Two paths with the same names lead to one file. -/
def fileNames? (fs : FileSystem) (path : Bytes) : Option (List Bytes) :=
  match fs.locate .destination path with
  | .error _ => none
  | .ok p =>
    match fs.node? p with
    | some (.file _) => some p.names
    | _ => none

/-- `fs'` has the same paths, directories and links as `fs`, and the same working directory: it
differs at most in what its files hold. -/
structure Alike (fs fs' : FileSystem) : Prop where
  outline : fs'.tree.outline = fs.tree.outline
  here : fs'.here = fs.here

theorem Alike.refl (fs : FileSystem) : Alike fs fs := ⟨rfl, rfl⟩

theorem Alike.trans {fs₁ fs₂ fs₃ : FileSystem} (h₁ : Alike fs₁ fs₂) (h₂ : Alike fs₂ fs₃) :
    Alike fs₁ fs₃ :=
  ⟨h₂.outline.trans h₁.outline, h₂.here.trans h₁.here⟩

/-! ### Following a path -/

section Congr

variable {fs fs' : FileSystem} (h : Alike fs fs')
include h

theorem Alike.map_node? (p : Place) :
    (fs'.node? p).map Node.outline = (fs.node? p).map Node.outline := by
  unfold node?
  split
  · rw [← Node.get?_outline, ← Node.get?_outline, h.outline]
  · rfl

theorem Alike.isDirAt_eq (p : Place) : fs'.isDirAt p = fs.isDirAt p := by
  have := congrArg (Option.any Node.isDir) (h.map_node? p)
  simpa [isDirAt, Option.any_map, Function.comp_def] using this

theorem Alike.node?_eq_none {p : Place} (hn : fs.node? p = none) : fs'.node? p = none := by
  have := h.map_node? p
  rw [hn] at this
  exact Option.map_eq_none_iff.1 this

theorem Alike.exists_node? {p : Place} {node : Node} (hn : fs.node? p = some node) :
    ∃ node', fs'.node? p = some node' ∧ node'.outline = node.outline := by
  have := h.map_node? p
  rw [hn] at this
  exact Option.map_eq_some_iff.1 this

/-- The way along a path is the same in file systems that are alike. The recursion is that of
`follow`: every test on the way looks at the working place, at a name, or at the kind of node that
stands under the name. -/
theorem Alike.follow_eq (purpose : Purpose) (links : Nat) (steps : List Bytes) (p : Place) :
    fs'.follow purpose links steps p = fs.follow purpose links steps p := by
  match steps with
  | [] => rw [follow, follow]
  | name :: rest =>
    rw [follow, follow, h.isDirAt_eq]
    refine ite_congr rfl (fun _ => rfl) fun _ => ?_
    refine ite_congr rfl (fun _ => Alike.follow_eq purpose links rest p) fun _ => ?_
    refine ite_congr rfl (fun _ => Alike.follow_eq purpose links rest p.up) fun _ => ?_
    refine ite_congr rfl (fun _ => rfl) fun _ => ?_
    refine ite_congr rfl (fun _ => rfl) fun _ => ?_
    refine ite_congr rfl (fun _ => rfl) fun _ => ?_
    cases hn : fs.node? (p.down name) with
    | none => rw [h.node?_eq_none hn]
    | some node =>
      obtain ⟨node', hn', houtline⟩ := h.exists_node? hn
      rw [hn']
      cases node with
      | file c =>
        cases node' with
        | file c' => exact Alike.follow_eq purpose links rest (p.down name)
        | _ => simp [Node.outline] at houtline
      | link target =>
        obtain rfl : node' = .link target := by cases node' <;> simp_all [Node.outline]
        refine ite_congr rfl (fun _ => rfl) fun _ => ?_
        cases links with
        | zero => rfl
        | succ links => exact Alike.follow_eq purpose links _ _
      | dir es =>
        cases node' with
        | dir es' => exact Alike.follow_eq purpose links rest (p.down name)
        | _ => simp [Node.outline] at houtline
termination_by (links, steps.length)

theorem Alike.locate_eq (purpose : Purpose) (path : Bytes) :
    fs'.locate purpose path = fs.locate purpose path := by
  unfold locate
  rw [h.here, h.follow_eq]

theorem Alike.find_cases (purpose : Purpose) (path : Bytes) :
    (∃ c, fs.find purpose path = .error c ∧ fs'.find purpose path = .error c) ∨
    ∃ n n', fs.find purpose path = .ok n ∧ fs'.find purpose path = .ok n' ∧
      n'.outline = n.outline := by
  unfold find
  rw [h.locate_eq]
  cases fs.locate purpose path with
  | error c => exact .inl ⟨c, rfl, rfl⟩
  | ok p =>
    cases hn : fs.node? p with
    | none =>
      refine .inl ⟨.notExist, ?_, ?_⟩
      · simp only [bind, Except.bind, hn]
        rfl
      · simp only [bind, Except.bind, h.node?_eq_none hn]
        rfl
    | some node =>
      obtain ⟨node', hn', houtline⟩ := h.exists_node? hn
      refine .inr ⟨node, node', ?_, ?_, houtline⟩
      · simp only [bind, Except.bind, hn]
        rfl
      · simp only [bind, Except.bind, hn']
        rfl

theorem Alike.workingDirectory_eq : fs'.workingDirectory = fs.workingDirectory := by
  unfold workingDirectory
  rw [h.here]

theorem Alike.isDirectory_eq (path : Bytes) : fs'.isDirectory path = fs.isDirectory path := by
  unfold isDirectory
  rcases h.find_cases .destination path with ⟨c, hf, hf'⟩ | ⟨n, n', hf, hf', houtline⟩
  · rw [hf, hf']
  · simp only [hf, hf']
    rw [← Node.isDir_outline n', houtline, Node.isDir_outline]

theorem Alike.searchEntries_eq (dir : Bytes) (names : List Bytes) :
    fs'.searchEntries dir names = fs.searchEntries dir names := by
  induction names with
  | nil => rfl
  | cons name names ih =>
    rw [searchEntries, searchEntries, ih]
    rcases h.find_cases .itself (Path.join [dir, name]) with
      ⟨c, hf, hf'⟩ | ⟨n, n', hf, hf', houtline⟩
    · simp only [hf, hf']
    · simp only [hf, hf']
      rw [← Search.below_outline _ _ n', houtline, Search.below_outline]

/-- A search looks at names and kinds only, so it finds the same in file systems that are alike. -/
theorem Alike.findSources_eq (path : Bytes) : fs'.findSources path = fs.findSources path := by
  unfold findSources
  rw [h.locate_eq]
  cases fs.locate .itself path with
  | error c => rfl
  | ok p =>
    cases hn : fs.node? p with
    | none => simp only [h.node?_eq_none hn, hn]
    | some node =>
      obtain ⟨node', hn', houtline⟩ := h.exists_node? hn
      cases node <;> cases node' <;> simp only [Node.outline, reduceCtorEq] at houtline <;>
        simp only [hn, hn']
      rename_i es es'
      have hnames : es'.map (·.1) = es.map (·.1) := by
        rw [← map_fst_outlineEntries es', Node.dir.inj houtline, map_fst_outlineEntries]
      rw [hnames, h.searchEntries_eq]

theorem Alike.fileNames?_eq (path : Bytes) : fs'.fileNames? path = fs.fileNames? path := by
  unfold fileNames?
  rw [h.locate_eq]
  cases fs.locate .destination path with
  | error c => rfl
  | ok p =>
    cases hn : fs.node? p with
    | none => simp only [h.node?_eq_none hn, hn]
    | some node =>
      obtain ⟨node', hn', houtline⟩ := h.exists_node? hn
      cases node <;> cases node' <;> simp_all [Node.outline]

/-- A path that cannot be read in a file system cannot be read in one that is alike. -/
theorem Alike.readFile_eq_error {path : Bytes} {f : Fault} (hf : fs.readFile path = .error f) :
    fs'.readFile path = .error f := by
  unfold readFile at hf ⊢
  rcases h.find_cases .destination path with ⟨c, hc, hc'⟩ | ⟨n, n', hn, hn', houtline⟩
  · rw [hc] at hf
    rw [hc']
    exact hf
  · rw [hn] at hf
    rw [hn']
    cases n <;> cases n' <;> simp_all [Node.outline]

end Congr

/-! ### Reading -/

/-- A path can be read if it leads to a file, and gives what the file holds. -/
theorem readFile_eq_ok_iff {fs : FileSystem} {path c : Bytes} :
    fs.readFile path = .ok c ↔
      ∃ names, fs.fileNames? path = some names ∧ fs.content? names = some c := by
  unfold readFile find fileNames?
  cases hl : fs.locate .destination path with
  | error cause => simp [bind, Except.bind]
  | ok p =>
    have hremoved : ∀ c, fs.node? p = some (.file c) → fs.tree.get? p.names = some (.file c) := by
      intro c hc
      unfold node? at hc
      split at hc
      · exact hc
      · cases hc
    cases hn : fs.node? p with
    | none => simp [hn, bind, Except.bind, throw, throwThe, MonadExceptOf.throw]
    | some node =>
      cases node with
      | file c' =>
        have hget := hremoved c' hn
        simp [hn, content?, Node.content?, hget, bind, Except.bind, pure, Except.pure]
      | link target => simp [hn, bind, Except.bind, pure, Except.pure]
      | dir es => simp [hn, bind, Except.bind, pure, Except.pure]

theorem readLines_eq_ok_iff {fs : FileSystem} {path : Bytes} {ls : List Bytes} :
    fs.readLines path = .ok ls ↔
      ∃ names c, fs.fileNames? path = some names ∧ fs.content? names = some c ∧ lines c = ls := by
  constructor
  · intro h
    unfold readLines at h
    cases hread : fs.readFile path with
    | error f =>
      rw [hread] at h
      cases h
    | ok c =>
      rw [hread] at h
      obtain ⟨names, hnames, hc⟩ := readFile_eq_ok_iff.1 hread
      exact ⟨names, c, hnames, hc, Except.ok.inj h⟩
  · rintro ⟨names, c, hnames, hc, rfl⟩
    rw [readLines, readFile_eq_ok_iff.2 ⟨names, hnames, hc⟩]
    rfl

/-- A path reads the same in file systems that are alike and hold the same in its file. -/
theorem Alike.readFile_eq {fs fs' : FileSystem} (h : Alike fs fs') {path : Bytes}
    (hc : ∀ names, fs.fileNames? path = some names → fs'.content? names = fs.content? names) :
    fs'.readFile path = fs.readFile path := by
  cases hread : fs.readFile path with
  | error f => exact h.readFile_eq_error hread
  | ok c =>
    obtain ⟨names, hnames, hcontent⟩ := readFile_eq_ok_iff.1 hread
    exact readFile_eq_ok_iff.2
      ⟨names, (h.fileNames?_eq path).trans hnames, (hc names hnames).trans hcontent⟩

/-! ### Writing -/

/-- What one step on the way to a destination can be: no step, a step up, a link that is followed,
or a step down. -/
theorem follow_destination_cases {fs : FileSystem} {links : Nat} {name : Bytes} {rest : List Bytes}
    {p q : Place} (h : fs.follow .destination links (name :: rest) p = .ok q) :
    fs.isDirAt p = true ∧
      (((name.isEmpty || name == Path.dot) = true ∧ fs.follow .destination links rest p = .ok q) ∨
      ((name.isEmpty || name == Path.dot) = false ∧ (name == Path.dotDot) = true ∧
        fs.follow .destination links rest p.up = .ok q) ∨
      ((name.isEmpty || name == Path.dot) = false ∧ (name == Path.dotDot) = false ∧
        p.removed = 0 ∧ name.length ≤ maxNameLength ∧
        ((∃ target links', fs.node? (p.down name) = some (.link target) ∧ links = links' + 1 ∧
          fs.follow .destination links' (pathSteps target ++ rest) (startOf p target) = .ok q) ∨
        ∃ node, fs.node? (p.down name) = some node ∧ (∀ target, node ≠ .link target) ∧
          fs.follow .destination links rest (p.down name) = .ok q))) := by
  rw [follow] at h
  by_cases hdir : fs.isDirAt p = true
  · refine ⟨hdir, ?_⟩
    rw [if_neg (by simp [hdir])] at h
    by_cases hskip : (name.isEmpty || name == Path.dot) = true
    · rw [if_pos hskip] at h
      exact .inl ⟨hskip, h⟩
    rw [if_neg hskip] at h
    by_cases hup : (name == Path.dotDot) = true
    · rw [if_pos hup] at h
      exact .inr (.inl ⟨by simpa using hskip, hup, h⟩)
    rw [if_neg hup, if_neg (by simp)] at h
    by_cases hgone : p.removed = 0
    · rw [if_neg (by simp [hgone])] at h
      by_cases hlong : maxNameLength < name.length
      · simp [hlong] at h
      rw [if_neg hlong] at h
      refine .inr (.inr ⟨by simpa using hskip, by simpa using hup, hgone, by omega, ?_⟩)
      cases hn : fs.node? (p.down name) with
      | none => simp [hn] at h
      | some node =>
        cases node with
        | link target =>
          cases links with
          | zero => simp [hn] at h
          | succ links => exact .inl ⟨target, links, rfl, rfl, by simpa [hn] using h⟩
        | file c => exact .inr ⟨_, rfl, by simp, by simpa [hn] using h⟩
        | dir es => exact .inr ⟨_, rfl, by simp, by simpa [hn] using h⟩
    · simp [hgone] at h
  · simp [hdir] at h

/-- A path that ends in a slash leads to a directory. -/
theorem isDirAt_of_follow_slash {fs : FileSystem} {links : Nat} {steps : List Bytes}
    {p q : Place} (h : fs.follow .destination links (steps ++ [[]]) p = .ok q) :
    fs.isDirAt q = true := by
  match steps with
  | [] =>
    obtain ⟨hdir, ⟨-, h⟩ | ⟨hskip, -⟩ | ⟨hskip, -⟩⟩ := follow_destination_cases h
    · rw [follow] at h
      cases h
      exact hdir
    · simp at hskip
    · simp at hskip
  | name :: rest =>
    obtain ⟨-, ⟨-, h'⟩ | ⟨-, -, h'⟩ | ⟨-, -, -, -, hnode⟩⟩ := follow_destination_cases h
    · exact isDirAt_of_follow_slash h'
    · exact isDirAt_of_follow_slash h'
    · rcases hnode with ⟨target, links', -, rfl, h'⟩ | ⟨-, -, -, h'⟩
      · have hsteps : pathSteps target ++ (rest ++ [[]]) = pathSteps target ++ rest ++ [[]] :=
          (List.append_assoc ..).symm
        exact isDirAt_of_follow_slash (hsteps ▸ h')
      · exact isDirAt_of_follow_slash h'
termination_by (links, steps.length)

/-- A path that leads to something that is no directory would be made there. -/
theorem follow_creation {fs : FileSystem} {links : Nat} {steps : List Bytes} {p q : Place}
    (h : fs.follow .destination links steps p = .ok q) (hq : fs.isDirAt q = false) :
    fs.follow .creation links steps p = .ok q := by
  match steps with
  | [] =>
    rw [follow] at h ⊢
    exact h
  | name :: rest =>
    have hslash : rest ≠ [[]] := by
      rintro rfl
      have hdir : fs.isDirAt q = true :=
        isDirAt_of_follow_slash (show fs.follow _ links ([name] ++ [[]]) p = .ok q from h)
      simp [hq] at hdir
    rw [follow]
    obtain ⟨hdir, ⟨hskip, h'⟩ | ⟨hskip, hup, h'⟩ | ⟨hskip, hup, hgone, hlong, hnode⟩⟩ :=
      follow_destination_cases h
    · rw [if_neg (by simp [hdir]), if_pos hskip]
      exact follow_creation h' hq
    · rw [if_neg (by simp [hdir]), if_neg (by simp [hskip]), if_pos hup]
      exact follow_creation h' hq
    · rw [if_neg (by simp [hdir]), if_neg (by simp [hskip]), if_neg (by simp [hup]),
        if_neg (by simp [hslash]), if_neg (by simp [hgone]), if_neg (by omega)]
      rcases hnode with ⟨target, links', hn, rfl, h'⟩ | ⟨node, hn, hlink, h'⟩
      · rw [hn]
        simp only [reduceCtorEq, false_and, if_false]
        exact follow_creation h' hq
      · rw [hn]
        cases node with
        | link target => exact absurd rfl (hlink target)
        | file c => exact follow_creation h' hq
        | dir es => exact follow_creation h' hq
termination_by (links, steps.length)

/-- What a file is left with when `content` is written to it. -/
def stored (fs : FileSystem) (content : Bytes) : Bytes :=
  match fs.limit with
  | none => content
  | some n => content.take n

theorem stored_eq_of_length {fs : FileSystem} {content : Bytes}
    (h : (fs.stored content).length = content.length) : fs.stored content = content := by
  unfold stored at h ⊢
  cases hl : fs.limit with
  | none => rfl
  | some n =>
    simp only [hl, List.length_take] at h ⊢
    exact List.take_of_length_le (by omega)

theorem put_here (fs : FileSystem) (names : List Bytes) (node : Node) (hw : node.WellFormed) :
    (fs.put names node hw).here = fs.here := by
  unfold put
  split <;> rfl

theorem put_limit (fs : FileSystem) (names : List Bytes) (node : Node) (hw : node.WellFormed) :
    (fs.put names node hw).limit = fs.limit := by
  unfold put
  split <;> rfl

theorem tree_put_of_ne_nil (fs : FileSystem) {names : List Bytes} (hne : names ≠ []) (node : Node)
    (hw : node.WellFormed) : (fs.put names node hw).tree = fs.tree.put node names := by
  obtain ⟨name, rest, rfl⟩ := List.exists_cons_of_ne_nil hne
  have hdir : ∃ root, fs.tree.put node (name :: rest) = .dir root := by
    unfold tree Node.put
    simp only
    split <;> exact ⟨_, rfl⟩
  obtain ⟨root, hroot⟩ := hdir
  unfold put
  split
  · rename_i root' hroot'
    exact hroot'.symm
  · rename_i hno
    exact absurd hroot (hno root)

theorem ne_nil_of_content? {fs : FileSystem} {names : List Bytes} {c : Bytes}
    (h : fs.content? names = some c) : names ≠ [] := by
  rintro rfl
  simp [content?, Node.content?, Node.get?, tree] at h

section Put

variable {fs : FileSystem} {names : List Bytes} {c : Bytes} (h : fs.content? names = some c)
include h

theorem alike_put (c' : Bytes) : Alike fs (fs.put names (.file c') (.file c')) where
  outline := by
    rw [tree_put_of_ne_nil fs (ne_nil_of_content? h)]
    exact Node.outline_put fs.wellFormed h c'
  here := put_here fs names _ _

theorem content?_put (c' : Bytes) (names' : List Bytes) :
    (fs.put names (.file c') (.file c')).content? names' =
      if names' = names then some c' else fs.content? names' := by
  rw [content?, tree_put_of_ne_nil fs (ne_nil_of_content? h)]
  exact Node.content?_put fs.wellFormed h c' names'

theorem put_content? : fs.put names (.file c) (.file c) = fs := by
  have htree := tree_put_of_ne_nil fs (ne_nil_of_content? h) (.file c) (.file c)
  have hsame : fs.tree.put (.file c) names = fs.tree := Node.put_content? fs.wellFormed h
  rw [hsame] at htree
  have hhere := put_here fs names (.file c) (.file c)
  have hlimit := put_limit fs names (.file c) (.file c)
  generalize fs.put names (.file c) (.file c) = fs' at *
  cases fs
  cases fs'
  simp_all [tree]

end Put

/-- Writing to a path that leads to a file puts the new content at the file's names. It fails only
if the content is longer than a file can be. -/
theorem writeFile_eq {fs : FileSystem} {path : Bytes} {names : List Bytes}
    (h : fs.fileNames? path = some names) (content : Bytes) :
    fs.writeFile path content =
      (fs.put names (.file (fs.stored content)) (.file _),
        if (fs.stored content).length = content.length then none
        else some (.access .writing path .fileTooLarge)) := by
  unfold fileNames? at h
  cases hl : fs.locate .destination path with
  | error cause => simp [hl] at h
  | ok p =>
    simp only [hl] at h
    split at h
    · rename_i c hn
      obtain rfl : p.names = names := by simpa using h
      have hdir : fs.isDirAt p = false := by simp [isDirAt, hn, Node.isDir]
      have hcreate : fs.locate .creation path = .ok p := by
        unfold locate at hl ⊢
        split at hl
        · cases hl
        split at hl
        · cases hl
        split at hl
        · cases hl
        simp only [*]
        exact follow_creation hl hdir
      simp only [writeFile, hcreate, hdir]
      rfl
    · cases h

end HelperImports.FileSystem
