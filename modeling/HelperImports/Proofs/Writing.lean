import Mathlib
import HelperImports.Proofs.Way

/-! What is written is read back. A path that a file can be written to is followed to a directory
and a name in it, through links that may lead nowhere yet. Once the file is there, the same path
leads to it, since all that was met on the way is what it was. So the lines of a file can be written
back as they were read, and lines that are written can be read as long as they are lines. -/

namespace HelperImports

/-! ### Putting a node into a tree -/

namespace Node

/-- What stands in a tree is still there when something is put elsewhere. It is what it was, unless
it is a directory on the way to the new node, and then it still is a directory. -/
theorem get?_put_of_not_prefix {n x : Node} {names names' : List Bytes} (new : Node)
    (hapart : ¬ names <+: names') (h : n.get? names' = some x) :
    ∃ x', (n.put new names).get? names' = some x' ∧
      (x' = x ∨ x.isDir = true ∧ x'.isDir = true) := by
  induction names' generalizing n names with
  | nil =>
    cases names with
    | nil => exact absurd List.prefix_rfl hapart
    | cons name names =>
      obtain rfl : n = x := by simpa [get?] using h
      cases n with
      | file c => exact ⟨_, rfl, .inl rfl⟩
      | link target => exact ⟨_, rfl, .inl rfl⟩
      | dir es =>
        rw [put]
        split
        · exact ⟨_, rfl, .inr ⟨rfl, rfl⟩⟩
        · exact ⟨_, rfl, .inl rfl⟩
  | cons name' names' ih =>
    cases names with
    | nil => exact absurd List.nil_prefix hapart
    | cons name names =>
      cases n with
      | file c => exact ⟨x, h, .inl rfl⟩
      | link target => exact ⟨x, h, .inl rfl⟩
      | dir es =>
        rw [put]
        split
        · rw [get?, child?, entries, lookup_putEntry]
          by_cases hname : name' = name
          · subst hname
            rw [get?] at h
            cases hc : (dir es).child? name' with
            | none => simp [hc] at h
            | some c =>
              simp only [hc] at h
              have hbelow : ¬ names <+: names' := fun hle =>
                hapart (List.cons_prefix_cons.2 ⟨rfl, hle⟩)
              simpa using ih hbelow h
          · rw [if_neg hname]
            exact ⟨x, h, .inl rfl⟩
        · exact ⟨x, h, .inl rfl⟩

/-- What is put under a proper name of a directory stands there. -/
theorem get?_put_concat {n d : Node} (hn : n.WellFormed) (new : Node) {front : List Bytes}
    {name : Bytes} (h : n.get? front = some d) (hdir : d.isDir = true)
    (hname : isEntryName name = true) :
    (n.put new (front ++ [name])).get? (front ++ [name]) = some new := by
  induction front generalizing n with
  | nil =>
    obtain rfl : n = d := by simpa [get?] using h
    cases n with
    | file => cases hdir
    | link => cases hdir
    | dir es => simp [put, hname, get?, child?, entries, lookup_putEntry]
  | cons first front ih =>
    cases hc : n.child? first with
    | none => simp [get?, hc] at h
    | some c =>
      have hbelow : c.get? front = some d := by simpa [get?, hc] using h
      have hnew := ih (hn.child? hc) hbelow
      cases hn with
      | file => cases hc
      | link => cases hc
      | @dir es _ named _ =>
        have hfirst := named _ (mem_of_lookup hc)
        rw [List.cons_append, put, if_pos hfirst, hc, Option.getD_some, get?, child?, entries,
          lookup_putEntry, if_pos rfl]
        exact hnew

end Node

namespace FileSystem

/-! ### Following a path to make a file -/

/-- A way along `steps` to a place where a file can be made: what is met on it stands, but for the
last name, which may be new. At most `n` links are taken. -/
inductive Making (fs : FileSystem) : Nat → List Bytes → Place → Place → Prop
  | done (n : Nat) (p : Place) : Making fs n [] p p
  | stay {n : Nat} {name : Bytes} {rest : List Bytes} {p q : Place}
      (directory : fs.isDirAt p = true) (still : name = [] ∨ name = Path.dot)
      (next : Making fs n rest p q) : Making fs n (name :: rest) p q
  | up {n : Nat} {rest : List Bytes} {p q : Place} (directory : fs.isDirAt p = true)
      (next : Making fs n rest p.up q) : Making fs n (Path.dotDot :: rest) p q
  | link {n : Nat} {name target : Bytes} {rest : List Bytes} {p q : Place}
      (directory : fs.isDirAt p = true) (proper : IsProper name) (stands : p.removed = 0)
      (short : name.length ≤ maxNameLength)
      (found : fs.node? (p.down name) = some (.link target))
      (next : Making fs n (pathSteps target ++ rest) (startOf p target) q) :
      Making fs (n + 1) (name :: rest) p q
  | down {n : Nat} {name : Bytes} {rest : List Bytes} {p q : Place} {node : Node}
      (directory : fs.isDirAt p = true) (proper : IsProper name) (stands : p.removed = 0)
      (short : name.length ≤ maxNameLength) (found : fs.node? (p.down name) = some node)
      (noLink : ∀ target, node ≠ .link target) (next : Making fs n rest (p.down name) q) :
      Making fs n (name :: rest) p q
  | new {n : Nat} {name : Bytes} {p : Place} (directory : fs.isDirAt p = true)
      (proper : IsProper name) (stands : p.removed = 0) (short : name.length ≤ maxNameLength)
      (absent : fs.node? (p.down name) = none) : Making fs n [name] p (p.down name)

theorem making_of_follow {fs : FileSystem} {n : Nat} {steps : List Bytes} {p q : Place}
    (h : fs.follow .creation n steps p = .ok q) : Making fs n steps p q := by
  generalize hpurpose : Purpose.creation = purpose at h
  fun_induction fs.follow purpose n steps p with
  | case1 n p =>
    obtain rfl := Except.ok.inj h
    exact .done n p
  | case3 n p name rest hdir hstill ih =>
    exact .stay (by simpa using hdir) (by simpa using hstill) (ih h)
  | case4 n p name rest hdir _ hup ih =>
    obtain rfl : name = Path.dotDot := by simpa using hup
    exact .up (by simpa using hdir) (ih h)
  | case8 n p name rest hdir hstill hup _ hstands hshort hnode hlast =>
    obtain rfl := Except.ok.inj h
    obtain rfl := hlast.2
    exact .new (by simpa using hdir) (isProper_of_tests hstill hup)
      (by simpa using hstands) (by omega) hnode
  | case10 n p name rest _ _ _ _ _ _ target hnode hitself =>
    rw [← hpurpose] at hitself
    cases hitself.1
  | case12 p name rest hdir hstill hup _ hstands hshort target hnode _ n ih =>
    exact .link (by simpa using hdir) (isProper_of_tests hstill hup)
      (by simpa using hstands) (by omega) hnode (ih h)
  | case13 n p name rest hdir hstill hup _ hstands hshort node hlink hnode ih =>
    exact .down (by simpa using hdir) (isProper_of_tests hstill hup)
      (by simpa using hstands) (by omega) hnode hlink (ih h)
  | case2 | case5 | case6 | case7 | case9 | case11 => cases h

/-! ### The place of a file that is made -/

/-- A directory of the tree, or an entry of one, present or not, that is no link. -/
inductive Slot (fs : FileSystem) (names : List Bytes) : Prop
  | directory (dir : fs.isDirAt ⟨names, 0⟩ = true)
  | entry {front : List Bytes} {name : Bytes} (split : names = front ++ [name])
      (dir : fs.isDirAt ⟨front, 0⟩ = true) (proper : isEntryName name = true)
      (noLink : ∀ target, fs.node? ⟨names, 0⟩ ≠ some (.link target))

theorem eq_mk_of_stands {p : Place} (h : p.removed = 0) : p = ⟨p.names, 0⟩ := by
  rw [← h]

theorem isDirAt_dropLast {fs : FileSystem} {names : List Bytes}
    (h : fs.isDirAt ⟨names, 0⟩ = true) : fs.isDirAt ⟨names.dropLast, 0⟩ = true := by
  by_cases hnil : names = []
  · rwa [hnil] at h ⊢
  · rw [isDirAt, node?_of_stands rfl] at h ⊢
    rw [← List.dropLast_concat_getLast hnil, Node.get?_append] at h
    cases hparent : fs.tree.get? names.dropLast with
    | none => simp [hparent] at h
    | some d =>
      cases hlast : d.get? [names.getLast hnil] with
      | none => simp [hparent, hlast] at h
      | some x => exact Node.isDir_of_get? hlast

theorem slash_notMem_of_mem_pathSteps {path s : Bytes} (h : s ∈ pathSteps path) :
    Path.slash ∉ s := by
  have hpiece : s ∈ path.splitAt Path.slash ∨ s = [] := by
    unfold pathSteps at h
    dsimp only at h
    split at h
    · rcases List.mem_append.1 h with h | h
      · exact .inl (List.mem_filter.1 h).1
      · exact .inr (List.mem_singleton.1 h)
    · exact .inl (List.mem_filter.1 h).1
  rcases hpiece with hpiece | rfl
  · exact Bytes.notMem_of_mem_splitAt hpiece
  · simp

theorem slot_down {fs : FileSystem} {p : Place} {name : Bytes} (hdir : fs.isDirAt p = true)
    (hproper : IsProper name) (hstands : p.removed = 0) (hslash : Path.slash ∉ name)
    (hlink : ∀ target, fs.node? (p.down name) ≠ some (.link target)) :
    fs.Slot (p.down name).names := by
  have hname : isEntryName name = true :=
    Path.isEntryName_iff.2 ⟨⟨hproper.nonempty, hproper.notDot, hslash⟩, hproper.notDotDot⟩
  have hdown : p.down name = ⟨(p.down name).names, 0⟩ := eq_mk_of_stands hstands
  rw [eq_mk_of_stands hstands] at hdir
  exact .entry rfl hdir hname (hdown ▸ hlink)

/-- A way to make a file leads from a slot to a slot, whatever links are taken on it. -/
theorem Making.slot {fs : FileSystem} {n : Nat} {steps : List Bytes} {p q : Place}
    (h : Making fs n steps p q) (hsteps : ∀ s ∈ steps, Path.slash ∉ s) (hp : fs.Slot p.names) :
    fs.Slot q.names := by
  induction h with
  | done => exact hp
  | stay _ _ _ ih => exact ih (List.forall_mem_cons.1 hsteps).2 hp
  | @up n rest p q directory _ ih =>
    refine ih (List.forall_mem_cons.1 hsteps).2 ?_
    rw [Place.up]
    split
    · rename_i hstands
      rw [eq_mk_of_stands hstands] at directory
      exact .directory (isDirAt_dropLast directory)
    · exact hp
  | @link n name target rest p q directory proper stands short found _ ih =>
    refine ih (fun s hs => ?_) ?_
    · rcases List.mem_append.1 hs with hs | hs
      · exact slash_notMem_of_mem_pathSteps hs
      · exact (List.forall_mem_cons.1 hsteps).2 s hs
    · rw [startOf]
      split
      · exact .directory rfl
      · rw [eq_mk_of_stands stands] at directory
        exact .directory directory
  | down directory proper stands short found noLink _ ih =>
    have hslash := List.forall_mem_cons.1 hsteps
    refine ih hslash.2 (slot_down directory proper stands hslash.1 fun target htarget => ?_)
    exact noLink target (Option.some.inj (found.symm.trans htarget))
  | new directory proper stands short absent =>
    refine slot_down directory proper stands (hsteps _ (by simp)) fun target htarget => ?_
    cases absent.symm.trans htarget

/-! ### Following the path again -/

section Put

variable {fs : FileSystem} {q : Place} (hslot : fs.Slot q.names) (hfile : fs.isDirAt q = false)
  (c : Bytes)
include hfile

theorem stands_of_not_dir : q.removed = 0 := by
  by_contra hremoved
  simp [isDirAt, node?, hremoved, Node.isDir] at hfile

theorem not_prefix_of_node? {r : Place} {x : Node} (hstands : r.removed = 0)
    (h : fs.node? r = some x) (hne : r.names ≠ q.names) : ¬ q.names <+: r.names := by
  rintro ⟨rest, hrest⟩
  have hq := stands_of_not_dir hfile
  rw [node?_of_stands hstands, ← hrest, Node.get?_append] at h
  rw [isDirAt, node?_of_stands hq] at hfile
  cases hnode : fs.tree.get? q.names with
  | none => simp [hnode] at h
  | some node =>
    cases rest with
    | nil => exact hne (by simpa using hrest.symm)
    | cons name rest =>
      have hdir : node.isDir = true := Node.isDir_of_get? (by simpa [hnode] using h)
      simp [hnode, hdir] at hfile

include hslot

/-- The names of a slot that is no directory end in a proper entry of one. -/
theorem exists_entry_of_slot : ∃ front name d, q.names = front ++ [name] ∧
    fs.tree.get? front = some d ∧ d.isDir = true ∧ isEntryName name = true ∧
      ∀ target, fs.node? q ≠ some (.link target) := by
  have hq := eq_mk_of_stands (stands_of_not_dir hfile)
  cases hslot with
  | directory dir =>
    rw [← hq, hfile] at dir
    cases dir
  | @entry front name split dir proper noLink =>
    rw [isDirAt, node?_of_stands rfl] at dir
    cases hd : fs.tree.get? front with
    | none => simp [hd] at dir
    | some d =>
      rw [← hq] at noLink
      exact ⟨front, name, d, split, hd, by simpa [hd] using dir, proper, noLink⟩

theorem tree_put_slot :
    (fs.put q.names (.file c) (.file c)).tree = fs.tree.put (.file c) q.names := by
  obtain ⟨front, name, -, hnames, -⟩ := exists_entry_of_slot hslot hfile
  exact tree_put_of_ne_nil fs (by simp [hnames]) _ _

theorem node?_put_slot : (fs.put q.names (.file c) (.file c)).node? q = some (.file c) := by
  obtain ⟨front, name, d, hnames, hd, hdir, hname, -⟩ := exists_entry_of_slot hslot hfile
  rw [node?_of_stands (stands_of_not_dir hfile), tree_put_slot hslot hfile, hnames]
  exact Node.get?_put_concat fs.wellFormed _ hd hdir hname

/-- All that stands in the tree is met again with the new file in it: directories are directories,
and the links are the same. -/
theorem exists_node?_put {r : Place} {x : Node} (h : fs.node? r = some x) :
    ∃ x', (fs.put q.names (.file c) (.file c)).node? r = some x' ∧
      (x.isDir = true → x'.isDir = true) ∧ ∀ target, x' = .link target ↔ x = .link target := by
  by_cases hstands : r.removed = 0
  · by_cases hsame : r.names = q.names
    · -- At its own place the file stands instead of a file, if of anything.
      obtain rfl : r = q := by
        rw [eq_mk_of_stands hstands, eq_mk_of_stands (stands_of_not_dir hfile), hsame]
      obtain ⟨-, -, -, -, -, -, -, hlink⟩ := exists_entry_of_slot hslot hfile
      refine ⟨_, node?_put_slot hslot hfile c, fun hdir => ?_, fun target => ?_⟩
      · simp [isDirAt, h, hdir] at hfile
      · refine iff_of_false (by simp) ?_
        rintro rfl
        exact hlink target h
    · have hapart := not_prefix_of_node? hfile hstands h hsame
      rw [node?_of_stands hstands] at h ⊢
      obtain ⟨x', hx', hkind⟩ := Node.get?_put_of_not_prefix (.file c) hapart h
      rw [tree_put_slot hslot hfile]
      refine ⟨x', hx', ?_⟩
      rcases hkind with rfl | ⟨hdir, hdir'⟩
      · exact ⟨id, fun _ => Iff.rfl⟩
      · refine ⟨fun _ => hdir', fun target => iff_of_false ?_ ?_⟩
        · rintro rfl
          cases hdir'
        · rintro rfl
          cases hdir
  · have hgone : ∀ fs : FileSystem, fs.node? r = some (.dir []) := fun fs => if_neg hstands
    obtain rfl := Option.some.inj ((hgone fs).symm.trans h)
    exact ⟨_, hgone _, id, fun _ => Iff.rfl⟩

theorem isDirAt_put {r : Place} (h : fs.isDirAt r = true) :
    (fs.put q.names (.file c) (.file c)).isDirAt r = true := by
  rw [isDirAt] at h ⊢
  cases hnode : fs.node? r with
  | none => simp [hnode] at h
  | some x =>
    obtain ⟨x', hx', hdir, -⟩ := exists_node?_put hslot hfile c hnode
    rw [hx']
    exact hdir (by simpa [hnode] using h)

/-- A way to make a file leads to the file once it is made. -/
theorem Making.follow_put {n : Nat} {steps : List Bytes} {p : Place}
    (h : Making fs n steps p q) :
    (fs.put q.names (.file c) (.file c)).follow .destination n steps p = .ok q := by
  induction h with
  | done => rw [follow]
  | stay directory still _ ih =>
    rw [follow_stay (isDirAt_put hslot hfile c directory) still]
    exact ih hslot hfile
  | up directory _ ih =>
    rw [follow_up (isDirAt_put hslot hfile c directory)]
    exact ih hslot hfile
  | link directory proper stands short found _ ih =>
    obtain ⟨x, hx, -, hlink⟩ := exists_node?_put hslot hfile c found
    obtain rfl := (hlink _).2 rfl
    rw [follow_proper (by simp) (isDirAt_put hslot hfile c directory) proper stands short, hx]
    exact ih hslot hfile
  | down directory proper stands short found noLink _ ih =>
    obtain ⟨x, hx, -, hlink⟩ := exists_node?_put hslot hfile c found
    rw [follow_proper (by simp) (isDirAt_put hslot hfile c directory) proper stands short, hx]
    cases x with
    | link target => exact absurd ((hlink target).1 rfl) (noLink target)
    | file => exact ih hslot hfile
    | dir => exact ih hslot hfile
  | new directory proper stands short absent =>
    rw [follow_proper (by simp) (isDirAt_put hslot hfile c directory) proper stands short,
      node?_put_slot hslot hfile c]
    exact follow.eq_1 ..

end Put

/-! ### Writing, then reading -/

/-- The working directory, or the one that it was removed from, is a directory of the tree. -/
def Grounded (fs : FileSystem) : Prop := fs.isDirAt ⟨fs.here.names, 0⟩ = true

theorem Grounded.slot_startOf {fs : FileSystem} (h : fs.Grounded) (path : Bytes) :
    fs.Slot (startOf fs.here path).names := by
  rw [startOf]
  split
  · exact .directory rfl
  · exact .directory h

/-- A write is refused and changes nothing, or it puts a file where a way to make one leads. It
succeeds only if there is room for the content. -/
theorem writeFile_cases {fs : FileSystem} (hhere : fs.Grounded) (path content : Bytes) :
    (∃ fault, fs.writeFile path content = (fs, some fault)) ∨
    ∃ p, fs.locate .creation path = .ok p ∧ fs.Slot p.names ∧ fs.isDirAt p = false ∧
      (fs.writeFile path content).1 =
        fs.put p.names (.file (fs.stored content)) (.file (fs.stored content)) ∧
      ((fs.writeFile path content).2 = none → fs.stored content = content) := by
  unfold writeFile
  cases hlocate : fs.locate .creation path with
  | error cause => exact .inl ⟨_, rfl⟩
  | ok p =>
    by_cases hdir : fs.isDirAt p = true
    · simp only [if_pos hdir]
      exact .inl ⟨_, rfl⟩
    · simp only [if_neg hdir]
      have hslot : fs.Slot p.names :=
        (making_of_follow (locate_eq_ok_iff.1 hlocate).2.2.2).slot
          (fun s hs => slash_notMem_of_mem_pathSteps hs) (hhere.slot_startOf path)
      refine .inr ⟨p, rfl, hslot, by simpa using hdir, rfl, fun hok => stored_eq_of_length ?_⟩
      by_contra hlong
      exact absurd ((if_neg hlong).symm.trans hok) (by simp)

theorem Grounded.writeFile {fs : FileSystem} (hhere : fs.Grounded) (path content : Bytes) :
    (fs.writeFile path content).1.Grounded := by
  rcases writeFile_cases hhere path content with ⟨fault, hrefused⟩ | ⟨p, -, hslot, hfile, hput, -⟩
  · rwa [hrefused]
  · rw [hput, Grounded, put_here]
    exact isDirAt_put hslot hfile _ hhere

/-- What was written is read. -/
theorem readFile_writeFile {fs : FileSystem} {path content : Bytes} (hhere : fs.Grounded)
    (h : (fs.writeFile path content).2 = none) :
    (fs.writeFile path content).1.readFile path = .ok content := by
  rcases writeFile_cases hhere path content with ⟨fault, hrefused⟩ |
    ⟨p, hlocate, hslot, hfile, hput, hroom⟩
  · rw [hrefused] at h
    cases h
  · rw [hput, hroom h]
    obtain ⟨hzero, hne, hshort, hfollow⟩ := locate_eq_ok_iff.1 hlocate
    have hagain : (fs.put p.names (.file content) (.file content)).locate .destination path =
        .ok p := by
      refine locate_eq_ok_iff.2 ⟨hzero, hne, hshort, ?_⟩
      rw [put_here]
      exact (making_of_follow hfollow).follow_put hslot hfile content
    simp only [readFile, find, hagain, bind, Except.bind, node?_put_slot hslot hfile content]
    rfl

/-- A file into which its own content is written is what it was, as long as that is not too long
for a file. -/
theorem writeFile_readFile {fs : FileSystem} {path content : Bytes}
    (hread : fs.readFile path = .ok content) (hroom : fs.stored content = content) :
    fs.writeFile path content = (fs, none) := by
  obtain ⟨names, hnames, hcontent⟩ := readFile_eq_ok_iff.1 hread
  rw [writeFile_eq hnames, hroom, if_pos rfl, put_content? hcontent]

end FileSystem

/-- Lines are those of their text if and only if there is a line and none holds a newline. -/
theorem lines_unlines_eq_iff {ls : List Bytes} :
    lines (unlines ls) = ls ↔ ls ≠ [] ∧ ∀ l ∈ ls, newline ∉ l := by
  refine ⟨fun h => ?_, fun h => lines_unlines h.1 h.2⟩
  rw [← h]
  exact ⟨lines_ne_nil _, fun l hl => newline_notMem_of_mem_lines hl⟩

namespace FileSystem

/-- Reading and writing lines undo each other. The lines that are read from a file restore its bytes
when they are written: the file system is what it was if they are written where they come from and
there is room for them, and any other path that they are written to holds the same bytes. Lines that
are written, to a file that stands or to a new one, are read again if and only if there is a line
and none holds a newline. That the working directory is one stays true, whatever is written. -/
theorem readLines_writeLines_inverse (fs : FileSystem) :
    (∀ path content, fs.readFile path = .ok content →
      ∃ ls, fs.readLines path = .ok ls ∧
        (fs.stored content = content → fs.writeLines path ls = (fs, none)) ∧
        ∀ target, fs.Grounded → (fs.writeLines target ls).2 = none →
          (fs.writeLines target ls).1.readFile target = .ok content) ∧
    ∀ path ls, fs.Grounded → (fs.writeLines path ls).1.Grounded ∧
      ((fs.writeLines path ls).2 = none →
        ((fs.writeLines path ls).1.readLines path = .ok ls ↔
          ls ≠ [] ∧ ∀ l ∈ ls, newline ∉ l)) := by
  refine ⟨fun path content hread => ⟨lines content, ?_, fun hroom => ?_, ?_⟩, ?_⟩
  · rw [readLines, hread]
    rfl
  · rw [writeLines, unlines_lines]
    exact writeFile_readFile hread hroom
  · intro target hhere hok
    rw [writeLines, unlines_lines] at hok ⊢
    exact readFile_writeFile hhere hok
  · intro path ls hhere
    refine ⟨hhere.writeFile path (unlines ls), fun hok => ?_⟩
    have hread : (fs.writeLines path ls).1.readFile path = .ok (unlines ls) :=
      readFile_writeFile hhere hok
    rw [readLines, hread, ← lines_unlines_eq_iff]
    exact ⟨Except.ok.inj, congrArg Except.ok⟩

/-- A directory with a link to a file that is not there yet. -/
def danglingLink : FileSystem :=
  (({} : FileSystem).put [bytes "d"] (.dir []) Node.wellFormed_empty).put [bytes "l"]
    (.link (bytes "d/new")) (.link _)

/-- Lines are written to a new file through a link, and read again. -/
theorem readLines_writeLines_inverse_danglingLink :
    let ls := [bytes "a", [], bytes "b"]
    let done := danglingLink.writeLines (bytes "l") ls
    done.2 = none ∧ done.1.readLines (bytes "l") = .ok ls := by
  have hok : (danglingLink.writeLines (bytes "l") [bytes "a", [], bytes "b"]).2 = none := by cbv
  intro ls done
  obtain ⟨-, hwritten⟩ := readLines_writeLines_inverse danglingLink
  obtain ⟨-, hread⟩ := hwritten (bytes "l") ls (by unfold Grounded; decide)
  exact ⟨hok, (hread hok).2 ⟨by decide, by decide⟩⟩

end FileSystem

end HelperImports
