import HelperImports.Proofs.Contents
import HelperImports.Proofs.PathBytes
import HelperImports.Proofs.PathNames

/-! Ways through the tree. A path that leads somewhere is a way: step by step it stays, goes up,
goes down or takes a link, and each link is one of those that may be followed. Ways are put together
and taken apart, and a way through directories alone takes no link. -/

namespace HelperImports

theorem Node.get?_append (n : Node) (front back : List Bytes) :
    n.get? (front ++ back) = (n.get? front).bind (·.get? back) := by
  induction front generalizing n with
  | nil => rfl
  | cons name front ih =>
    rw [List.cons_append, get?, get?]
    cases n.child? name with
    | none => rfl
    | some c => exact ih c

theorem Node.get?_singleton (n : Node) (name : Bytes) : n.get? [name] = n.child? name := by
  rw [get?]
  cases n.child? name <;> rfl

theorem Node.isDir_of_get? {n x : Node} {name : Bytes} {rest : List Bytes}
    (h : n.get? (name :: rest) = some x) : n.isDir = true := by
  cases n with
  | file => cases h
  | link => cases h
  | dir es => rfl

namespace FileSystem

theorem node?_of_stands {fs : FileSystem} {p : Place} (h : p.removed = 0) :
    fs.node? p = fs.tree.get? p.names := if_pos h

theorem node?_down {fs : FileSystem} {p : Place} {node : Node} (hstands : p.removed = 0)
    (h : fs.node? p = some node) (name : Bytes) : fs.node? (p.down name) = node.child? name := by
  rw [node?_of_stands hstands] at h
  have hdown : (p.down name).removed = 0 := hstands
  rw [node?_of_stands hdown, Place.down, Node.get?_append, h]
  exact Node.get?_singleton node name

/-- A name under which something can stand: none of the texts that stay in a directory or lead out
of it. -/
structure IsProper (name : Bytes) : Prop where
  nonempty : name ≠ []
  notDot : name ≠ Path.dot
  notDotDot : name ≠ Path.dotDot

theorem isProper_of_tests {name : Bytes} (hstill : ¬ (name.isEmpty || name == Path.dot) = true)
    (hup : ¬ (name == Path.dotDot) = true) : IsProper name := by
  simp only [Bool.or_eq_true, List.isEmpty_iff, beq_iff_eq, not_or] at hstill
  exact ⟨hstill.1, hstill.2, by simpa using hup⟩

/-- A way along `steps` from one place to another, with `n` links allowed at its beginning and `m`
left at its end. -/
inductive Way (fs : FileSystem) : Nat → List Bytes → Place → Nat → Place → Prop
  | done (n : Nat) (p : Place) : Way fs n [] p n p
  | stay {n m : Nat} {name : Bytes} {rest : List Bytes} {p q : Place}
      (directory : fs.isDirAt p = true) (still : name = [] ∨ name = Path.dot)
      (next : Way fs n rest p m q) : Way fs n (name :: rest) p m q
  | up {n m : Nat} {rest : List Bytes} {p q : Place} (directory : fs.isDirAt p = true)
      (next : Way fs n rest p.up m q) : Way fs n (Path.dotDot :: rest) p m q
  | link {n m : Nat} {name target : Bytes} {rest : List Bytes} {p q : Place}
      (directory : fs.isDirAt p = true) (proper : IsProper name) (stands : p.removed = 0)
      (short : name.length ≤ maxNameLength)
      (found : fs.node? (p.down name) = some (.link target))
      (next : Way fs n (pathSteps target ++ rest) (startOf p target) m q) :
      Way fs (n + 1) (name :: rest) p m q
  | down {n m : Nat} {name : Bytes} {rest : List Bytes} {p q : Place} {node : Node}
      (directory : fs.isDirAt p = true) (proper : IsProper name) (stands : p.removed = 0)
      (short : name.length ≤ maxNameLength) (found : fs.node? (p.down name) = some node)
      (noLink : ∀ target, node ≠ .link target) (next : Way fs n rest (p.down name) m q) :
      Way fs n (name :: rest) p m q

/-! ### Following a way -/

section Step

variable {fs : FileSystem} {purpose : Purpose} {links : Nat} {name : Bytes} {rest : List Bytes}
  {p : Place}

theorem follow_stay (hdir : fs.isDirAt p = true) (hstill : name = [] ∨ name = Path.dot) :
    fs.follow purpose links (name :: rest) p = fs.follow purpose links rest p := by
  rw [follow, if_neg (by simp [hdir]), if_pos (by simpa using hstill)]

theorem follow_up (hdir : fs.isDirAt p = true) :
    fs.follow purpose links (Path.dotDot :: rest) p = fs.follow purpose links rest p.up := by
  rw [follow, if_neg (by simp [hdir]), if_neg (by decide), if_pos (by decide)]

theorem follow_proper (hpurpose : purpose ≠ .creation) (hdir : fs.isDirAt p = true)
    (hname : IsProper name) (hstands : p.removed = 0) (hshort : name.length ≤ maxNameLength) :
    fs.follow purpose links (name :: rest) p =
      match fs.node? (p.down name) with
      | none => .error .notExist
      | some (.link target) =>
        if purpose = .itself ∧ rest = [] then .ok (p.down name)
        else
          match links with
          | 0 => .error .tooManyLinks
          | links + 1 => fs.follow purpose links (pathSteps target ++ rest) (startOf p target)
      | some _ => fs.follow purpose links rest (p.down name) := by
  rw [follow, if_neg (by simp [hdir]), if_neg (by simp [hname.nonempty, hname.notDot]),
    if_neg (by simpa using hname.notDotDot), if_neg (by simp [hpurpose]),
    if_neg (by simp [hstands]), if_neg (by omega)]
  cases fs.node? (p.down name) with
  | none => simp [hpurpose]
  | some node =>
    cases node with
    | link target => cases links <;> rfl
    | file c => rfl
    | dir es => rfl

end Step

/-- Behind a way a path is followed from its end, with the links that it left. -/
theorem Way.follow_append {fs : FileSystem} {n m : Nat} {steps : List Bytes} {p q : Place}
    (h : Way fs n steps p m q) {purpose : Purpose} (hpurpose : purpose ≠ .creation)
    (rest : List Bytes) (hrest : purpose = .destination ∨ rest ≠ []) :
    fs.follow purpose n (steps ++ rest) p = fs.follow purpose m rest q := by
  induction h with
  | done n p => rfl
  | stay directory still _ ih => rw [List.cons_append, follow_stay directory still, ih]
  | up directory _ ih => rw [List.cons_append, follow_up directory, ih]
  | @link n m name target steps p q directory proper stands short found _ ih =>
    -- More steps follow, or the path is followed to its end: either way the link is taken.
    have hmore : ¬ (purpose = .itself ∧ steps ++ rest = []) := by
      rintro ⟨rfl, hnil⟩
      rcases hrest with hdest | hne
      · cases hdest
      · exact hne (List.append_eq_nil_iff.1 hnil).2
    rw [List.cons_append, follow_proper hpurpose directory proper stands short, found]
    dsimp only
    rw [if_neg hmore, ← List.append_assoc, ih]
  | @down n m name steps p q node directory proper stands short found noLink _ ih =>
    rw [List.cons_append, follow_proper hpurpose directory proper stands short, found]
    cases node with
    | link target => exact absurd rfl (noLink target)
    | file c => exact ih
    | dir es => exact ih

theorem Way.follow_eq {fs : FileSystem} {n m : Nat} {steps : List Bytes} {p q : Place}
    (h : Way fs n steps p m q) : fs.follow .destination n steps p = .ok q := by
  have happend : fs.follow .destination n (steps ++ []) p = _ :=
    h.follow_append (by simp) [] (.inl rfl)
  rw [List.append_nil] at happend
  rw [happend, follow]

/-- A path that leads to a destination, or to a directory itself, is a way. -/
theorem exists_way {fs : FileSystem} {purpose : Purpose} {n : Nat} {steps : List Bytes}
    {p q : Place} (h : fs.follow purpose n steps p = .ok q) (hpurpose : purpose ≠ .creation)
    (hend : purpose = .destination ∨ fs.isDirAt q = true) : ∃ m, Way fs n steps p m q := by
  fun_induction fs.follow purpose n steps p with
  | case1 n p =>
    obtain rfl := Except.ok.inj h
    exact ⟨n, .done n p⟩
  | case3 n p name rest hdir hstill ih =>
    obtain ⟨m, hway⟩ := ih h
    exact ⟨m, .stay (by simpa using hdir) (by simpa using hstill) hway⟩
  | case4 n p name rest hdir _ hup ih =>
    obtain ⟨m, hway⟩ := ih h
    obtain rfl : name = Path.dotDot := by simpa using hup
    exact ⟨m, .up (by simpa using hdir) hway⟩
  | case10 n p name rest _ _ _ _ _ _ target hnode hitself =>
    -- What stands at the end of a path that is not followed further is no directory but a link.
    obtain rfl := Except.ok.inj h
    rcases hend with hdest | hdirectory
    · rw [hdest] at hitself
      cases hitself.1
    · simp [isDirAt, hnode, Node.isDir] at hdirectory
  | case12 p name rest hdir hstill hup _ hstands hshort target hnode _ n ih =>
    obtain ⟨m, hway⟩ := ih h
    exact ⟨m, .link (by simpa using hdir) (isProper_of_tests hstill hup)
      (by simpa using hstands) (by omega) hnode hway⟩
  | case13 n p name rest hdir hstill hup _ hstands hshort node hlink hnode ih =>
    obtain ⟨m, hway⟩ := ih h
    exact ⟨m, .down (by simpa using hdir) (isProper_of_tests hstill hup)
      (by simpa using hstands) (by omega) hnode hlink hway⟩
  | case8 n p name rest _ _ _ _ _ _ _ hcreation => exact absurd hcreation.1 hpurpose
  | case2 | case5 | case6 | case7 | case9 | case11 => cases h

/-! ### Parts of a way -/

/-- A way along two lists of steps is a way along the first and from its end along the second. -/
theorem Way.split {fs : FileSystem} {n m : Nat} {front back : List Bytes} {p q : Place}
    (h : Way fs n (front ++ back) p m q) :
    ∃ k r, Way fs n front p k r ∧ Way fs k back r m q := by
  generalize hsteps : front ++ back = steps at h
  induction h generalizing front with
  | done n p =>
    obtain ⟨rfl, rfl⟩ := List.append_eq_nil_iff.1 hsteps
    exact ⟨n, p, .done n p, .done n p⟩
  | @stay n m name rest p q directory still next ih =>
    cases front with
    | nil =>
      obtain rfl : back = name :: rest := hsteps
      exact ⟨n, p, .done n p, .stay directory still next⟩
    | cons x front =>
      obtain ⟨rfl, hrest⟩ := List.cons.inj hsteps
      obtain ⟨k, r, hfront, hback⟩ := ih hrest
      exact ⟨k, r, .stay directory still hfront, hback⟩
  | @up n m rest p q directory next ih =>
    cases front with
    | nil =>
      obtain rfl : back = Path.dotDot :: rest := hsteps
      exact ⟨n, p, .done n p, .up directory next⟩
    | cons x front =>
      obtain ⟨rfl, hrest⟩ := List.cons.inj hsteps
      obtain ⟨k, r, hfront, hback⟩ := ih hrest
      exact ⟨k, r, .up directory hfront, hback⟩
  | @link n m name target rest p q directory proper stands short found next ih =>
    cases front with
    | nil =>
      obtain rfl : back = name :: rest := hsteps
      exact ⟨n + 1, p, .done _ p, .link directory proper stands short found next⟩
    | cons x front =>
      obtain ⟨rfl, hrest⟩ := List.cons.inj hsteps
      have hsteps : (pathSteps target ++ front) ++ back = pathSteps target ++ rest := by
        rw [List.append_assoc]
        exact congrArg (pathSteps target ++ ·) hrest
      obtain ⟨k, r, hfront, hback⟩ := ih hsteps
      exact ⟨k, r, .link directory proper stands short found hfront, hback⟩
  | @down n m name rest p q node directory proper stands short found noLink next ih =>
    cases front with
    | nil =>
      obtain rfl : back = name :: rest := hsteps
      exact ⟨n, p, .done n p, .down directory proper stands short found noLink next⟩
    | cons x front =>
      obtain ⟨rfl, hrest⟩ := List.cons.inj hsteps
      obtain ⟨k, r, hfront, hback⟩ := ih hrest
      exact ⟨k, r, .down directory proper stands short found noLink hfront, hback⟩

theorem Way.append {fs : FileSystem} {n k m : Nat} {front back : List Bytes} {p r q : Place}
    (hfront : Way fs n front p k r) (hback : Way fs k back r m q) :
    Way fs n (front ++ back) p m q := by
  induction hfront with
  | done n p => exact hback
  | stay directory still _ ih => exact .stay directory still (ih hback)
  | up directory _ ih => exact .up directory (ih hback)
  | link directory proper stands short found _ ih =>
    refine .link directory proper stands short found ?_
    have hnext := ih hback
    rwa [List.append_assoc] at hnext
  | down directory proper stands short found noLink _ ih =>
    exact .down directory proper stands short found noLink (ih hback)

/-- With another number of links allowed, a way leads to the same place, or there are too few of
them. -/
theorem Way.follow_cases {fs : FileSystem} {n m : Nat} {steps : List Bytes} {p q : Place}
    (h : Way fs n steps p m q) (links : Nat) :
    fs.follow .destination links steps p = .ok q ∨
      fs.follow .destination links steps p = .error .tooManyLinks := by
  induction h generalizing links with
  | done n p => exact .inl (by rw [follow])
  | stay directory still _ ih =>
    rw [follow_stay directory still]
    exact ih links
  | up directory _ ih =>
    rw [follow_up directory]
    exact ih links
  | link directory proper stands short found _ ih =>
    rw [follow_proper (by simp) directory proper stands short, found]
    cases links with
    | zero => exact .inr rfl
    | succ links => exact ih links
  | @down n m name rest p q node directory proper stands short found noLink _ ih =>
    rw [follow_proper (by simp) directory proper stands short, found]
    cases node with
    | link target => exact absurd rfl (noLink target)
    | file c => exact ih links
    | dir es => exact ih links

theorem Way.le {fs : FileSystem} {n m : Nat} {steps : List Bytes} {p q : Place}
    (h : Way fs n steps p m q) : m ≤ n := by
  induction h with
  | done => exact Nat.le_refl _
  | stay _ _ _ ih => exact ih
  | up _ _ ih => exact ih
  | link _ _ _ _ _ _ ih => omega
  | down _ _ _ _ _ _ _ ih => exact ih

/-- A way that takes no link can be taken with any number of links allowed. -/
theorem Way.of_free {fs : FileSystem} {n m : Nat} {steps : List Bytes} {p q : Place}
    (h : Way fs n steps p m q) (hfree : m = n) (links : Nat) : Way fs links steps p links q := by
  induction h with
  | done n p => exact .done links p
  | stay directory still _ ih => exact .stay directory still (ih hfree)
  | up directory _ ih => exact .up directory (ih hfree)
  | link _ _ _ _ _ next _ =>
    have hle := next.le
    omega
  | down directory proper stands short found noLink _ ih =>
    exact .down directory proper stands short found noLink (ih hfree)

/-- What stands under a path is what it leads to, or a link. -/
theorem Way.follow_itself {fs : FileSystem} {n m : Nat} {steps : List Bytes} {p q : Place}
    (h : Way fs n steps p m q) :
    fs.follow .itself n steps p = .ok q ∨
      ∃ r target, fs.follow .itself n steps p = .ok r ∧ fs.node? r = some (.link target) := by
  induction h with
  | done n p => exact .inl (by rw [follow])
  | stay directory still _ ih => rwa [follow_stay directory still]
  | up directory _ ih => rwa [follow_up directory]
  | @link n m name target rest p q directory proper stands short found _ ih =>
    rw [follow_proper (by simp) directory proper stands short, found]
    by_cases hrest : rest = []
    · exact .inr ⟨p.down name, target, by simp [hrest], found⟩
    · simpa [hrest] using ih
  | @down n m name rest p q node directory proper stands short found noLink _ ih =>
    rw [follow_proper (by simp) directory proper stands short, found]
    cases node with
    | link target => exact absurd rfl (noLink target)
    | file c => exact ih
    | dir es => exact ih

theorem Way.of_still {fs : FileSystem} {n m : Nat} {name : Bytes} {rest : List Bytes} {p q : Place}
    (h : Way fs n (name :: rest) p m q) (hstill : name = [] ∨ name = Path.dot) :
    Way fs n rest p m q := by
  cases h with
  | stay _ _ next => exact next
  | up _ _ => exact absurd hstill (by decide)
  | link _ proper _ _ _ _ => exact absurd hstill (not_or.2 ⟨proper.nonempty, proper.notDot⟩)
  | down _ proper _ _ _ _ _ => exact absurd hstill (not_or.2 ⟨proper.nonempty, proper.notDot⟩)

theorem Way.drop_still {fs : FileSystem} {n m : Nat} {back : List Bytes} {p q : Place}
    (front : List Bytes) (h : Way fs n (front ++ back) p m q) :
    Way fs n (front ++ back.filter fun s => !s.isEmpty && s != Path.dot) p m q := by
  induction back generalizing front with
  | nil => exact h
  | cons s back ih =>
    have hlater : Way fs n (front ++ s :: back.filter fun s => !s.isEmpty && s != Path.dot)
        p m q := by
      have hgrouped : front ++ s :: back = front ++ [s] ++ back := by simp
      rw [hgrouped] at h
      simpa using ih (front ++ [s]) h
    by_cases hstill : s = [] ∨ s = Path.dot
    · obtain ⟨k, r, hfront, hback⟩ := hlater.split
      rw [List.filter_cons_of_neg (by rcases hstill with rfl | rfl <;> decide)]
      exact hfront.append (hback.of_still hstill)
    · rw [List.filter_cons_of_pos (by simpa [not_or] using hstill)]
      exact hlater

theorem isProper_of_isEntryName {name : Bytes} (h : isEntryName name = true) : IsProper name := by
  obtain ⟨hstep, hup⟩ := Path.isEntryName_iff.1 h
  exact ⟨hstep.nonempty, hstep.notDot, hup⟩

/-- A way down to something that is no link takes no link, and ends there. -/
theorem Way.eq_of_get? {fs : FileSystem} {n m : Nat} {names : List Bytes} {p q : Place}
    {node found : Node} (h : Way fs n names p m q) (hstands : p.removed = 0)
    (hp : fs.node? p = some node) (hnames : ∀ s ∈ names, isEntryName s = true)
    (hfound : node.get? names = some found) (hlink : ∀ target, found ≠ .link target) :
    m = n ∧ q = ⟨p.names ++ names, 0⟩ := by
  induction names generalizing p node with
  | nil =>
    cases h
    refine ⟨rfl, ?_⟩
    rw [List.append_nil, ← hstands]
  | cons name names ih =>
    rw [List.forall_mem_cons] at hnames
    have hproper := isProper_of_isEntryName hnames.1
    have hdown := node?_down hstands hp name
    cases hc : node.child? name with
    | none => simp [Node.get?, hc] at hfound
    | some c =>
      have hrest : c.get? names = some found := by simpa [Node.get?, hc] using hfound
      rw [hc] at hdown
      cases h with
      | stay _ still _ => exact absurd still (not_or.2 ⟨hproper.nonempty, hproper.notDot⟩)
      | up _ _ => exact absurd rfl hproper.notDotDot
      | link _ _ _ _ hnode _ =>
        obtain rfl := Option.some.inj (hdown.symm.trans hnode)
        cases names with
        | nil => exact absurd (Option.some.inj hrest).symm (hlink _)
        | cons => exact absurd (Node.isDir_of_get? hrest) (by simp [Node.isDir])
      | down _ _ _ _ _ _ next =>
        obtain ⟨hleft, hend⟩ := ih next hstands hdown hnames.2 hrest
        exact ⟨hleft, by simpa [Place.down] using hend⟩

/-- Following names down to what stands there ends there: at a link if the path is followed for what
stands under it, and else at what is no link. -/
theorem follow_down {fs : FileSystem} {purpose : Purpose} {links : Nat} {names : List Bytes}
    {p r : Place} {node found : Node} (hpurpose : purpose ≠ .creation) (hstands : p.removed = 0)
    (hp : fs.node? p = some node) (hnames : ∀ s ∈ names, isEntryName s = true)
    (hfound : node.get? names = some found)
    (hend : purpose = .itself ∨ ∀ target, found ≠ .link target)
    (h : fs.follow purpose links names p = .ok r) : r = ⟨p.names ++ names, 0⟩ := by
  induction names generalizing p node with
  | nil =>
    rw [follow] at h
    rw [← Except.ok.inj h, List.append_nil, ← hstands]
  | cons name names ih =>
    rw [List.forall_mem_cons] at hnames
    have hproper := isProper_of_isEntryName hnames.1
    have hdir : fs.isDirAt p = true := by simp [isDirAt, hp, Node.isDir_of_get? hfound]
    have hdown := node?_down hstands hp name
    cases hc : node.child? name with
    | none => simp [Node.get?, hc] at hfound
    | some c =>
      have hrest : c.get? names = some found := by simpa [Node.get?, hc] using hfound
      rw [hc] at hdown
      by_cases hshort : name.length ≤ maxNameLength
      · rw [follow_proper hpurpose hdir hproper hstands hshort, hdown] at h
        cases c with
        | link target =>
          cases names with
          | nil =>
            have hitself : purpose = .itself :=
              hend.resolve_right fun hlink => hlink target (Option.some.inj hrest).symm
            simpa [hitself, Place.down, hstands] using h.symm
          | cons => exact absurd (Node.isDir_of_get? hrest) (by simp [Node.isDir])
        | _ =>
          have hstill : (p.down name).removed = 0 := hstands
          simpa [Place.down] using ih hstill hdown hnames.2 hrest h
      · rw [follow, if_neg (by simp [hdir]), if_neg (by simp [hproper.nonempty, hproper.notDot]),
          if_neg (by simpa using hproper.notDotDot), if_neg (by simp [hpurpose]),
          if_neg (by simp [hstands]), if_pos (by omega)] at h
        cases h

/-! ### Steps of a spelled path -/

theorem pathSteps_spell (rooted : Bool) {ns : List Bytes} (h : ∀ s ∈ ns, Path.IsStep s)
    (hne : rooted = true ∨ ns ≠ []) : pathSteps (Path.spell rooted ns) = ns := by
  by_cases hns : ns = []
  · obtain rfl : rooted = true := hne.resolve_right (by simp [hns])
    subst hns
    decide
  · have hsplit : ((Path.spell rooted ns).splitAt Path.slash).filter (!·.isEmpty) = ns := by
      have hjoin :
          ((Bytes.joinWith Path.slash ns).splitAt Path.slash).filter (!·.isEmpty) = ns := by
        rw [Bytes.splitAt_joinWith hns fun s hs => (h s hs).plain, List.filter_eq_self]
        intro s hs
        simpa using (h s hs).nonempty
      cases rooted with
      | false => simpa [Path.spell, hns] using hjoin
      | true =>
        have hroot : Bytes.splitAt Path.slash (Path.slash :: Bytes.joinWith Path.slash ns) =
            [] :: Bytes.splitAt Path.slash (Bytes.joinWith Path.slash ns) :=
          Bytes.splitAt_append_cons Path.slash [] _
        simpa [Path.spell, hroot] using hjoin
    have hlast : (Path.spell rooted ns).getLast? ≠ some Path.slash := by
      rw [← List.dropLast_concat_getLast hns]
      exact Path.getLast?_spell_concat rooted _ (h _ (List.getLast_mem hns))
    unfold pathSteps
    simp only [hsplit, hlast, false_and, if_false]

theorem filter_pathSteps (path : Bytes) :
    (pathSteps path).filter (fun s => !s.isEmpty && s != Path.dot) = Path.names path := by
  have hfilter : ((path.splitAt Path.slash).filter (!·.isEmpty)).filter
      (fun s => !s.isEmpty && s != Path.dot) = Path.names path := by
    rw [List.filter_filter, Path.names]
    refine List.filter_congr fun s _ => ?_
    cases s.isEmpty <;> simp
  unfold pathSteps
  dsimp only
  split
  · rw [List.filter_append, hfilter]
    simp
  · exact hfilter

theorem pathSteps_clean (path : Bytes) :
    pathSteps (Path.clean path) = Path.steps path ∨
      Path.steps path = [] ∧ pathSteps (Path.clean path) = [Path.dot] := by
  by_cases hdot : Path.isRooted path = true ∨ Path.steps path ≠ []
  · exact .inl (pathSteps_spell _ (fun s hs => Path.isStep_of_mem_steps hs) hdot)
  · rw [not_or, Bool.not_eq_true, Decidable.not_not] at hdot
    refine .inr ⟨hdot.2, ?_⟩
    rw [Path.clean_eq_spell, hdot.1, hdot.2]
    decide

/-! ### Where cleaned paths lead -/

theorem locate_eq_ok_iff {fs : FileSystem} {purpose : Purpose} {path : Bytes} {p : Place} :
    fs.locate purpose path = .ok p ↔
      0 ∉ path ∧ path ≠ [] ∧ path.length < maxPathLength ∧
        fs.follow purpose maxLinks (pathSteps path) (startOf fs.here path) = .ok p := by
  unfold locate
  by_cases hzero : 0 ∈ path
  · simp [hzero]
  · by_cases hempty : path = []
    · simp [hempty]
    · by_cases hlong : maxPathLength ≤ path.length
      · simp [hzero, hempty, hlong, Nat.not_lt.2 hlong]
      · simp [hzero, hempty, hlong, Nat.lt_of_not_le hlong]

/-- Cleaning the path does not lead elsewhere: no step up takes a name back, or the cleaned path
leads to the same place. -/
def CleansTo (fs : FileSystem) (path : Bytes) (p : Place) : Prop :=
  Path.steps path = Path.names path ∨ fs.locate .destination (Path.clean path) = .ok p

theorem exists_way_clean {fs : FileSystem} {path : Bytes} {p : Place}
    (h : fs.locate .destination (Path.clean path) = .ok p) :
    ∃ m, Way fs maxLinks (Path.steps path) (startOf fs.here path) m p := by
  obtain ⟨-, -, -, hfollow⟩ := locate_eq_ok_iff.1 h
  obtain ⟨m, hway⟩ := exists_way hfollow (by simp) (.inl rfl)
  rw [startOf, Path.isRooted_clean] at hway
  refine ⟨m, ?_⟩
  rcases pathSteps_clean path with hsteps | ⟨hnil, hsteps⟩
  · rwa [hsteps] at hway
  · rw [hsteps] at hway
    rw [hnil]
    exact hway.of_still (.inr rfl)

/-- Where the steps of a path lead that are left once it is cleaned, the cleaned path leads. -/
theorem Way.locate_clean {fs : FileSystem} {path : Bytes} {m : Nat} {p : Place}
    (h : Way fs maxLinks (Path.steps path) (startOf fs.here path) m p) (hdir : fs.isDirAt p = true)
    (hzero : 0 ∉ Path.clean path) (hshort : (Path.clean path).length < maxPathLength) :
    fs.locate .destination (Path.clean path) = .ok p := by
  have hstart : startOf fs.here (Path.clean path) = startOf fs.here path := by
    rw [startOf, Path.isRooted_clean, startOf]
  refine locate_eq_ok_iff.2 ⟨hzero, ?_, hshort, ?_⟩
  · exact Path.spell_ne_nil _ fun s hs => Path.isStep_of_mem_steps hs
  · rw [hstart]
    rcases pathSteps_clean path with hspelled | ⟨hnil, hspelled⟩
    · rw [hspelled, h.follow_eq]
    · rw [hnil] at h
      cases h
      rw [hspelled, follow_stay hdir (.inr rfl), follow]

/-- A path along which no step up takes a name back leads to the same directory once it is
cleaned. -/
theorem locate_clean {fs : FileSystem} {path : Bytes} {p : Place}
    (h : fs.locate .itself path = .ok p) (hdir : fs.isDirAt p = true)
    (hclean : fs.CleansTo path p) : fs.locate .destination (Path.clean path) = .ok p := by
  rcases hclean with hsteps | hclean
  · obtain ⟨hzero, hne, hshort, hfollow⟩ := locate_eq_ok_iff.1 h
    obtain ⟨m, hway⟩ := exists_way hfollow (by simp) (.inr hdir)
    have hnames : Way fs maxLinks (Path.steps path) (startOf fs.here path) m p := by
      rw [hsteps, ← filter_pathSteps]
      exact Way.drop_still [] hway
    refine hnames.locate_clean hdir ?_ ?_
    · intro hmem
      exact Path.forall_mem_clean (P := (· ≠ 0)) (by decide) (by decide)
        (fun b hb heq => hzero (heq ▸ hb)) 0 hmem rfl
    · exact Nat.lt_of_le_of_lt (Path.length_clean_le hne hsteps) hshort
  · exact hclean

/-- What a path below another leads to is led to from where the other leads once it is cleaned. -/
theorem exists_way_under {fs : FileSystem} {path : Bytes} {rel : List Bytes} {r : Place}
    (hpath : path ≠ []) (hne : rel ≠ []) (hrel : ∀ s ∈ rel, isEntryName s = true)
    (h : fs.locate .destination (Path.under path rel) = .ok r) :
    ∃ q n m, fs.locate .destination (Path.clean path) = .ok q ∧ Way fs n rel q m r := by
  obtain ⟨hzero, -, hshort, hfollow⟩ := locate_eq_ok_iff.1 h
  have hsteps := Path.isStep_of_mem_under path hrel
  have hspelled := Path.under_eq_spell hpath hrel
  rw [hspelled, pathSteps_spell _ hsteps (.inr (by simp [hne])), startOf,
    Path.isRooted_spell _ hsteps] at hfollow
  obtain ⟨m, hway⟩ := exists_way hfollow (by simp) (.inl rfl)
  obtain ⟨n, q, hfront, hback⟩ := hway.split
  refine ⟨q, n, m, hfront.locate_clean ?_ ?_ ?_, hback⟩
  · cases hback with
    | done => exact absurd rfl hne
    | stay directory _ _ => exact directory
    | up directory _ => exact directory
    | link directory _ _ _ _ _ => exact directory
    | down directory _ _ _ _ _ _ => exact directory
  · have hnames := Path.forall_mem_names (P := (· ≠ 0)) fun b hb heq => hzero (heq ▸ hb)
    rw [hspelled, Path.names_spell _ hsteps] at hnames
    intro hmem
    rw [Path.clean_eq_spell] at hmem
    exact Path.forall_mem_spell (P := (· ≠ 0)) (by decide) (by decide)
      (fun s hs => hnames s (List.mem_append_left _ hs)) 0 hmem rfl
  · exact Nat.lt_of_le_of_lt (Path.length_clean_le_under hpath hrel) hshort

/-- Below a cleaned path, what stands under names is looked for from where the path leads. -/
theorem exists_locate_under {fs : FileSystem} {path : Bytes} {p : Place} (hpath : path ≠ [])
    (h : fs.locate .destination (Path.clean path) = .ok p) :
    ∃ left, ∀ purpose ≠ Purpose.creation, ∀ rel ≠ [], (∀ s ∈ rel, isEntryName s = true) →
      0 ∉ Path.under path rel → (Path.under path rel).length < maxPathLength →
      fs.locate purpose (Path.under path rel) = fs.follow purpose left rel p := by
  obtain ⟨left, hway⟩ := exists_way_clean h
  refine ⟨left, fun purpose hpurpose rel hne hrel hzero hshort => ?_⟩
  have hsteps := Path.isStep_of_mem_under path hrel
  rw [Path.under_eq_spell hpath hrel] at hzero hshort ⊢
  have hfollow := hway.follow_append hpurpose rel (.inr hne)
  rw [locate, if_neg (by simpa using hzero),
    if_neg (by simpa using Path.spell_ne_nil _ hsteps), if_neg (by omega),
    pathSteps_spell _ hsteps (.inr (by simp [hne])), startOf, Path.isRooted_spell _ hsteps]
  exact hfollow

end FileSystem

end HelperImports
