import Mathlib
import HelperImports.Proofs.PathBytes
import HelperImports.Proofs.PathNames
import HelperImports.Proofs.Position

/-! The specifier leads to the module by the shortest route: up from the importing file's directory
to the last directory that both paths pass, then down to the module. Paths part between names, never
inside one, so a name that only begins like another is another name. -/

namespace HelperImports

namespace Path

/-! ### Where two paths part -/

/-- Two lists of steps part behind `common`, the longest beginning of both; `up` and `down` are what
is left of them. -/
structure Parting (as bs common up down : List Bytes) : Prop where
  left : as = common ++ up
  right : bs = common ++ down
  longest : ∀ c, c <+: as → c <+: bs → c <+: common

theorem Parting.of_cons_ne {a b : Bytes} (as bs : List Bytes) (h : a ≠ b) :
    Parting (a :: as) (b :: bs) [] (a :: as) (b :: bs) := by
  refine ⟨rfl, rfl, fun c hleft hright => ?_⟩
  cases c with
  | nil => exact List.nil_prefix
  | cons x c =>
    have hxa := (List.cons_prefix_cons.1 hleft).1
    have hxb := (List.cons_prefix_cons.1 hright).1
    exact absurd (hxa.symm.trans hxb) h

theorem Parting.cons {as bs common up down : List Bytes} (h : Parting as bs common up down)
    (a : Bytes) : Parting (a :: as) (a :: bs) (a :: common) up down := by
  refine ⟨by rw [h.left, List.cons_append], by rw [h.right, List.cons_append],
    fun c hleft hright => ?_⟩
  cases c with
  | nil => exact List.nil_prefix
  | cons x c =>
    obtain ⟨hx, hleft⟩ := List.cons_prefix_cons.1 hleft
    exact List.cons_prefix_cons.2
      ⟨hx, h.longest c hleft (List.cons_prefix_cons.1 hright).2⟩

/-- A route is one step up for each step that is left of the first path, and then what is left of
the second. -/
theorem exists_parting (as bs : List Bytes) :
    ∃ common up down, Parting as bs common up down ∧
      route as bs = List.replicate up.length dotDot ++ down := by
  fun_induction route as bs with
  | case1 as b bs ih =>
    obtain ⟨common, up, down, hparting, hroute⟩ := ih
    exact ⟨b :: common, up, down, hparting.cons b, hroute⟩
  | case2 a as b bs hne =>
    refine ⟨[], a :: as, b :: bs, .of_cons_ne as bs hne, ?_⟩
    rw [List.map_const']
  | case3 as bs hends =>
    -- One of the two ends here, so they have no more in common.
    refine ⟨[], as, bs, ⟨rfl, rfl, fun c hleft hright => ?_⟩, by rw [List.map_const']⟩
    cases as with
    | nil => exact hleft
    | cons a as =>
      cases bs with
      | nil => exact hright
      | cons b bs => exact absurd rfl (hends a as b bs rfl)

theorem route_self (as : List Bytes) : route as as = [] := by
  induction as with
  | nil => rfl
  | cons a as ih => rw [route, if_pos rfl, ih]

/-! ### Following a route -/

theorem foldl_step_replicate {rooted : Bool} {up : List Bytes} (h : dotDot ∉ up)
    (back : List Bytes) :
    (List.replicate up.length dotDot).foldl (step rooted) (up ++ back) = back := by
  induction up with
  | nil => rfl
  | cons last up ih =>
    simp only [List.mem_cons, not_or] at h
    have hstep : step rooted (last :: up ++ back) dotDot = up ++ back := by
      simp [step, Ne.symm h.1]
    rw [List.length_cons, List.replicate_succ, List.foldl_cons, hstep, ih h.2]

/-- The steps up of a route take back what is left of the first path. -/
theorem resolved_parting {as bs common up down : List Bytes} {rooted : Bool}
    (h : Parting as bs common up down) (has : dotDot ∉ as) (hbs : dotDot ∉ bs) :
    resolved rooted (as ++ (List.replicate up.length dotDot ++ down)) = bs := by
  have hup : dotDot ∉ up.reverse := by
    intro hmem
    rw [h.left] at has
    exact has (List.mem_append_right common (List.mem_reverse.1 hmem))
  have hdown : dotDot ∉ down := by
    intro hmem
    rw [h.right] at hbs
    exact hbs (List.mem_append_right common hmem)
  have hback :
      (List.replicate up.length dotDot).foldl (step rooted) as.reverse = common.reverse := by
    have hlength : up.length = up.reverse.length := List.length_reverse.symm
    rw [h.left, List.reverse_append, hlength, foldl_step_replicate hup]
  rw [← List.append_assoc, resolved_append hdown, resolved, List.foldl_append, foldl_step has,
    List.append_nil, hback, List.reverse_reverse, h.right]

/-! ### Absolute paths -/

theorem isEntryName_of_mem_clean {path n : Bytes} (hrooted : isRooted path = true)
    (h : n ∈ names (clean path)) : isEntryName n = true := by
  rw [names_clean] at h
  refine isEntryName_iff.2 ⟨isStep_of_mem_steps h, ?_⟩
  rintro rfl
  rw [steps, hrooted] at h
  exact dotDot_notMem_resolved _ h

theorem spell_names_clean {path : Bytes} (hrooted : isRooted path = true) :
    spell true (names (clean path)) = clean path := by
  rw [names_clean, clean_eq_spell, hrooted]

theorem ne_nil_of_isRooted {path : Bytes} (h : isRooted path = true) : path ≠ [] := by
  rintro rfl
  exact absurd h (by decide)

theorem isRooted_append {path : Bytes} (h : isRooted path = true) (rest : Bytes) :
    isRooted (path ++ rest) = true := by
  rw [isRooted, head?_append_of_ne_nil (ne_nil_of_isRooted h)]
  exact h

theorem absolute_of_not_rooted {wd path : Bytes} (hwd : isRooted wd = true)
    (hpath : isRooted path = false) :
    absolute (.ok wd : Except ε Bytes) path = .ok (clean (wd ++ slash :: path)) := by
  simp [absolute, hpath, join, ne_nil_of_isRooted hwd, Bytes.joinWith,
    List.intercalate_cons_cons, bind, Except.bind, pure, Except.pure]

/-- Where the working directory is known, a path is made absolute by cleaning it behind that. -/
theorem exists_absolute_eq_clean {wd : Bytes} (hwd : isRooted wd = true) (path : Bytes) :
    ∃ whole, isRooted whole = true ∧
      absolute (.ok wd : Except Fault Bytes) path = .ok (clean whole) := by
  by_cases hpath : isRooted path = true
  · exact ⟨path, hpath, by simp [absolute, hpath]⟩
  · exact ⟨wd ++ slash :: path, isRooted_append hwd _,
      absolute_of_not_rooted hwd (by simpa using hpath)⟩

end Path

namespace Specifier

open HelperImports.Path

/-! ### The text of a specifier -/

/-- The steps that a specifier names, without the dot that stands for the importing file's own
directory. -/
def namedSteps (specifier : Bytes) : List Bytes :=
  Bytes.splitAt slash
    (if (bytes "./").isPrefixOf specifier then specifier.drop 2 else specifier)

theorem ofPath_of_notMem {path : Bytes} (h : 0x5C ∉ path) :
    ofPath path = if path.head? = some 0x2E then path else bytes "./" ++ path := by
  have hmap : (path.map fun b => if b = 0x5C then slash else b) = path := by
    refine (List.map_congr_left fun b hb => ?_).trans (List.map_id path)
    have hkept : b ≠ 0x5C := fun heq => h (heq ▸ hb)
    exact if_neg hkept
  rw [ofPath, hmap]

theorem names_ofPath {path : Bytes} (h : 0x5C ∉ path) : names (ofPath path) = names path := by
  rw [ofPath_of_notMem h]
  split
  · rfl
  · rw [show bytes "./" = dot ++ [slash] by decide, List.append_assoc, List.singleton_append,
      names_append_cons, show names dot = [] by decide, List.nil_append]

theorem namedSteps_ofPath {ns : List Bytes} (hne : ns ≠ []) (hns : ∀ n ∈ ns, IsStep n)
    (h : 0x5C ∉ Bytes.joinWith slash ns) : namedSteps (ofPath (Bytes.joinWith slash ns)) = ns := by
  have hsplit : (Bytes.joinWith slash ns).splitAt slash = ns :=
    Bytes.splitAt_joinWith hne fun n hn => (hns n hn).plain
  rw [ofPath_of_notMem h, namedSteps]
  split
  · -- The path begins with a dot of its own: were a slash to follow, its first step would be a dot.
    rw [if_neg, hsplit]
    intro hdot
    rw [List.isPrefixOf_iff_prefix, show bytes "./" = dot ++ [slash] by decide] at hdot
    obtain ⟨rest, hrest⟩ := hdot
    rw [List.append_assoc, List.singleton_append] at hrest
    rw [← hrest, Bytes.splitAt_append_cons] at hsplit
    have hmem : dot ∈ ns := by
      rw [← hsplit]
      exact List.mem_append_left _ (by decide)
    exact (hns dot hmem).notDot rfl
  · rw [if_pos (by rw [List.isPrefixOf_iff_prefix]; exact List.prefix_append _ _),
      List.drop_left' (by decide), hsplit]

/-! ### The way to the module -/

section

variable {bs ts : List Bytes} (hbs : ∀ n ∈ bs, isEntryName n = true)
  (hts : ∀ n ∈ ts, isEntryName n = true)
include hbs hts

theorem relative_spell : relative (spell true bs) (spell true ts) = spell false (route bs ts) := by
  have hstay : ∀ ns : List Bytes, (∀ n ∈ ns, isEntryName n = true) →
      resolved true (names (spell true ns)) = ns := by
    intro ns hns
    rw [names_spell true fun n hn => (isEntryName_iff.1 (hns n hn)).1]
    exact resolved_of_notMem fun hmem => (isEntryName_iff.1 (hns _ hmem)).2 rfl
  rw [relative, hstay bs hbs, hstay ts hts]

omit hbs in
theorem isStep_of_mem_route : ∀ n ∈ route bs ts, IsStep n := by
  obtain ⟨common, up, down, hparting, hroute⟩ := exists_parting bs ts
  intro n hn
  rw [hroute] at hn
  rcases List.mem_append.1 hn with hn | hn
  · rw [List.eq_of_mem_replicate hn]
    exact isStep_dotDot
  · refine (isEntryName_iff.1 (hts n ?_)).1
    rw [hparting.right]
    exact List.mem_append_right common hn

omit hbs hts in
theorem notMem_spell_route {b : UInt8} (hslash : b ≠ slash) (hdot : b ≠ 0x2E)
    (h : ∀ n ∈ ts, b ∉ n) : b ∉ spell false (route bs ts) := by
  intro hmem
  have hway : ∀ n ∈ route bs ts, ∀ x ∈ n, b ≠ x :=
    forall_mem_route hdot fun n hn x hx heq => h n hn (heq ▸ hx)
  exact forall_mem_spell hslash hdot hway b hmem rfl

/-- Behind the first directory, the specifier of the way to the second leads there. -/
theorem clean_append_ofPath (hplain : ∀ n ∈ ts, 0x5C ∉ n) :
    clean (spell true bs ++ slash :: ofPath (spell false (route bs ts))) = spell true ts := by
  have hsteps : ∀ n ∈ bs, IsStep n := fun n hn => (isEntryName_iff.1 (hbs n hn)).1
  obtain ⟨common, up, down, hparting, hroute⟩ := exists_parting bs ts
  have hrooted :
      isRooted (spell true bs ++ slash :: ofPath (spell false (route bs ts))) = true := by
    rw [isRooted, head?_append_of_ne_nil (spell_ne_nil true hsteps)]
    exact isRooted_spell true hsteps
  have hnames : names (spell true bs ++ slash :: ofPath (spell false (route bs ts))) =
      bs ++ (List.replicate up.length dotDot ++ down) := by
    rw [names_append_cons, names_spell true hsteps,
      names_ofPath (notMem_spell_route (by decide) (by decide) hplain),
      names_spell false (isStep_of_mem_route hts), hroute]
  rw [clean, hrooted, hnames, resolved_parting hparting]
  · exact fun hmem => (isEntryName_iff.1 (hbs _ hmem)).2 rfl
  · exact fun hmem => (isEntryName_iff.1 (hts _ hmem)).2 rfl

omit hbs in
/-- The specifier of the way between two places names the steps of the route. -/
theorem namedSteps_route (hplain : ∀ n ∈ ts, 0x5C ∉ n) (hne : bs ≠ ts) :
    namedSteps (ofPath (spell false (route bs ts))) = route bs ts := by
  have hway : route bs ts ≠ [] := by
    obtain ⟨common, up, down, hparting, hroute⟩ := exists_parting bs ts
    intro hnil
    rw [hroute, List.append_eq_nil_iff, List.replicate_eq_nil_iff, List.length_eq_zero_iff] at hnil
    refine hne ?_
    rw [hparting.left, hparting.right, hnil.1, hnil.2]
  have hjoin : spell false (route bs ts) = Bytes.joinWith slash (route bs ts) := by
    simp [spell, hway]
  have hclear : 0x5C ∉ spell false (route bs ts) :=
    notMem_spell_route (by decide) (by decide) hplain
  rw [hjoin] at hclear ⊢
  exact namedSteps_ofPath hway (isStep_of_mem_route hts) hclear

end

theorem relative_clean {p q : Bytes} (hp : isRooted p = true) (hq : isRooted q = true) :
    relative (clean p) (clean q) = spell false (route (names (clean p)) (names (clean q))) := by
  have hway := relative_spell (fun n => isEntryName_of_mem_clean (n := n) hp)
    (fun n => isEntryName_of_mem_clean (n := n) hq)
  rwa [spell_names_clean hp, spell_names_clean hq] at hway

/-- The specifier leads to the module by the shortest route. Where the working directory is known,
there is one; if no step of the module's path holds a backslash, the cleaned path behind the
directory is that of the module, and the specifier goes up as often as the directory has steps
behind the last that both share, and then down the rest of the module's path, or is a dot if the two
are the same. Where the working directory is not known, there is none if and only if one of the
paths is relative. -/
theorem between_leads (dir module : Bytes) :
    (∀ wd, isRooted wd = true → ∃ base target specifier : Bytes,
      let here : Except Fault Bytes := .ok wd
      absolute here dir = .ok base ∧ absolute here module = .ok target ∧
      between here dir module = .ok specifier ∧
      ((∀ n ∈ names target, 0x5C ∉ n) →
        clean (base ++ slash :: specifier) = target ∧
        (base = target → specifier = dot) ∧
        (base ≠ target → ∃ common up down,
          Parting (names base) (names target) common up down ∧
          namedSteps specifier = List.replicate up.length dotDot ++ down))) ∧
    ∀ f : Fault, (∃ e, between (.error f) dir module = .error e) ↔
      isRooted dir = false ∨ isRooted module = false := by
  refine ⟨fun wd hwd => ?_, fun f => ?_⟩
  · obtain ⟨dirWhole, hdir, hbase⟩ := exists_absolute_eq_clean hwd dir
    obtain ⟨moduleWhole, hmodule, htarget⟩ := exists_absolute_eq_clean hwd module
    have hbs := fun n => isEntryName_of_mem_clean (n := n) hdir
    have hts := fun n => isEntryName_of_mem_clean (n := n) hmodule
    have hway := relative_spell hbs hts
    rw [spell_names_clean hdir, spell_names_clean hmodule] at hway
    refine ⟨_, _, ofPath (relative (clean dirWhole) (clean moduleWhole)), hbase, htarget, ?_,
      fun hplain => ?_⟩
    · simp [between, hbase, htarget, bind, Except.bind, pure, Except.pure]
    rw [hway]
    refine ⟨?_, fun hsame => ?_, fun hother => ?_⟩
    · have hclean := clean_append_ofPath hbs hts hplain
      rwa [spell_names_clean hdir, spell_names_clean hmodule] at hclean
    · rw [hsame, route_self]
      decide
    · obtain ⟨common, up, down, hparting, hroute⟩ :=
        exists_parting (names (clean dirWhole)) (names (clean moduleWhole))
      refine ⟨common, up, down, hparting, ?_⟩
      rw [← hroute]
      refine namedSteps_route hts hplain fun hnames => hother ?_
      rw [← spell_names_clean hdir, hnames, spell_names_clean hmodule]
  · simp [between_eq_error_iff]

/-- The name of the module begins like that of the directory beside it, and is not entered from
there. -/
theorem between_leads_beginsAlike :
    let here : Except Fault Bytes := .ok (bytes "/w")
    between here (bytes "a//utils") (bytes "b/../a/utils2") = .ok (bytes "../utils2") ∧
      clean (bytes "/w/a/utils" ++ slash :: bytes "../utils2") = bytes "/w/a/utils2" ∧
      ∃ common up down,
        Parting (names (bytes "/w/a/utils")) (names (bytes "/w/a/utils2")) common up down ∧
        namedSteps (bytes "../utils2") = List.replicate up.length dotDot ++ down := by
  intro here
  have hdir : absolute here (bytes "a//utils") = .ok (bytes "/w/a/utils") := by cbv
  have hmodule : absolute here (bytes "b/../a/utils2") = .ok (bytes "/w/a/utils2") := by cbv
  have hway : between here (bytes "a//utils") (bytes "b/../a/utils2") =
      .ok (bytes "../utils2") := by cbv
  obtain ⟨hknown, -⟩ := between_leads (bytes "a//utils") (bytes "b/../a/utils2")
  obtain ⟨base, target, specifier, hbase, htarget, hspecifier, hleads⟩ :=
    hknown (bytes "/w") (by decide)
  obtain rfl := Except.ok.inj (hdir.symm.trans hbase)
  obtain rfl := Except.ok.inj (hmodule.symm.trans htarget)
  obtain rfl := Except.ok.inj (hway.symm.trans hspecifier)
  obtain ⟨hclean, -, hsteps⟩ := hleads (by decide)
  exact ⟨hway, hclean, hsteps (by decide)⟩

end Specifier

end HelperImports
