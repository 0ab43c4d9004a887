import Mathlib
import HelperImports.Proofs.Route

/-! A project can be moved. Between two paths that stay below the working directory the specifier is
the same wherever that directory lies: a path that takes back no step but its own adds its steps to
any directory, so both paths pass the whole working directory before they part. -/

namespace HelperImports

namespace Path

/-! ### Steps of a relative path -/

/-- What one step does to a relative path, given last name first. -/
theorem step_cases (back : List Bytes) (name : Bytes) :
    (name ≠ dotDot ∧ step false back name = name :: back) ∨
    (name = dotDot ∧ ∃ last rest, back = last :: rest ∧ last ≠ dotDot ∧
      step false back name = rest) ∨
    (name = dotDot ∧ (∀ last ∈ back.head?, last = dotDot) ∧
      step false back name = dotDot :: back) := by
  by_cases hname : name = dotDot
  · cases back with
    | nil => exact .inr (.inr ⟨hname, by simp, by simp [step, hname]⟩)
    | cons last rest =>
      by_cases hlast : last = dotDot
      · exact .inr (.inr ⟨hname, by simp [hlast], by simp [step, hname, hlast]⟩)
      · exact .inr (.inl ⟨hname, last, rest, rfl, hlast, by simp [step, hname, hlast]⟩)
  · exact .inl ⟨hname, by simp [step, hname]⟩

theorem dotDot_mem_step {back : List Bytes} (name : Bytes) (h : dotDot ∈ back) :
    dotDot ∈ step false back name := by
  rcases step_cases back name with ⟨-, hstep⟩ | ⟨-, last, rest, rfl, hlast, hstep⟩ | ⟨-, -, hstep⟩
  · rw [hstep]
    exact List.mem_cons_of_mem name h
  · rw [hstep]
    rcases List.mem_cons.1 h with heq | hmem
    · exact absurd heq.symm hlast
    · exact hmem
  · rw [hstep]
    exact List.mem_cons_self

theorem dotDot_mem_foldl_step (ns : List Bytes) {back : List Bytes} (h : dotDot ∈ back) :
    dotDot ∈ ns.foldl (step false) back := by
  induction ns generalizing back with
  | nil => exact h
  | cons name ns ih => exact ih (dotDot_mem_step name h)

theorem getLast?_step {back : List Bytes} (name : Bytes)
    (h : dotDot ∈ back → back.getLast? = some dotDot) (hmem : dotDot ∈ step false back name) :
    (step false back name).getLast? = some dotDot := by
  rcases step_cases back name with
    ⟨hname, hstep⟩ | ⟨-, last, rest, rfl, -, hstep⟩ | ⟨-, hhead, hstep⟩
  · rw [hstep] at hmem ⊢
    rcases List.mem_cons.1 hmem with heq | hmem
    · exact absurd heq.symm hname
    · rw [List.getLast?_cons, h hmem]
      rfl
  · rw [hstep] at hmem ⊢
    have hlast := h (List.mem_cons_of_mem last hmem)
    rwa [List.getLast?_cons_of_ne_nil (List.ne_nil_of_mem hmem)] at hlast
  · rw [hstep]
    cases back with
    | nil => rfl
    | cons last rest =>
      have hback := h (by rw [hhead last rfl]; exact List.mem_cons_self)
      rw [List.getLast?_cons, hback]
      rfl

theorem getLast?_foldl_step (ns : List Bytes) {back : List Bytes}
    (h : dotDot ∈ back → back.getLast? = some dotDot)
    (hmem : dotDot ∈ ns.foldl (step false) back) :
    (ns.foldl (step false) back).getLast? = some dotDot := by
  induction ns generalizing back with
  | nil => exact h hmem
  | cons name ns ih => exact ih (getLast?_step name h) hmem

/-- Steps up that are left in a relative path stand at its front. -/
theorem head?_resolved_of_mem {ns : List Bytes} (h : dotDot ∈ resolved false ns) :
    (resolved false ns).head? = some dotDot := by
  unfold resolved at h ⊢
  rw [List.head?_reverse]
  exact getLast?_foldl_step ns (fun hmem => absurd hmem List.not_mem_nil) (List.mem_reverse.1 h)

/-- Steps that take back nothing but their own are taken alike behind any others. -/
theorem foldl_step_append {rooted : Bool} {ns back : List Bytes} (base : List Bytes)
    (h : dotDot ∉ ns.foldl (step false) back) :
    ns.foldl (step rooted) (back ++ base) = ns.foldl (step false) back ++ base := by
  induction ns generalizing back with
  | nil => rfl
  | cons name ns ih =>
    -- A step up that is left behind one step is left behind all.
    have hstays : dotDot ∉ step false back name := fun hmem => h (dotDot_mem_foldl_step ns hmem)
    have hstep : step rooted (back ++ base) name = step false back name ++ base := by
      rcases step_cases back name with
        ⟨hname, heq⟩ | ⟨hname, last, rest, rfl, hlast, heq⟩ | ⟨-, -, heq⟩
      · rw [heq]
        simp [step, hname]
      · rw [heq]
        simp [step, hname, hlast]
      · rw [heq] at hstays
        exact absurd List.mem_cons_self hstays
    rw [List.foldl_cons, List.foldl_cons, hstep]
    exact ih h

theorem resolved_append_of_below {rooted : Bool} (ns : List Bytes) {ms : List Bytes}
    (h : dotDot ∉ resolved false ms) :
    resolved rooted (ns ++ ms) = resolved rooted ns ++ resolved false ms := by
  rw [resolved, List.mem_reverse] at h
  have hfold : ms.foldl (step rooted) (ns.foldl (step rooted) []) =
      ms.foldl (step false) [] ++ ns.foldl (step rooted) [] := foldl_step_append _ h
  rw [resolved, List.foldl_append, hfold, List.reverse_append]
  rfl

/-! ### Paths that stay below -/

/-- A relative path that, once cleaned, does not begin with a step up. -/
structure StaysBelow (path : Bytes) : Prop where
  relative : isRooted path = false
  below : (names (clean path)).head? ≠ some dotDot

theorem StaysBelow.dotDot_notMem {path : Bytes} (h : StaysBelow path) :
    dotDot ∉ resolved false (names path) := by
  intro hmem
  apply h.below
  rw [names_clean, steps, h.relative]
  exact head?_resolved_of_mem hmem

/-- Behind a directory, a path that stays below it adds its own steps. -/
theorem StaysBelow.names_clean_append {wd path : Bytes} (h : StaysBelow path)
    (hwd : isRooted wd = true) :
    names (clean (wd ++ slash :: path)) = names (clean wd) ++ names (clean path) := by
  calc names (clean (wd ++ slash :: path))
    _ = resolved true (names wd ++ names path) := by
      rw [names_clean, steps, isRooted_append hwd, names_append_cons]
    _ = resolved true (names wd) ++ resolved false (names path) :=
      resolved_append_of_below _ h.dotDot_notMem
    _ = names (clean wd) ++ names (clean path) := by
      rw [names_clean, names_clean, steps, steps, hwd, h.relative]

theorem route_append_left (common as bs : List Bytes) :
    route (common ++ as) (common ++ bs) = route as bs := by
  induction common with
  | nil => rfl
  | cons c common ih => rw [List.cons_append, List.cons_append, route, if_pos rfl, ih]

end Path

namespace Specifier

open HelperImports.Path

/-! ### Where the project lies -/

/-- Between paths that stay below the working directory, the specifier is that of the way from one
to the other, and the working directory has no part in it. -/
theorem between_of_staysBelow {wd dir module : Bytes} (hwd : isRooted wd = true)
    (hdir : StaysBelow dir) (hmodule : StaysBelow module) :
    between (.ok wd : Except ε Bytes) dir module =
      .ok (ofPath (spell false (route (names (clean dir)) (names (clean module))))) := by
  have hway : relative (clean (wd ++ slash :: dir)) (clean (wd ++ slash :: module)) =
      spell false (route (names (clean dir)) (names (clean module))) := by
    rw [relative_clean (isRooted_append hwd _) (isRooted_append hwd _),
      hdir.names_clean_append hwd, hmodule.names_clean_append hwd, route_append_left]
  simp [between, absolute_of_not_rooted hwd hdir.relative,
    absolute_of_not_rooted hwd hmodule.relative, hway, bind, Except.bind, pure, Except.pure]

/-- The specifier does not depend on where the project lies: between two paths that stay below the
working directory it is one and the same from any two working directories, told by the two paths
alone. -/
theorem between_relocates {dir module : Bytes} (hdir : StaysBelow dir)
    (hmodule : StaysBelow module) (here there : Bytes) (hhere : isRooted here = true)
    (hthere : isRooted there = true) :
    let specifier := ofPath (spell false (route (names (clean dir)) (names (clean module))))
    between (.ok here : Except Fault Bytes) dir module = .ok specifier ∧
      between (.ok there : Except Fault Bytes) dir module = .ok specifier := by
  intro specifier
  exact ⟨between_of_staysBelow hhere hdir hmodule, between_of_staysBelow hthere hdir hmodule⟩

/-- The root, and a directory that has the names of the project itself. -/
theorem between_relocates_sameNames :
    let dir := bytes "a//src/../ui/."
    let module := bytes "./a/lib"
    StaysBelow dir ∧ StaysBelow module ∧
      between (.ok (bytes "/") : Except Fault Bytes) dir module = .ok (bytes "../lib") ∧
      between (.ok (bytes "/a/ui/a") : Except Fault Bytes) dir module = .ok (bytes "../lib") := by
  intro dir module
  have hdir : StaysBelow dir := ⟨by decide, by decide⟩
  have hmodule : StaysBelow module := ⟨by decide, by decide⟩
  obtain ⟨hroot, hdeep⟩ :=
    between_relocates hdir hmodule (bytes "/") (bytes "/a/ui/a") (by decide) (by decide)
  have hway : ofPath (spell false (route (names (clean dir)) (names (clean module)))) =
      bytes "../lib" := by decide
  rw [hway] at hroot hdeep
  exact ⟨hdir, hmodule, hroot, hdeep⟩

end Specifier

end HelperImports
