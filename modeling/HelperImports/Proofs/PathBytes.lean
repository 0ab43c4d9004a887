import HelperImports.Path.Specifier

/-! The bytes of computed paths. A path that is cleaned, joined or made absolute has no bytes but
those of the paths it was made from, slashes and dots. The way from one directory to another has
only bytes of the second, so the specifier of a module has none of the importing file's path. -/

namespace HelperImports

variable {P : UInt8 → Prop}

theorem forall_mem_of_mem_splitAt {mark : UInt8} {text piece : Bytes} (h : ∀ b ∈ text, P b)
    (hp : piece ∈ text.splitAt mark) : ∀ b ∈ piece, P b := by
  induction text generalizing piece with
  | nil =>
    obtain rfl : piece = [] := by simpa [Bytes.splitAt] using hp
    simp
  | cons a rest ih =>
    rw [List.forall_mem_cons] at h
    have ih : ∀ piece ∈ Bytes.splitAt mark rest, ∀ b ∈ piece, P b :=
      fun _ hp => ih h.2 hp
    rw [Bytes.splitAt] at hp
    split at hp
    · rcases List.mem_cons.1 hp with rfl | hp
      · simp
      · exact ih piece hp
    · split at hp
      · obtain rfl : piece = [a] := by simpa using hp
        simpa using h.1
      · rename_i first pieces hs
        rcases List.mem_cons.1 hp with rfl | hp
        · exact List.forall_mem_cons.2 ⟨h.1, ih first (by simp [hs])⟩
        · exact ih piece (by simp [hs, hp])

theorem forall_mem_joinWith {mark : UInt8} (hmark : P mark) {pieces : List Bytes}
    (h : ∀ piece ∈ pieces, ∀ b ∈ piece, P b) : ∀ b ∈ Bytes.joinWith mark pieces, P b := by
  unfold Bytes.joinWith
  induction pieces with
  | nil => simp
  | cons first pieces ih =>
    rw [List.forall_mem_cons] at h
    cases pieces with
    | nil => simpa using h.1
    | cons second pieces =>
      intro b hb
      rw [List.intercalate_cons_cons, List.mem_append, List.mem_append] at hb
      rcases hb with (hb | hb) | hb
      · exact h.1 b hb
      · rw [List.mem_singleton.1 hb]
        exact hmark
      · exact ih h.2 b hb

namespace Path

variable (hslash : P slash) (hdot : P 0x2E)

theorem forall_mem_names {path : Bytes} (h : ∀ b ∈ path, P b) :
    ∀ name ∈ names path, ∀ b ∈ name, P b := by
  intro name hn
  exact forall_mem_of_mem_splitAt h (List.mem_filter.1 hn).1

include hdot

theorem forall_mem_dot : ∀ b ∈ dot, P b := by
  intro b hb
  obtain rfl : b = 0x2E := by simpa [show dot = [0x2E] by decide] using hb
  exact hdot

theorem forall_mem_dotDot : ∀ b ∈ dotDot, P b := by
  intro b hb
  obtain rfl : b = 0x2E := by simpa [show dotDot = [0x2E, 0x2E] by decide] using hb
  exact hdot

theorem forall_mem_step {rooted : Bool} {back : List Bytes} {name : Bytes}
    (hback : ∀ n ∈ back, ∀ b ∈ n, P b) (hname : ∀ b ∈ name, P b) :
    ∀ n ∈ step rooted back name, ∀ b ∈ n, P b := by
  have hdots := forall_mem_dotDot hdot
  unfold step
  intro n hn
  split at hn
  · split at hn
    · split at hn
      · simp at hn
      · rw [List.mem_singleton.1 hn]
        exact hdots
    · rename_i last rest
      split at hn
      · rcases List.mem_cons.1 hn with rfl | hn
        · exact hdots
        · exact hback n hn
      · exact hback n (List.mem_cons_of_mem last hn)
  · rcases List.mem_cons.1 hn with rfl | hn
    · exact hname
    · exact hback n hn

theorem forall_mem_resolved {rooted : Bool} {ns : List Bytes} (h : ∀ n ∈ ns, ∀ b ∈ n, P b) :
    ∀ n ∈ resolved rooted ns, ∀ b ∈ n, P b := by
  have hfold : ∀ back : List Bytes, (∀ n ∈ back, ∀ b ∈ n, P b) →
      ∀ n ∈ ns.foldl (step rooted) back, ∀ b ∈ n, P b := by
    induction ns with
    | nil => exact fun back hback => hback
    | cons name ns ih =>
      intro back hback
      rw [List.forall_mem_cons] at h
      exact ih h.2 _ (forall_mem_step hdot hback h.1)
  intro n hn
  exact hfold [] (by simp) n (by simpa [resolved] using hn)

include hslash

theorem forall_mem_spell {rooted : Bool} {ns : List Bytes} (h : ∀ n ∈ ns, ∀ b ∈ n, P b) :
    ∀ b ∈ spell rooted ns, P b := by
  have hjoin := forall_mem_joinWith hslash h
  unfold spell
  simp only
  split
  · exact List.forall_mem_cons.2 ⟨hslash, hjoin⟩
  · split
    · exact forall_mem_dot hdot
    · exact hjoin

theorem forall_mem_clean {path : Bytes} (h : ∀ b ∈ path, P b) : ∀ b ∈ clean path, P b :=
  forall_mem_spell hslash hdot (forall_mem_resolved hdot (forall_mem_names h))

theorem forall_mem_join {parts : List Bytes} (h : ∀ part ∈ parts, ∀ b ∈ part, P b) :
    ∀ b ∈ join parts, P b := by
  unfold join
  split
  · simp
  · refine forall_mem_clean hslash hdot (forall_mem_joinWith hslash fun part hpart => ?_)
    exact h part ((List.dropWhile_sublist _).subset hpart)

theorem forall_mem_absolute {here : Except ε Bytes} {path target : Bytes}
    (hhere : ∀ dir, here = .ok dir → ∀ b ∈ dir, P b) (h : ∀ b ∈ path, P b)
    (habs : absolute here path = .ok target) : ∀ b ∈ target, P b := by
  unfold absolute at habs
  split at habs
  · cases habs
    exact forall_mem_clean hslash hdot h
  · cases here with
    | error e => cases habs
    | ok dir =>
      cases habs
      refine forall_mem_join hslash hdot fun part hpart => ?_
      rcases List.mem_cons.1 hpart with rfl | hpart
      · exact hhere part rfl
      · rw [List.mem_singleton.1 hpart]
        exact h

omit hslash in
theorem forall_mem_route {as bs : List Bytes} (h : ∀ n ∈ bs, ∀ b ∈ n, P b) :
    ∀ n ∈ route as bs, ∀ b ∈ n, P b := by
  have hdots := forall_mem_dotDot hdot
  fun_induction route as bs with
  | case1 a as bs ih => exact ih (List.forall_mem_cons.1 h).2
  | case2 a as b bs hne =>
    intro n hn
    rcases List.mem_append.1 hn with hn | hn
    · obtain ⟨-, -, rfl⟩ := List.mem_map.1 hn
      exact hdots
    · exact h n hn
  | case3 as bs hne =>
    intro n hn
    rcases List.mem_append.1 hn with hn | hn
    · obtain ⟨-, -, rfl⟩ := List.mem_map.1 hn
      exact hdots
    · exact h n hn

theorem forall_mem_relative {base target : Bytes} (h : ∀ b ∈ target, P b) :
    ∀ b ∈ relative base target, P b :=
  forall_mem_spell hslash hdot
    (forall_mem_route hdot (forall_mem_resolved hdot (forall_mem_names h)))

end Path

theorem Specifier.exists_absolute_of_between {here : Except ε Bytes} {dir module specifier : Bytes}
    (h : between here dir module = .ok specifier) :
    ∃ base target, Path.absolute here dir = .ok base ∧ Path.absolute here module = .ok target ∧
      specifier = ofPath (Path.relative base target) := by
  unfold between at h
  cases hbase : Path.absolute here dir with
  | error f => simp [hbase, bind, Except.bind] at h
  | ok base =>
    cases htarget : Path.absolute here module with
    | error f => simp [hbase, htarget, bind, Except.bind] at h
    | ok target =>
      refine ⟨base, target, rfl, rfl, ?_⟩
      simpa [hbase, htarget, bind, Except.bind, pure, Except.pure] using h.symm

/-- The bytes of a specifier are those of the module's path and the working directory, but for
slashes and dots. -/
theorem Specifier.forall_mem_between (hslash : P Path.slash) (hdot : P 0x2E)
    {here : Except ε Bytes} {dir module specifier : Bytes}
    (hhere : ∀ wd, here = .ok wd → ∀ b ∈ wd, P b) (hmodule : ∀ b ∈ module, P b)
    (h : between here dir module = .ok specifier) : ∀ b ∈ specifier, P b := by
  obtain ⟨base, target, -, htarget, rfl⟩ := exists_absolute_of_between h
  have hrel : ∀ b ∈ Path.relative base target, P b :=
    Path.forall_mem_relative hslash hdot
      (Path.forall_mem_absolute hslash hdot hhere hmodule htarget)
  have hmap : ∀ b ∈ (Path.relative base target).map
      fun b => if b = 0x5C then Path.slash else b, P b := by
    intro b hb
    obtain ⟨c, hc, rfl⟩ := List.mem_map.1 hb
    split
    · exact hslash
    · exact hrel c hc
  unfold ofPath
  simp only
  split
  · exact hmap
  · intro b hb
    rcases List.mem_append.1 hb with hb | hb
    · rw [show bytes "./" = [0x2E, Path.slash] by decide] at hb
      simp only [List.mem_cons, List.not_mem_nil, or_false] at hb
      rcases hb with rfl | rfl
      · exact hdot
      · exact hslash
    · exact hmap b hb

end HelperImports
