import Mathlib
import HelperImports.Proofs.Forecast
import HelperImports.Proofs.Stopping

/-! Files that are all different can be dealt with in any order. What a run does with a file depends
on that file as it is at the start and on nothing else, apart from the room that is left in the
output; so whether the run succeeds, what it says about each file and what it leaves in each file
are told file by file. -/

namespace HelperImports

namespace FileSystem

theorem Rewritten.refl {fs : FileSystem} {names : List Bytes} {text : Bytes}
    (h : fs.content? names = some text) : fs.Rewritten names text fs where
  alike := Alike.refl fs
  limit := rfl
  content names' := by
    by_cases hnames : names' = names
    · rw [if_pos hnames, hnames, h]
    · rw [if_neg hnames]

/-- `fs'` is as `fs`, as far as the files behind the paths are concerned. -/
structure Agrees (fs : FileSystem) (paths : List Bytes) (fs' : FileSystem) : Prop where
  alike : Alike fs fs'
  limit : fs'.limit = fs.limit
  content : ∀ path ∈ paths, ∀ names, fs.fileNames? path = some names →
    fs'.content? names = fs.content? names

theorem Agrees.refl (fs : FileSystem) (paths : List Bytes) : fs.Agrees paths fs :=
  ⟨Alike.refl fs, rfl, fun _ _ _ _ => rfl⟩

/-- Rewriting the file of the first path, to which no later path leads, is not seen later. -/
theorem Agrees.rewritten {fs fs₁ fs₂ : FileSystem} {path : Bytes} {paths names : List Bytes}
    {text : Bytes} (h : fs.Agrees (path :: paths) fs₁) (hr : fs₁.Rewritten names text fs₂)
    (hlater : ∀ p ∈ paths, fs.fileNames? p ≠ some names) : fs.Agrees paths fs₂ where
  alike := h.alike.trans hr.alike
  limit := hr.limit.trans h.limit
  content p hp names' hnames' := by
    have hne : names' ≠ names := fun heq => hlater p hp (heq ▸ hnames')
    rw [hr.content, if_neg hne]
    exact h.content p (List.mem_cons_of_mem path hp) names' hnames'

theorem Agrees.stored_eq {fs fs' : FileSystem} {paths : List Bytes} (h : fs.Agrees paths fs')
    (text : Bytes) : fs'.stored text = fs.stored text := by
  unfold stored
  rw [h.limit]

end FileSystem

namespace Job

/-- What is written fits into a file. -/
def Fits (job : Job) (fs : FileSystem) (o : Option Edit) : Prop :=
  job.mode = .write → ∀ e, o = some e → (fs.stored e.newText).length = e.newText.length

/-- The number of writes to the output that a file takes. -/
def outputs (job : Job) (path : Bytes) (o : Option Edit) : Nat :=
  if job.mode = .preview then (job.shown path o).length else 0

/-- The result of a file that was dealt with. -/
def finalResult (job : Job) (path : Bytes) (o : Option Edit) : Result :=
  if job.mode = .write then writtenResult path o else plainResult path o

/-- The text of a file that held `before` and was dealt with. -/
def finalText (job : Job) (before : Bytes) (o : Option Edit) : Bytes :=
  if job.mode = .write then textAfter before o else before

theorem path_finalResult (job : Job) (path : Bytes) (o : Option Edit) :
    (job.finalResult path o).path = path := by
  unfold finalResult
  split
  · exact path_writtenResult path o
  · rw [plainResult_eq]
    exact path_writtenResult path o

/-! ### One file -/

section

variable {job : Job} {path : Bytes} {w : World} {o : Option Edit}

theorem outputs_of_mode_ne (hm : job.mode ≠ .preview) : job.outputs path o = 0 := if_neg hm

theorem processFile_ok_iff (h : job.edit w.files path = .ok o) :
    (job.processFile path w).2.2 = none ↔
      job.Fits w.files o ∧ w.out.Takes (job.outputs path o) := by
  cases hm : job.mode with
  | check =>
    rw [(processFile_check hm h).2, outputs_of_mode_ne (by simp [hm])]
    simp [Fits, hm]
  | preview =>
    rw [(processFile_preview hm h).2, outputs, if_pos hm,
      ← Sink.writeAll_iff_takes (firm_shown h) w.out]
    simp [Fits, hm]
  | write =>
    rw [outputs_of_mode_ne (by simp [hm])]
    cases o with
    | none =>
      rw [(processFile_write_none h).2]
      simp [Fits]
    | some e =>
      obtain ⟨names, -, -, hnames, -⟩ := exists_ensure_of_edit h
      rw [(processFile_write_some hm h hnames).2]
      simp only [Fits, hm, Option.some.injEq, forall_eq', forall_const, Sink.takes_zero, and_true]
      split <;> simp_all

/-- A file that is dealt with: its result, the room it leaves in the output, and the one file that
it rewrites. -/
theorem processFile_of_ok (h : job.edit w.files path = .ok o)
    (hok : (job.processFile path w).2.2 = none) :
    (job.processFile path w).2.1 = job.finalResult path o ∧
      (∀ n, (job.processFile path w).1.out.Takes n ↔ w.out.Takes (job.outputs path o + n)) ∧
      ∀ names before, w.files.fileNames? path = some names →
        w.files.content? names = some before →
        w.files.Rewritten names (job.finalText before o) (job.processFile path w).1.files := by
  have hroom := ((processFile_ok_iff h).1 hok).2
  cases hm : job.mode with
  | check =>
    obtain ⟨hworld, hanswer⟩ := processFile_check hm h
    obtain ⟨hfiles, hout⟩ := World.quiet_inj.1 hworld
    rw [hanswer, hfiles, hout, finalResult, if_neg (by simp [hm]),
      outputs_of_mode_ne (by simp [hm])]
    refine ⟨rfl, fun n => by rw [Nat.zero_add], fun names before _ hbefore => ?_⟩
    rw [finalText, if_neg (by simp [hm])]
    exact .refl hbefore
  | preview =>
    rw [outputs, if_pos hm] at hroom
    rw [(processFile_preview hm h).2, files_processFile_preview hm h,
      out_processFile_preview hm h, outputs, if_pos hm]
    refine ⟨(if_neg (by simp [hm])).symm, Sink.takes_writeAll hroom, fun names before _ hbefore => ?_⟩
    rw [finalText, if_neg (by simp [hm])]
    exact .refl hbefore
  | write =>
    obtain ⟨hresult, hcontent⟩ := processFile_write hm h hok
    have hout : (job.processFile path w).1.out = w.out := by
      cases o with
      | none => exact (World.quiet_inj.1 (processFile_write_none h).1).2
      | some e =>
        obtain ⟨names, -, -, hnames, -⟩ := exists_ensure_of_edit h
        rw [← World.quiet_out (job.processFile path w).1, (processFile_write_some hm h hnames).1]
        rfl
    rw [hresult, hout, finalResult, if_pos hm, outputs_of_mode_ne (by simp [hm])]
    refine ⟨rfl, fun n => by rw [Nat.zero_add], fun names before hnames hbefore => ?_⟩
    rw [finalText, if_pos hm]
    exact ⟨alike_processFile job path w, limit_processFile job path w,
      hcontent names before hnames hbefore⟩

end

/-! ### Files that are all different -/

/-- The edit of a file as it is in `fs`, if there is one. -/
def planned (job : Job) (fs : FileSystem) (path : Bytes) : Option Edit :=
  match job.edit fs path with
  | .ok o => o
  | .error _ => none

/-- A file can be dealt with as it is in `fs`. -/
def Manages (job : Job) (fs : FileSystem) (path : Bytes) : Prop :=
  (∃ o, job.edit fs path = .ok o) ∧ job.Fits fs (job.planned fs path)

section

variable {job : Job} {fs : FileSystem} {path : Bytes} {paths : List Bytes} {w : World}

theorem planned_of_ok {o : Option Edit} (h : job.edit fs path = .ok o) :
    job.planned fs path = o := by
  rw [planned, h]

theorem edit_of_agrees (job : Job) (hagrees : fs.Agrees (path :: paths) w.files) :
    job.edit w.files path = job.edit fs path :=
  edit_eq_of_alike job hagrees.alike (hagrees.content path List.mem_cons_self)

/-- After the first of several different files, the others are as they were. -/
theorem agrees_processFile {o : Option Edit} (hagrees : fs.Agrees (path :: paths) w.files)
    (honce : ((path :: paths).filterMap fs.fileNames?).Nodup) (h : job.edit fs path = .ok o)
    (hok : (job.processFile path w).2.2 = none) :
    fs.Agrees paths (job.processFile path w).1.files := by
  have h' := (edit_of_agrees job hagrees).trans h
  obtain ⟨names, before, hnames, hbefore⟩ := exists_content?_of_edit h'
  have hnames' : fs.fileNames? path = some names :=
    (hagrees.alike.fileNames?_eq path).symm.trans hnames
  rw [List.filterMap_cons_some hnames', List.nodup_cons] at honce
  refine hagrees.rewritten ((processFile_of_ok h' hok).2.2 names before hnames hbefore) ?_
  intro p hp hnamesp
  exact honce.1 (List.mem_filterMap.2 ⟨p, hp, hnamesp⟩)

/-- A run over different files succeeds if and only if each of them can be dealt with as it is at
the start, and the output has room for what is shown of them all. -/
theorem processEach_ok_iff (hagrees : fs.Agrees paths w.files)
    (honce : (paths.filterMap fs.fileNames?).Nodup) :
    (job.processEach paths w).failure = none ↔
      (∀ path ∈ paths, job.Manages fs path) ∧
        w.out.Takes (paths.map fun path => job.outputs path (job.planned fs path)).sum := by
  induction paths generalizing w with
  | nil =>
    simp [processEach]
  | cons path paths ih =>
    rw [List.forall_mem_cons, List.map_cons, List.sum_cons]
    have hedit := edit_of_agrees job hagrees
    cases h : job.edit fs path with
    | error f =>
      rw [processEach_of_edit_error (hedit.trans h)]
      simp [Manages, h]
    | ok o =>
      have hfits : job.Fits w.files o ↔ job.Fits fs o := by
        simp only [Fits, hagrees.stored_eq]
      have hstep := processFile_ok_iff (hedit.trans h)
      rw [planned_of_ok h]
      cases hf : (job.processFile path w).2.2 with
      | some f =>
        -- The file that fails does not fit, or the output has no room for it alone.
        rw [hf, hfits] at hstep
        rw [processEach_of_failure hf]
        constructor
        · intro hnone
          cases hnone
        · rintro ⟨⟨hmanages, -⟩, htakes⟩
          rw [Manages, planned_of_ok h] at hmanages
          cases hstep.2 ⟨hmanages.2, htakes.mono (Nat.le_add_right _ _)⟩
      | none =>
        have hmanages : job.Manages fs path :=
          ⟨⟨o, h⟩, by rw [planned_of_ok h, ← hfits]; exact (hstep.1 hf).1⟩
        have honce' : (paths.filterMap fs.fileNames?).Nodup :=
          honce.sublist ((List.sublist_cons_self path paths).filterMap _)
        rw [processEach_of_success hf]
        refine (ih (agrees_processFile hagrees honce h hf) honce').trans ?_
        rw [(processFile_of_ok (hedit.trans h) hf).2.1]
        simp [hmanages]

/-- A run over different files that succeeds: its results, and what it leaves in each file. -/
theorem processEach_of_ok (hagrees : fs.Agrees paths w.files)
    (honce : (paths.filterMap fs.fileNames?).Nodup)
    (hok : (job.processEach paths w).failure = none) :
    (job.processEach paths w).results =
        paths.map (fun path => job.finalResult path (job.planned fs path)) ∧
      ∀ path ∈ paths, ∀ names before, fs.fileNames? path = some names →
        fs.content? names = some before →
        (job.processEach paths w).world.files.content? names =
          some (job.finalText before (job.planned fs path)) := by
  induction paths generalizing w with
  | nil => exact ⟨rfl, by simp⟩
  | cons path paths ih =>
    obtain ⟨⟨o, h⟩, -⟩ := ((processEach_ok_iff hagrees honce).1 hok).1 path List.mem_cons_self
    have h' := (edit_of_agrees job hagrees).trans h
    have hf : (job.processFile path w).2.2 = none := by
      cases hf : (job.processFile path w).2.2 with
      | none => rfl
      | some f =>
        rw [processEach_of_failure hf] at hok
        cases hok
    have hnext := agrees_processFile hagrees honce h hf
    obtain ⟨hresult, -, hrewritten⟩ := processFile_of_ok h' hf
    obtain ⟨names₀, before₀, hnames₀, hbefore₀⟩ := exists_content?_of_edit h
    rw [List.filterMap_cons_some hnames₀, List.nodup_cons] at honce
    rw [processEach_of_success hf] at hok ⊢
    obtain ⟨hresults, hcontents⟩ := ih hnext honce.2 hok
    refine ⟨?_, ?_⟩
    · rw [Outcome.after, hresults, hresult, List.map_cons, planned_of_ok h]
      rfl
    · intro p hp names before hnames hbefore
      rcases List.mem_cons.1 hp with rfl | hp
      · obtain rfl := Option.some.inj (hnames₀.symm.trans hnames)
        have hfirst := hrewritten names₀ before ((hagrees.alike.fileNames?_eq p).trans hnames)
          ((hagrees.content p List.mem_cons_self names₀ hnames).trans hbefore)
        have hkept : (job.processEach paths (job.processFile p w).1).world.files.content? names₀ =
            (job.processFile p w).1.files.content? names₀ := by
          refine content?_processEach_of_apart job fun q hq hnamesq => ?_
          rw [hnext.alike.fileNames?_eq] at hnamesq
          exact honce.1 (List.mem_filterMap.2 ⟨q, hq, hnamesq⟩)
        refine hkept.trans ?_
        rw [hfirst.content, if_pos rfl, planned_of_ok h]
      · exact hcontents p hp names before hnames hbefore

end

/-! ### Any order -/

theorem failure_processEach_ne_pending (job : Job) (paths : List Bytes) (w : World) (n : Nat) :
    (job.processEach paths w).failure ≠ some (.pending n) := by
  intro h
  obtain ⟨xs, x, ys, before, -, -, hfailed⟩ := exists_first_failure h
  cases breaks_processFile hfailed

/-- Different files can be dealt with in any order. If a run over files that are all different ends
well, or with the verdict of a check, then a run over the same files in another order ends the same
way, says the same about each file, and leaves the same file system. -/
theorem processFiles_perm (job : Job) (w : World) (xs ys : List Bytes)
    (hdifferent : (xs.filterMap w.files.fileNames?).Nodup)
    (hok : (job.processFiles xs w).failure = none ∨
      ∃ n, (job.processFiles xs w).failure = some (.pending n))
    (hperm : ys.Perm xs) :
    (job.processFiles ys w).failure = (job.processFiles xs w).failure ∧
      (∃ r : Bytes → Result, (∀ path, (r path).path = path) ∧
        (job.processFiles xs w).results = xs.map r ∧
        (job.processFiles ys w).results = ys.map r) ∧
      (job.processFiles ys w).world.files = (job.processFiles xs w).world.files := by
  have hdifferent' : (ys.filterMap w.files.fileNames?).Nodup :=
    (hperm.filterMap _).nodup_iff.2 hdifferent
  have hagrees := FileSystem.Agrees.refl w.files
  have hxs : (job.processEach xs w).failure = none := by
    cases hf : (job.processEach xs w).failure with
    | none => rfl
    | some f =>
      rw [processFiles, verdict_of_failure job hf, hf] at hok
      obtain hok | ⟨n, hok⟩ := hok
      · cases hok
      · cases hok
        exact absurd hf (failure_processEach_ne_pending job xs w n)
  have hys : (job.processEach ys w).failure = none := by
    rw [processEach_ok_iff (hagrees ys) hdifferent', (hperm.map _).sum_nat]
    rw [processEach_ok_iff (hagrees xs) hdifferent] at hxs
    exact ⟨fun path hpath => hxs.1 path (hperm.mem_iff.1 hpath), hxs.2⟩
  obtain ⟨hresults, hcontents⟩ := processEach_of_ok (hagrees xs) hdifferent hxs
  obtain ⟨hresults', hcontents'⟩ := processEach_of_ok (hagrees ys) hdifferent' hys
  refine ⟨?_, ⟨fun path => job.finalResult path (job.planned w.files path),
    fun path => path_finalResult job path _, ?_, ?_⟩, ?_⟩
  · have hcount : pendingCount (job.processEach ys w).results =
        pendingCount (job.processEach xs w).results := by
      rw [hresults, hresults']
      exact (hperm.map _).countP_eq _
    by_cases hm : job.mode = .check
    · rw [processFiles, processFiles, verdict_check hm hys, verdict_check hm hxs, hcount]
    · rw [processFiles, processFiles, verdict_of_mode_ne hm, verdict_of_mode_ne hm, hxs, hys]
  · rw [processFiles, verdict_results, hresults]
  · rw [processFiles, verdict_results, hresults']
  · rw [processFiles, processFiles, verdict_world, verdict_world]
    have halike := (alike_processEach job xs w).symm.trans (alike_processEach job ys w)
    refine halike.eq_of_content? (by simp) fun names => ?_
    by_cases hreached : ∃ path ∈ xs, w.files.fileNames? path = some names
    · obtain ⟨path, hpath, hnames⟩ := hreached
      have hmanages := ((processEach_ok_iff (hagrees xs) hdifferent).1 hxs).1 path hpath
      obtain ⟨⟨o, hedit⟩, -⟩ := hmanages
      obtain ⟨names', before, hnames', hbefore⟩ := exists_content?_of_edit hedit
      obtain rfl := Option.some.inj (hnames.symm.trans hnames')
      rw [hcontents path hpath names before hnames hbefore,
        hcontents' path (hperm.mem_iff.2 hpath) names before hnames hbefore]
    · push Not at hreached
      rw [content?_processEach_of_apart job hreached,
        content?_processEach_of_apart job fun path hpath =>
          hreached path (hperm.mem_iff.1 hpath)]

/-- Two sources that mention the helper `use`, and a link to the first. -/
def twoSources : FileSystem :=
  linkedSource.put [bytes "c.ts"] (.file (bytes "use(1);")) (.file _)

/-- One source is reached through the link; each gets its import, in either order. -/
theorem processFiles_perm_twoSources :
    let job : Job := { settings := ⟨bytes "use", bytes "lib"⟩ }
    let forth := job.processFiles [bytes "b", bytes "c.ts"] { files := twoSources }
    let back := job.processFiles [bytes "c.ts", bytes "b"] { files := twoSources }
    forth.failure = none ∧ back.failure = none ∧ back.world.files = forth.world.files ∧
      forth.results.map Result.path = [bytes "b", bytes "c.ts"] := by
  have hfiles : [bytes "b", bytes "c.ts"].filterMap twoSources.fileNames? =
      [[bytes "a.ts"], [bytes "c.ts"]] := by cbv
  have hok : (Job.processFiles { settings := ⟨bytes "use", bytes "lib"⟩ }
      [bytes "b", bytes "c.ts"] { files := twoSources }).failure = none := by cbv
  intro job forth back
  obtain ⟨hfailure, ⟨r, hpath, hresults, -⟩, hsame⟩ :=
    processFiles_perm job { files := twoSources } [bytes "b", bytes "c.ts"]
      [bytes "c.ts", bytes "b"] (hfiles ▸ by decide) (.inl hok) (List.Perm.swap _ _ [])
  refine ⟨hok, hfailure.trans hok, hsame, ?_⟩
  show forth.results.map Result.path = _
  rw [hresults]
  simp [hpath]

end Job

end HelperImports
