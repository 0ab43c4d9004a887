import HelperImports.Proofs.Rendering
import HelperImports.Proofs.Runs

/-! What a run does with its files is forecast from the files it starts with. A preview and a check
change no file, so they follow the forecast; a run that writes follows it too if it reaches no file
twice, since it finds every file as it was at the start. -/

namespace HelperImports

namespace Job

/-- The files that a run over the paths deals with, each with its edit, and what ends the run, as
far as the files at the start tell. -/
def forecast (job : Job) (fs : FileSystem) :
    List Bytes → List (Bytes × Option Edit) × Option Failure
  | [] => ([], none)
  | path :: paths =>
    match job.edit fs path with
    | .error f => ([], some f)
    | .ok o => ((path, o) :: (job.forecast fs paths).1, (job.forecast fs paths).2)

/-- The result of a file that was written if it has an edit. -/
def writtenResult (path : Bytes) : Option Edit → Result
  | none => { path }
  | some e => { e.result path with written := true }

/-- The text of a file that held `before` once its edit is written. -/
def textAfter (before : Bytes) : Option Edit → Bytes
  | none => before
  | some e => e.newText

theorem plainResult_eq (path : Bytes) (o : Option Edit) :
    plainResult path o = { writtenResult path o with written := false } := by
  cases o <;> rfl

theorem path_writtenResult (path : Bytes) (o : Option Edit) :
    (writtenResult path o).path = path := by
  cases o <;> rfl

/-- An edit starts from what the file holds, so it is told from the texts before and after what is
shown, and whether the file changes. -/
theorem exists_text_of_edit {job : Job} {fs : FileSystem} {path : Bytes} {o : Option Edit}
    (h : job.edit fs path = .ok o) :
    ∃ names before, fs.fileNames? path = some names ∧ fs.content? names = some before ∧
      job.shown path o = Rendering.writes job.palette path before (textAfter before o) ∧
      (writtenResult path o).changed = (before != textAfter before o) := by
  cases o with
  | none =>
    obtain ⟨names, c, hnames, hc⟩ := exists_content?_of_edit h
    exact ⟨names, c, hnames, hc, (if_pos rfl).symm, (bne_self_eq_false c).symm⟩
  | some e =>
    obtain ⟨names, c, ens, hnames, hc, -, -, rfl⟩ := exists_ensure_of_edit h
    have hold : Edit.oldText ⟨lines c, ens.lines, ens.inserted⟩ = c := unlines_lines c
    refine ⟨names, c, hnames, hc, ?_, ?_⟩
    · rw [shown, hold]
      rfl
    · rw [writtenResult]
      show (Edit.oldText _ != Edit.newText _) = _
      rw [hold]
      rfl

/-- What is shown of an edit ends in a write that has to be taken. -/
theorem firm_shown {job : Job} {fs : FileSystem} {path : Bytes} {o : Option Edit}
    (h : job.edit fs path = .ok o) : Sink.Firm (job.shown path o) := by
  obtain ⟨-, before, -, -, hshown, -⟩ := exists_text_of_edit h
  rw [hshown]
  exact Rendering.firm_writes job.palette path before _

section

variable {job : Job} {fs : FileSystem} {paths : List Bytes}

theorem forecast_of_error {path : Bytes} {f : Failure} (h : job.edit fs path = .error f) :
    job.forecast fs (path :: paths) = ([], some f) := by
  rw [forecast, h]

theorem forecast_of_ok {path : Bytes} {o : Option Edit} (h : job.edit fs path = .ok o) :
    job.forecast fs (path :: paths) =
      ((path, o) :: (job.forecast fs paths).1, (job.forecast fs paths).2) := by
  rw [forecast, h]

theorem forecast_paths (job : Job) (fs : FileSystem) (paths : List Bytes) :
    (job.forecast fs paths).1.map (·.1) <+: paths := by
  induction paths with
  | nil => exact List.prefix_rfl
  | cons path paths ih =>
    cases h : job.edit fs path with
    | error f =>
      rw [forecast_of_error h]
      exact List.nil_prefix
    | ok o =>
      rw [forecast_of_ok h]
      exact List.cons_prefix_cons.2 ⟨rfl, ih⟩

theorem forecast_mode (job : Job) (mode : Mode) (fs : FileSystem) (paths : List Bytes) :
    { job with mode }.forecast fs paths = job.forecast fs paths := by
  induction paths with
  | nil => rfl
  | cons path paths ih =>
    rw [forecast, forecast, ih]
    rfl

theorem edit_of_mem_forecast {x : Bytes × Option Edit} (h : x ∈ (job.forecast fs paths).1) :
    job.edit fs x.1 = .ok x.2 := by
  induction paths with
  | nil => cases h
  | cons path paths ih =>
    cases hedit : job.edit fs path with
    | error f =>
      rw [forecast_of_error hedit] at h
      cases h
    | ok o =>
      rw [forecast_of_ok hedit] at h
      rcases List.mem_cons.1 h with rfl | h
      · exact hedit
      · exact ih h

end

theorem processEach_of_edit_error {job : Job} {path : Bytes} {w : World} {f : Failure}
    (h : job.edit w.files path = .error f) (paths : List Bytes) :
    job.processEach (path :: paths) w = { world := w, failure := some f } := by
  obtain ⟨r, hr⟩ := processFile_of_error h
  rw [processEach_of_failure (by rw [hr]), hr]

/-! ### Runs that change no file -/

/-- A check follows the forecast. -/
theorem processEach_check (job : Job) (hm : job.mode = .check) (paths : List Bytes) (w : World) :
    (job.processEach paths w).world.quiet = w.quiet ∧
      (job.processEach paths w).results =
        (job.forecast w.files paths).1.map (fun x => plainResult x.1 x.2) ∧
      (job.processEach paths w).failure = (job.forecast w.files paths).2 := by
  induction paths generalizing w with
  | nil => exact ⟨rfl, rfl, rfl⟩
  | cons path paths ih =>
    cases h : job.edit w.files path with
    | error f =>
      rw [processEach_of_edit_error h, forecast_of_error h]
      exact ⟨rfl, rfl, rfl⟩
    | ok o =>
      obtain ⟨hworld, hanswer⟩ := processFile_check hm h
      obtain ⟨hquiet, hresults, hfailure⟩ := ih (job.processFile path w).1
      rw [(World.quiet_inj.1 hworld).1] at hresults hfailure
      rw [processEach_of_success (by rw [hanswer]), forecast_of_ok h, hanswer]
      refine ⟨hquiet.trans hworld, ?_, hfailure⟩
      simp only [Outcome.after, hresults]
      rfl

/-- A preview follows the forecast, and shows its edits, unless the output is closed. -/
theorem processEach_preview (job : Job) (hm : job.mode = .preview) {paths : List Bytes} {w : World}
    (hout : (job.processEach paths w).failure ≠ some .rendering) :
    (job.processEach paths w).world.files = w.files ∧
      (job.processEach paths w).results =
        (job.forecast w.files paths).1.map (fun x => plainResult x.1 x.2) ∧
      (job.processEach paths w).failure = (job.forecast w.files paths).2 ∧
      ∀ room taken, w.out = .keep room taken →
        ∃ room', (job.processEach paths w).world.out = .keep room' (taken ++
          (job.forecast w.files paths).1.flatMap fun x =>
            (job.shown x.1 x.2).flatMap Write.text) := by
  induction paths generalizing w with
  | nil => exact ⟨rfl, rfl, rfl, fun room taken h => ⟨room, by simp [processEach, forecast, h]⟩⟩
  | cons path paths ih =>
    cases h : job.edit w.files path with
    | error f =>
      rw [processEach_of_edit_error h, forecast_of_error h]
      exact ⟨rfl, rfl, rfl, fun room taken h => ⟨room, by simp [h]⟩⟩
    | ok o =>
      have hanswer := (processFile_preview hm h).2
      have hok : (w.out.writeAll (job.shown path o)).2 = true := by
        -- A closed output would have ended the run here.
        by_contra hclosed
        rw [if_neg hclosed] at hanswer
        rw [processEach_of_failure (by rw [hanswer])] at hout
        exact hout rfl
      rw [if_pos hok] at hanswer
      have hfiles := files_processFile_preview hm h
      rw [processEach_of_success (by rw [hanswer])] at hout ⊢
      obtain ⟨hkept, hresults, hfailure, htaken⟩ := ih hout
      rw [hfiles] at hkept hresults hfailure htaken
      rw [forecast_of_ok h, hanswer]
      refine ⟨hkept, ?_, hfailure, fun room taken hsink => ?_⟩
      · simp only [Outcome.after, hresults]
        rfl
      · rw [hsink] at hok
        obtain ⟨room₁, hroom₁⟩ := Sink.writeAll_keep (firm_shown h) hok
        have hsink₁ : (job.processFile path w).1.out =
            .keep room₁ (taken ++ (job.shown path o).flatMap Write.text) := by
          rw [out_processFile_preview hm h, hsink, hroom₁]
        obtain ⟨room₂, hroom₂⟩ := htaken _ _ hsink₁
        refine ⟨room₂, ?_⟩
        rw [List.flatMap_cons, ← List.append_assoc, ← hroom₂]
        rfl

/-! ### Runs that write -/

/-- A write that succeeds leaves the edited text in the file, and every other file alone. -/
theorem processFile_write {job : Job} (hm : job.mode = .write) {path : Bytes} {w : World}
    {o : Option Edit} (h : job.edit w.files path = .ok o)
    (hok : (job.processFile path w).2.2 = none) :
    (job.processFile path w).2.1 = writtenResult path o ∧
      ∀ names before, w.files.fileNames? path = some names →
        w.files.content? names = some before → ∀ names',
        (job.processFile path w).1.files.content? names' =
          if names' = names then some (textAfter before o) else w.files.content? names' := by
  cases o with
  | none =>
    obtain ⟨hworld, hanswer⟩ := processFile_write_none h
    refine ⟨by rw [hanswer]; rfl, fun names before _ hc names' => ?_⟩
    rw [(World.quiet_inj.1 hworld).1]
    split
    · rename_i heq
      rw [heq, hc]
      rfl
    · rfl
  | some e =>
    refine ⟨?_, fun names before hnames _ names' =>
      content?_processFile_write hm h hnames hok names'⟩
    obtain ⟨names, -, -, hnames, -⟩ := exists_ensure_of_edit h
    have hanswer := (processFile_write_some hm h hnames).2
    split at hanswer
    · rw [hanswer]
      rfl
    · rw [hanswer] at hok
      cases hok

/-- A run that writes follows the forecast from `fs`, as long as the files that it has not dealt
with are as they were in `fs`, and no file is reached twice. -/
theorem processEach_write (job : Job) (hm : job.mode = .write) {fs : FileSystem}
    {paths : List Bytes} {w : World} (halike : FileSystem.Alike fs w.files)
    (hsame : ∀ path ∈ paths, ∀ names, fs.fileNames? path = some names →
      w.files.content? names = fs.content? names)
    (honce : (paths.filterMap fs.fileNames?).Nodup)
    (hwrite : ∀ p fault, (job.processEach paths w).failure ≠ some (.writing p fault)) :
    (job.processEach paths w).results =
        (job.forecast fs paths).1.map (fun x => writtenResult x.1 x.2) ∧
      (job.processEach paths w).failure = (job.forecast fs paths).2 ∧
      (∀ x ∈ (job.forecast fs paths).1, ∀ names before, fs.fileNames? x.1 = some names →
        fs.content? names = some before →
        (job.processEach paths w).world.files.content? names = some (textAfter before x.2)) ∧
      ∀ names, (∀ x ∈ (job.forecast fs paths).1, fs.fileNames? x.1 ≠ some names) →
        (job.processEach paths w).world.files.content? names = w.files.content? names := by
  induction paths generalizing w with
  | nil => exact ⟨rfl, rfl, by simp [forecast], fun _ _ => rfl⟩
  | cons path paths ih =>
    rw [List.forall_mem_cons] at hsame
    have hedit : job.edit w.files path = job.edit fs path := edit_eq_of_alike job halike hsame.1
    cases h : job.edit fs path with
    | error f =>
      rw [processEach_of_edit_error (hedit.trans h), forecast_of_error h]
      exact ⟨rfl, rfl, by simp, fun _ _ => rfl⟩
    | ok o =>
      obtain ⟨names₀, before₀, hnames₀, hbefore₀, -⟩ := exists_text_of_edit h
      -- No later path leads to the file that is dealt with now.
      rw [List.filterMap_cons_some hnames₀, List.nodup_cons] at honce
      have hlater : ∀ p ∈ paths, fs.fileNames? p ≠ some names₀ := fun p hp hnames =>
        honce.1 (List.mem_filterMap.2 ⟨p, hp, hnames⟩)
      have hok : (job.processFile path w).2.2 = none := by
        rcases failure_processFile_write hm (hedit.trans h) with hok | ⟨fault, hf⟩
        · exact hok
        · rw [processEach_of_failure hf] at hwrite
          exact absurd rfl (hwrite path fault)
      obtain ⟨hresult, hcontent⟩ := processFile_write hm (hedit.trans h) hok
      have hcontent := hcontent names₀ before₀ ((halike.fileNames?_eq path).trans hnames₀)
        ((hsame.1 names₀ hnames₀).trans hbefore₀)
      rw [processEach_of_success hok] at hwrite ⊢
      obtain ⟨hresults, hfailure, hdealt, hothers⟩ := ih
        (halike.trans (alike_processFile job path w))
        (fun p hp names hnames => by
          have hne : names ≠ names₀ := fun heq => hlater p hp (heq ▸ hnames)
          rw [hcontent, if_neg hne, hsame.2 p hp names hnames])
        honce.2 hwrite
      have hmem : ∀ x ∈ (job.forecast fs paths).1, x.1 ∈ paths := fun x hx =>
        (forecast_paths job fs paths).subset (List.mem_map_of_mem hx)
      rw [forecast_of_ok h]
      refine ⟨?_, hfailure, ?_, ?_⟩
      · simp only [Outcome.after, hresult, hresults]
        rfl
      · intro x hx names before hnames hbefore
        rcases List.mem_cons.1 hx with rfl | hx
        · obtain rfl := Option.some.inj (hnames₀.symm.trans hnames)
          obtain rfl := Option.some.inj (hbefore₀.symm.trans hbefore)
          refine (hothers names₀ fun x hx => hlater x.1 (hmem x hx)).trans ?_
          rw [hcontent, if_pos rfl]
        · exact hdealt x hx names before hnames hbefore
      · intro names hnames
        rw [List.forall_mem_cons] at hnames
        have hne : names ≠ names₀ := fun heq => hnames.1 (heq ▸ hnames₀)
        refine (hothers names hnames.2).trans ?_
        rw [hcontent, if_neg hne]

end Job

end HelperImports
