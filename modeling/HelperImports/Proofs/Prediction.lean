import Mathlib
import HelperImports.Proofs.Forecast

/-! Previews and checks tell what a run that writes will do: they deal with the same files, have the
same results and end alike. The preview prints the edits that are written, and the check counts the
files that change. -/

namespace HelperImports

namespace Job

/-! ### Runs over arguments -/

section

variable (job : Job) (args : List Bytes) (w : World)

/-- What a run over the arguments is forecast to deal with, and to end with. -/
def outlook : List (Bytes × Option Edit) × Option Failure :=
  let (paths, failure) := w.files.reached args
  ((job.forecast w.files paths).1, (job.forecast w.files paths).2 <|> failure)

theorem processPaths_check :
    let checked := { job with mode := .check }.processPaths args w
    checked.world.files = w.files ∧
      checked.results = (job.outlook args w).1.map (fun x => plainResult x.1 x.2) ∧
      (∀ f, (job.outlook args w).2 = some f → checked.failure = some f) ∧
      ((job.outlook args w).2 = none → checked.failure =
        if pendingCount checked.results = 0 then none
        else some (.pending (pendingCount checked.results))) := by
  intro checked
  obtain ⟨hworld, hresults, hfailure⟩ := processPaths_eq { job with mode := .check } args w
  obtain ⟨hworld', hresults', hfailure'⟩ :=
    processEach_check { job with mode := .check } rfl (w.files.reached args).1 w
  rw [forecast_mode] at hresults' hfailure'
  have hends : (({ job with mode := .check }.processEach (w.files.reached args).1 w).orElse
      (w.files.reached args).2).failure = (job.outlook args w).2 := by
    rw [Outcome.orElse, hfailure']
    rfl
  refine ⟨(World.quiet_inj.1 (hworld.trans hworld')).1, hresults.trans hresults', ?_, ?_⟩
  · intro f hf
    rw [hfailure, verdict_of_failure _ (hends.trans hf), hends, hf]
  · intro hnone
    rw [hfailure, verdict_check rfl (hends.trans hnone), hresults]
    rfl

theorem processPaths_preview
    (hout : ({ job with mode := .preview }.processPaths args w).failure ≠ some .rendering) :
    let shown := { job with mode := .preview }.processPaths args w
    shown.world.files = w.files ∧
      shown.results = (job.outlook args w).1.map (fun x => plainResult x.1 x.2) ∧
      shown.failure = (job.outlook args w).2 ∧
      ∀ room taken, w.out = .keep room taken → shown.world.out.taken =
        taken ++ (job.outlook args w).1.flatMap fun x =>
          (job.shown x.1 x.2).flatMap Write.text := by
  intro shown
  obtain ⟨hworld, hresults, -⟩ := processPaths_eq { job with mode := .preview } args w
  obtain ⟨hfiles', hresults', hfailure', hprints⟩ :=
    processEach_preview { job with mode := .preview } rfl fun hf => hout (failure_processPaths hf)
  rw [forecast_mode] at hresults' hfailure' hprints
  obtain ⟨hfiles, hsink⟩ := World.quiet_inj.1 hworld
  refine ⟨hfiles.trans hfiles', hresults.trans hresults', ?_, fun room taken htaken => ?_⟩
  · rw [failure_processPaths_of_mode_ne (by simp), hfailure']
    rfl
  · obtain ⟨room', hroom'⟩ := hprints room taken htaken
    rw [hsink, hroom']
    rfl

/-- `written` is the outcome of a run from `w` that writes what the outlook says: the files that it
deals with are left with the texts after their edits, and all others with what they held. -/
structure Fulfils (written : Outcome) : Prop where
  results : written.results = (job.outlook args w).1.map fun x => writtenResult x.1 x.2
  failure : written.failure = (job.outlook args w).2
  alike : FileSystem.Alike w.files written.world.files
  dealt : ∀ x ∈ (job.outlook args w).1, ∀ names before, w.files.fileNames? x.1 = some names →
    w.files.content? names = some before →
    written.world.files.content? names = some (textAfter before x.2)
  others : ∀ names, (∀ x ∈ (job.outlook args w).1, w.files.fileNames? x.1 ≠ some names) →
    written.world.files.content? names = w.files.content? names

theorem fulfils_processPaths
    (honce : ((w.files.reached args).1.filterMap w.files.fileNames?).Nodup)
    (hwrite : ∀ path fault, ({ job with mode := .write }.processPaths args w).failure ≠
      some (.writing path fault)) :
    job.Fulfils args w ({ job with mode := .write }.processPaths args w) := by
  obtain ⟨hworld, hresults, -⟩ := processPaths_eq { job with mode := .write } args w
  obtain ⟨hresults', hfailure', hdealt, hothers⟩ :=
    processEach_write { job with mode := .write } rfl (FileSystem.Alike.refl w.files)
      (fun _ _ _ _ => rfl) honce fun path fault hf => hwrite path fault (failure_processPaths hf)
  rw [forecast_mode] at hresults' hfailure' hdealt hothers
  rw [← (World.quiet_inj.1 hworld).1] at hdealt hothers
  refine ⟨hresults.trans hresults', ?_, alike_processPaths _ args w, hdealt, hothers⟩
  rw [failure_processPaths_of_mode_ne (by simp), hfailure']
  rfl

end

/-! ### What a run that writes leaves -/

/-- The names of the files that change, as the results say. -/
def changedNames (fs : FileSystem) (results : List Result) : List (List Bytes) :=
  (results.filter (·.changed)).filterMap fun r => fs.fileNames? r.path

theorem mem_changedNames {fs : FileSystem} {results : List Result} {names : List Bytes} :
    names ∈ changedNames fs results ↔
      ∃ r ∈ results, r.changed = true ∧ fs.fileNames? r.path = some names := by
  simp [changedNames, and_assoc]

section

variable {job : Job} {args : List Bytes} {w : World}

theorem exists_text_of_mem_outlook {x : Bytes × Option Edit} (hx : x ∈ (job.outlook args w).1) :
    ∃ names before, w.files.fileNames? x.1 = some names ∧
      w.files.content? names = some before ∧
      job.shown x.1 x.2 = Rendering.writes job.palette x.1 before (textAfter before x.2) ∧
      (writtenResult x.1 x.2).changed = (before != textAfter before x.2) :=
  exists_text_of_edit (edit_of_mem_forecast hx)

variable {written : Outcome} (h : job.Fulfils args w written)
include h

/-- A file is left with another text if and only if its result says so. -/
theorem Fulfils.content?_ne_iff (names : List Bytes) :
    written.world.files.content? names ≠ w.files.content? names ↔
      ∃ r ∈ written.results, r.changed = true ∧ w.files.fileNames? r.path = some names := by
  constructor
  · intro hne
    have hreached : ∃ x ∈ (job.outlook args w).1, w.files.fileNames? x.1 = some names := by
      by_contra hno
      push Not at hno
      exact hne (h.others names hno)
    obtain ⟨x, hx, hnames⟩ := hreached
    obtain ⟨names', before, hnames', hbefore, -, hchanged⟩ := exists_text_of_mem_outlook hx
    obtain rfl := Option.some.inj (hnames.symm.trans hnames')
    refine ⟨writtenResult x.1 x.2, ?_, ?_, by rw [path_writtenResult, hnames]⟩
    · rw [h.results]
      exact List.mem_map_of_mem hx
    · rw [h.dealt x hx names before hnames hbefore, hbefore] at hne
      rw [hchanged, bne_iff_ne]
      exact fun heq => hne (congrArg some heq.symm)
  · rintro ⟨r, hr, hchanged, hnames⟩
    rw [h.results] at hr
    obtain ⟨x, hx, rfl⟩ := List.mem_map.1 hr
    rw [path_writtenResult] at hnames
    obtain ⟨names', before, hnames', hbefore, -, hchanged'⟩ := exists_text_of_mem_outlook hx
    obtain rfl := Option.some.inj (hnames.symm.trans hnames')
    rw [h.dealt x hx names before hnames hbefore, hbefore]
    rw [hchanged', bne_iff_ne] at hchanged
    exact fun heq => hchanged (Option.some.inj heq).symm

theorem Fulfils.changedNames_eq_nil_iff :
    changedNames w.files written.results = [] ↔
      ∀ names, written.world.files.content? names = w.files.content? names := by
  rw [List.eq_nil_iff_forall_not_mem]
  refine forall_congr' fun names => ?_
  rw [mem_changedNames, ← h.content?_ne_iff names, not_not]

/-- The files that change are as many as the results that say so. -/
theorem Fulfils.length_changedNames :
    (changedNames w.files written.results).length = pendingCount written.results := by
  rw [changedNames, pendingCount, List.countP_eq_length_filter, List.length_filterMap_eq_countP,
    List.countP_eq_length]
  intro r hr
  rw [h.results] at hr
  obtain ⟨x, hx, rfl⟩ := List.mem_map.1 (List.mem_filter.1 hr).1
  obtain ⟨names, -, hnames, -⟩ := exists_text_of_mem_outlook hx
  rw [path_writtenResult, hnames]
  rfl

theorem Fulfils.nodup_changedNames
    (honce : ((w.files.reached args).1.filterMap w.files.fileNames?).Nodup) :
    (changedNames w.files written.results).Nodup := by
  have hpaths : written.results.map (·.path) <+: (w.files.reached args).1 := by
    rw [h.results, List.map_map, List.map_congr_left fun x _ => path_writtenResult x.1 x.2]
    exact forecast_paths job w.files (w.files.reached args).1
  have hsub : ((written.results.filter (·.changed)).map (·.path)).Sublist
      (w.files.reached args).1 := (List.filter_sublist.map _).trans hpaths.sublist
  have hnames := hsub.filterMap w.files.fileNames?
  rw [List.filterMap_map] at hnames
  exact honce.sublist hnames

theorem Fulfils.plainResults :
    (job.outlook args w).1.map (fun x => plainResult x.1 x.2) =
      written.results.map fun r => { r with written := false } := by
  rw [h.results, List.map_map]
  exact List.map_congr_left fun x _ => plainResult_eq x.1 x.2

theorem Fulfils.renderings :
    List.Forall₂ (fun r piece => ∃ before after, w.files.readFile r.path = .ok before ∧
      written.world.files.readFile r.path = .ok after ∧
      piece = (Rendering.writes job.palette r.path before after).flatMap Write.text)
      written.results
      ((job.outlook args w).1.map fun x => (job.shown x.1 x.2).flatMap Write.text) := by
  rw [h.results, List.forall₂_map_left_iff, List.forall₂_map_right_iff, List.forall₂_same]
  intro x hx
  obtain ⟨names, before, hnames, hbefore, hshown, -⟩ := exists_text_of_mem_outlook hx
  rw [path_writtenResult, hshown]
  refine ⟨before, textAfter before x.2, ?_, ?_, rfl⟩
  · exact FileSystem.readFile_eq_ok_iff.2 ⟨names, hnames, hbefore⟩
  · exact FileSystem.readFile_eq_ok_iff.2 ⟨names, (h.alike.fileNames?_eq x.1).trans hnames,
      h.dealt x hx names before hnames hbefore⟩

end

/-! ### Three runs from one world -/

/-- `shown` and `checked` tell what `written` does, where the three are the outcomes of a preview, a
check and a run that writes, all from `w`. -/
structure Predicts (palette : Palette) (w : World) (shown checked written : Outcome) : Prop where
  /-- The preview deals with the same files, with the same results, and ends alike. -/
  shown_results : shown.results = written.results.map fun r => { r with written := false }
  shown_failure : shown.failure = written.failure
  /-- So does the check, apart from its verdict. -/
  checked_results : checked.results = written.results.map fun r => { r with written := false }
  checked_failure : ∀ f, written.failure = some f → checked.failure = some f
  /-- Neither changes a file. -/
  shown_files : shown.world.files = w.files
  checked_files : checked.world.files = w.files
  /-- The files that change are those whose results say so. -/
  changes : ∀ names, written.world.files.content? names ≠ w.files.content? names ↔
    ∃ r ∈ written.results, r.changed = true ∧ w.files.fileNames? r.path = some names
  /-- The preview prints the edits from what the files held to what they hold in the end. -/
  prints : ∀ room taken, w.out = .keep room taken → ∃ pieces,
    shown.world.out.taken = taken ++ List.flatten pieces ∧
      List.Forall₂ (fun r piece => ∃ before after, w.files.readFile r.path = .ok before ∧
        written.world.files.readFile r.path = .ok after ∧
        piece = (Rendering.writes palette r.path before after).flatMap Write.text)
        written.results pieces
  /-- The check is content if no file changes, and counts the files that do. -/
  checked_passes : written.failure = none → (checked.failure = none ↔
    ∀ names, written.world.files.content? names = w.files.content? names)
  checked_counts : written.failure = none → checked.failure ≠ none →
    ∃ changed : List (List Bytes),
      changed.Nodup ∧ (∀ names, names ∈ changed ↔
        written.world.files.content? names ≠ w.files.content? names) ∧
      checked.failure = some (.pending changed.length)

/-- Previews predict. If the arguments reach no file twice, no write to a file fails and the output
is not closed, then a preview and a check from a world tell what a run that writes does from it. -/
theorem processPaths_predicts (job : Job) (args : List Bytes) (w : World)
    (honce : ((w.files.reached args).1.filterMap w.files.fileNames?).Nodup)
    (hwrite : ∀ path fault, ({ job with mode := .write }.processPaths args w).failure ≠
      some (.writing path fault))
    (hout : ({ job with mode := .preview }.processPaths args w).failure ≠ some .rendering) :
    Predicts job.palette w ({ job with mode := .preview }.processPaths args w)
      ({ job with mode := .check }.processPaths args w)
      ({ job with mode := .write }.processPaths args w) := by
  have hfulfils := fulfils_processPaths job args w honce hwrite
  obtain ⟨hsfiles, hsresults, hsfailure, hprints⟩ := processPaths_preview job args w hout
  obtain ⟨hcfiles, hcresults, hcfailure, hcverdict⟩ := processPaths_check job args w
  generalize { job with mode := .write }.processPaths args w = written at *
  generalize { job with mode := .preview }.processPaths args w = shown at *
  generalize { job with mode := .check }.processPaths args w = checked at *
  have hcount : pendingCount checked.results = (changedNames w.files written.results).length := by
    rw [hfulfils.length_changedNames, hcresults, hfulfils.plainResults, pendingCount,
      List.countP_map]
    rfl
  -- From here on the verdict is about the files that the run that writes changes.
  simp only [hcount, List.length_eq_zero_iff] at hcverdict
  rw [← hfulfils.failure] at hcfailure hcverdict hsfailure
  refine
    { shown_results := hsresults.trans hfulfils.plainResults
      shown_failure := hsfailure
      checked_results := hcresults.trans hfulfils.plainResults
      checked_failure := hcfailure
      shown_files := hsfiles
      checked_files := hcfiles
      changes := hfulfils.content?_ne_iff
      prints := ?_
      checked_passes := ?_
      checked_counts := ?_ }
  · intro room taken hsink
    refine ⟨_, ?_, hfulfils.renderings⟩
    rw [hprints room taken hsink, List.flatMap_def]
  · intro hnone
    rw [hcverdict hnone, ← hfulfils.changedNames_eq_nil_iff]
    by_cases hnil : changedNames w.files written.results = []
    · simp [hnil]
    · simp [hnil]
  · intro hnone hsome
    have hnil : changedNames w.files written.results ≠ [] := by
      intro hnil
      rw [hcverdict hnone, if_pos hnil] at hsome
      exact hsome rfl
    refine ⟨changedNames w.files written.results, hfulfils.nodup_changedNames honce, ?_, ?_⟩
    · intro names
      rw [mem_changedNames, hfulfils.content?_ne_iff names]
    · rw [hcverdict hnone, if_neg hnil]

/-- The search passes over the link, so the source is reached once; the check counts it. -/
theorem processPaths_predicts_linkedSource :
    let job : Job := { settings := ⟨bytes "use", bytes "lib"⟩ }
    let args := [bytes "."]
    let w : World := { files := linkedSource }
    ({ job with mode := .check }.processPaths args w).failure = some (.pending 1) ∧
      Predicts job.palette w ({ job with mode := .preview }.processPaths args w)
        ({ job with mode := .check }.processPaths args w)
        ({ job with mode := .write }.processPaths args w) := by
  have hreached : (linkedSource.reached [bytes "."]).1.filterMap linkedSource.fileNames? =
      [[bytes "a.ts"]] := by cbv
  have hchecked : (Job.processPaths { settings := ⟨bytes "use", bytes "lib"⟩, mode := .check }
      [bytes "."] { files := linkedSource }).failure = some (.pending 1) := by cbv
  have hshown : (Job.processPaths { settings := ⟨bytes "use", bytes "lib"⟩, mode := .preview }
      [bytes "."] { files := linkedSource }).failure = none := by cbv
  have hwritten : (Job.processPaths { settings := ⟨bytes "use", bytes "lib"⟩, mode := .write }
      [bytes "."] { files := linkedSource }).failure = none := by cbv
  intro job args w
  refine ⟨hchecked, processPaths_predicts job args w ?_ ?_ ?_⟩
  · rw [hreached]
    decide
  · intro path fault hf
    cases hwritten.symm.trans hf
  · intro hf
    cases hshown.symm.trans hf

end Job

end HelperImports
