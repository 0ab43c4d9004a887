import HelperImports.Run.Paths
import HelperImports.Proofs.Step

/-! Runs over several files. A run never changes a path, a directory or a link, so the files that
its arguments stand for are known before it begins: it is a run over the paths that the arguments
reach, which ends, if no file ended it before, with the failure that ended their expansion. -/

namespace HelperImports

/-- The outcome with the log forgotten. -/
def Outcome.quiet (o : Outcome) : Outcome := { o with world := o.world.quiet }

theorem Outcome.quiet_inj {o o' : Outcome} :
    o.quiet = o'.quiet ↔
      o.world.quiet = o'.world.quiet ∧ o.results = o'.results ∧ o.failure = o'.failure := by
  cases o
  cases o'
  simp [Outcome.quiet]

/-- The outcome of a run that goes on to fail with `f`, if it has not failed before. -/
def Outcome.orElse (o : Outcome) (f : Option Failure) : Outcome :=
  { o with failure := o.failure <|> f }

/-- The outcome of a run that comes after one with the given results. -/
def Outcome.after (results : List Result) (o : Outcome) : Outcome :=
  { o with results := results ++ o.results }

theorem Outcome.quiet_after (results : List Result) (o : Outcome) :
    (o.after results).quiet = o.quiet.after results := rfl

theorem Outcome.quiet_orElse (o : Outcome) (f : Option Failure) :
    (o.orElse f).quiet = o.quiet.orElse f := rfl

theorem Outcome.orElse_after (results : List Result) (o : Outcome) (f : Option Failure) :
    (o.after results).orElse f = (o.orElse f).after results := rfl

theorem Outcome.orElse_of_failure {o : Outcome} {f : Failure} (h : o.failure = some f)
    (g : Option Failure) : o.orElse g = o := by
  cases o
  simp_all [Outcome.orElse]

/-! ### What the arguments stand for -/

namespace FileSystem

/-- The files that an argument stands for. -/
def expansion (fs : FileSystem) (arg : Bytes) : Except Failure (List Bytes) :=
  match fs.isDirectory arg with
  | .ok true =>
    match (fs.findSources arg).fault with
    | some f => .error (.searching arg f)
    | none => .ok (fs.findSources arg).found
  | _ => .ok [arg]

/-- The files that the arguments stand for, up to the first one that cannot be expanded, and the
failure of that one. -/
def reached (fs : FileSystem) : List Bytes → List Bytes × Option Failure
  | [] => ([], none)
  | arg :: args =>
    match fs.expansion arg with
    | .error f => ([], some f)
    | .ok paths => (paths ++ (fs.reached args).1, (fs.reached args).2)

theorem Alike.expansion_eq {fs fs' : FileSystem} (h : Alike fs fs') (arg : Bytes) :
    fs'.expansion arg = fs.expansion arg := by
  unfold expansion
  rw [h.isDirectory_eq, h.findSources_eq]

theorem Alike.reached_eq {fs fs' : FileSystem} (h : Alike fs fs') (args : List Bytes) :
    fs'.reached args = fs.reached args := by
  induction args with
  | nil => rfl
  | cons arg args ih => rw [reached, reached, h.expansion_eq, ih]

end FileSystem

namespace Job

theorem expand_eq (job : Job) (arg : Bytes) (w : World) :
    (job.expand arg w).1.quiet = w.quiet ∧ (job.expand arg w).2 = w.files.expansion arg := by
  unfold expand FileSystem.expansion
  cases w.files.isDirectory arg with
  | error f => exact ⟨rfl, rfl⟩
  | ok isDir =>
    cases isDir with
    | false => exact ⟨rfl, rfl⟩
    | true =>
      dsimp only
      cases (w.files.findSources arg).fault with
      | some f => exact ⟨rfl, rfl⟩
      | none => exact ⟨World.quiet_note .., rfl⟩

/-! ### Files one after the other -/

section

variable {job : Job} {path : Bytes} {w : World}

theorem processEach_of_failure {f : Failure} (h : (job.processFile path w).2.2 = some f)
    (paths : List Bytes) :
    job.processEach (path :: paths) w =
      { world := (job.processFile path w).1, failure := some f } := by
  rw [processEach]
  split
  · rename_i hstep
    simp only [hstep, Option.some.injEq] at h ⊢
    rw [h]
  · rename_i hstep
    simp [hstep] at h

theorem processEach_of_success (h : (job.processFile path w).2.2 = none) (paths : List Bytes) :
    job.processEach (path :: paths) w =
      (job.processEach paths (job.processFile path w).1).after [(job.processFile path w).2.1] := by
  rw [processEach]
  split
  · rename_i hstep
    simp [hstep] at h
  · rename_i hstep
    simp only [hstep]
    rfl

end

/-- What a run does does not depend on the log. -/
theorem processEach_quiet (job : Job) (paths : List Bytes) {w w' : World}
    (h : w.quiet = w'.quiet) :
    (job.processEach paths w).quiet = (job.processEach paths w').quiet := by
  induction paths generalizing w w' with
  | nil => simp only [processEach, Outcome.quiet, h]
  | cons path paths ih =>
    obtain ⟨hworld, hanswer⟩ := processFile_quiet job path h
    cases hf : (job.processFile path w).2.2 with
    | some f =>
      rw [processEach_of_failure hf, processEach_of_failure (hanswer ▸ hf)]
      simp only [Outcome.quiet, hworld]
    | none =>
      rw [processEach_of_success hf, processEach_of_success (hanswer ▸ hf), ← hanswer]
      have := ih hworld
      simp only [Outcome.quiet, Outcome.after, Outcome.mk.injEq] at this ⊢
      simp only [this, and_self]

/-- A run changes no path, no directory and no link. -/
theorem alike_processEach (job : Job) (paths : List Bytes) (w : World) :
    FileSystem.Alike w.files (job.processEach paths w).world.files := by
  induction paths generalizing w with
  | nil => exact FileSystem.Alike.refl w.files
  | cons path paths ih =>
    have hstep := alike_processFile job path w
    cases hf : (job.processFile path w).2.2 with
    | some f =>
      rw [processEach_of_failure hf]
      exact hstep
    | none =>
      rw [processEach_of_success hf]
      exact hstep.trans (ih _)

/-- A run that fails does not look at what comes after. -/
theorem processEach_append_of_failure {job : Job} {paths : List Bytes} {w : World} {f : Failure}
    (h : (job.processEach paths w).failure = some f) (more : List Bytes) :
    job.processEach (paths ++ more) w = job.processEach paths w := by
  induction paths generalizing w with
  | nil => cases h
  | cons path paths ih =>
    rw [List.cons_append]
    cases hf : (job.processFile path w).2.2 with
    | some f => rw [processEach_of_failure hf, processEach_of_failure hf]
    | none =>
      rw [processEach_of_success hf] at h ⊢
      rw [processEach_of_success hf, ih h]

/-- A run that succeeds goes on where it stopped. -/
theorem processEach_append_of_success {job : Job} {paths : List Bytes} {w : World}
    (h : (job.processEach paths w).failure = none) (more : List Bytes) :
    job.processEach (paths ++ more) w =
      (job.processEach more (job.processEach paths w).world).after
        (job.processEach paths w).results := by
  induction paths generalizing w with
  | nil => rfl
  | cons path paths ih =>
    rw [List.cons_append]
    cases hf : (job.processFile path w).2.2 with
    | some f =>
      rw [processEach_of_failure hf] at h
      cases h
    | none =>
      rw [processEach_of_success hf] at h ⊢
      rw [processEach_of_success hf, ih h]
      rfl

/-! ### Arguments one after the other -/

/-- A run over arguments is a run over the files that they stand for. -/
theorem processArguments_quiet (job : Job) (args : List Bytes) (w : World) :
    (job.processArguments args w).quiet =
      ((job.processEach (w.files.reached args).1 w).orElse (w.files.reached args).2).quiet := by
  induction args generalizing w with
  | nil => rfl
  | cons arg args ih =>
    obtain ⟨hquiet, hpaths⟩ := expand_eq job arg w
    rw [processArguments, FileSystem.reached, ← hpaths]
    generalize job.expand arg w = expanded at hquiet hpaths
    obtain ⟨w₁, f | paths⟩ := expanded
    · simp only [processEach, Outcome.quiet, Outcome.orElse, ← hquiet]
      rfl
    · -- Both sides deal with `paths` first, from worlds that differ in the log at most.
      have hfirst := processEach_quiet job paths hquiet
      obtain ⟨hworld, hresults, hfailure⟩ := Outcome.quiet_inj.1 hfirst
      cases hf : (job.processEach paths w₁).failure with
      | some f =>
        simp only [hf]
        rw [hf] at hfailure
        rw [processEach_append_of_failure hfailure.symm,
          Outcome.orElse_of_failure hfailure.symm, hfirst]
      | none =>
        have halike : FileSystem.Alike w.files (job.processEach paths w₁).world.files := by
          rw [← (World.quiet_inj.1 hquiet).1]
          exact alike_processEach job paths w₁
        have hrest := ih (job.processEach paths w₁).world
        rw [halike.reached_eq, Outcome.quiet_orElse, processEach_quiet job _ hworld] at hrest
        rw [hf] at hfailure
        rw [processEach_append_of_success hfailure.symm, Outcome.orElse_after,
          Outcome.quiet_after, Outcome.quiet_orElse, ← hrest, ← hresults]
        simp only [hf]
        rfl

/-! ### The verdict -/

@[simp] theorem verdict_world (job : Job) (o : Outcome) : (job.verdict o).world = o.world := by
  unfold verdict
  split
  · rfl
  · split <;> rfl

@[simp] theorem verdict_results (job : Job) (o : Outcome) :
    (job.verdict o).results = o.results := by
  unfold verdict
  split
  · rfl
  · split <;> rfl

theorem quiet_verdict (job : Job) (o : Outcome) : (job.verdict o).quiet = job.verdict o.quiet := by
  unfold verdict
  cases hf : o.failure with
  | some f => simp only [Outcome.quiet, hf]
  | none =>
    simp only [Outcome.quiet, hf]
    split
    · rfl
    · rw [hf]

theorem verdict_of_failure {o : Outcome} {f : Failure} (job : Job) (h : o.failure = some f) :
    job.verdict o = o := by
  simp only [verdict, h]

/-- Only a check gives a verdict of its own. -/
theorem verdict_of_mode_ne {job : Job} (h : job.mode ≠ .check) (o : Outcome) :
    job.verdict o = o := by
  unfold verdict
  split
  · rfl
  · rw [if_neg (fun hcheck => h hcheck.1)]

theorem verdict_check {job : Job} (hm : job.mode = .check) {o : Outcome} (h : o.failure = none) :
    (job.verdict o).failure =
      if pendingCount o.results = 0 then none else some (.pending (pendingCount o.results)) := by
  simp only [verdict, h, hm, true_and]
  split
  · rw [if_neg (by omega)]
  · rw [if_pos (by omega), h]

/-- A run over arguments, with its verdict, as a run over the files that they stand for. -/
theorem processPaths_eq (job : Job) (args : List Bytes) (w : World) :
    (job.processPaths args w).world.quiet =
        (job.processEach (w.files.reached args).1 w).world.quiet ∧
      (job.processPaths args w).results = (job.processEach (w.files.reached args).1 w).results ∧
      (job.processPaths args w).failure = (job.verdict ((job.processEach
        (w.files.reached args).1 w).orElse (w.files.reached args).2)).failure := by
  have h : (job.processPaths args w).quiet = (job.verdict ((job.processEach
      (w.files.reached args).1 w).orElse (w.files.reached args).2)).quiet := by
    rw [processPaths, quiet_verdict, processArguments_quiet, ← quiet_verdict]
  obtain ⟨hworld, hresults, hfailure⟩ := Outcome.quiet_inj.1 h
  rw [verdict_world] at hworld
  rw [verdict_results] at hresults
  exact ⟨hworld, hresults, hfailure⟩

section

variable {job : Job} {args : List Bytes} {w : World}

/-- A file that ends the run over the files ends the run over the arguments. -/
theorem failure_processPaths {f : Failure}
    (h : (job.processEach (w.files.reached args).1 w).failure = some f) :
    (job.processPaths args w).failure = some f := by
  rw [(processPaths_eq job args w).2.2, Outcome.orElse_of_failure h, verdict_of_failure job h, h]

theorem failure_processPaths_of_mode_ne (hm : job.mode ≠ .check) :
    (job.processPaths args w).failure =
      ((job.processEach (w.files.reached args).1 w).failure <|> (w.files.reached args).2) := by
  rw [(processPaths_eq job args w).2.2, verdict_of_mode_ne hm]
  rfl

end

theorem alike_processPaths (job : Job) (args : List Bytes) (w : World) :
    FileSystem.Alike w.files (job.processPaths args w).world.files := by
  rw [(World.quiet_inj.1 (processPaths_eq job args w).1).1]
  exact alike_processEach job _ w

end Job

/-- A source that mentions the helper `use`, and a link to it. -/
def linkedSource : FileSystem :=
  (({} : FileSystem).put [bytes "a.ts"] (.file (bytes "use();")) (.file _)).put [bytes "b"]
    (.link (bytes "a.ts")) (.link _)

end HelperImports
