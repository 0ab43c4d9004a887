import Mathlib
import HelperImports.Proofs.Runs

/-! Arguments can be expanded at any time. A run expands an argument when its turn comes, after the
files of the arguments before it were rewritten; since no file that is dealt with, in whatever way
that ends, adds or removes a path or a directory, the run is the one over the files that the
arguments stand for at the start. -/

namespace HelperImports

theorem FileSystem.reached_eq_flatten {fs : FileSystem} {args : List Bytes}
    {expansions : List (List Bytes)} (h : args.map fs.expansion = expansions.map .ok) :
    fs.reached args = (expansions.flatten, none) := by
  induction args generalizing expansions with
  | nil =>
    obtain rfl : expansions = [] := by simpa using h.symm
    rfl
  | cons arg args ih =>
    cases expansions with
    | nil => simp at h
    | cons paths expansions =>
      simp only [List.map_cons, List.cons.injEq] at h
      rw [reached, h.1, ih h.2, List.flatten_cons]

namespace Job

/-- An argument that is no directory stands for itself, and nothing is noted about it. -/
theorem expand_of_not_directory {job : Job} {arg : Bytes} {w : World}
    (h : w.files.isDirectory arg ≠ .ok true) : job.expand arg w = (w, .ok [arg]) := by
  unfold expand
  split
  · rename_i hdir
    exact absurd hdir h
  · rfl

/-- Where no argument is a directory, the arguments are the files. No file that is dealt with becomes
a directory, so this remains so on the way. -/
theorem processArguments_of_no_directory (job : Job) {args : List Bytes} {w : World}
    (h : ∀ arg ∈ args, w.files.isDirectory arg ≠ .ok true) :
    job.processArguments args w = job.processEach args w := by
  induction args generalizing w with
  | nil => rfl
  | cons arg args ih =>
    rw [List.forall_mem_cons] at h
    rw [processArguments, expand_of_not_directory h.1]
    dsimp only
    cases hf : (job.processFile arg w).2.2 with
    | some f => rw [processEach_of_failure hf, processEach_of_failure hf]
    | none =>
      have hlater : ∀ a ∈ args,
          (job.processFile arg w).1.files.isDirectory a ≠ .ok true := by
        intro a ha
        rw [(alike_processFile job arg w).isDirectory_eq]
        exact h.2 a ha
      rw [processEach_of_success hf, processEach_of_success hf]
      simp only [processEach, Outcome.after, ih hlater, List.append_nil]

/-- Expanding arguments as they come is expanding all of them at the start: results, failure, output
and files are those of the run over the expansions, put together. Where no argument is a directory,
the run over arguments is the run over files, its log included. -/
theorem processPaths_eq_eager (job : Job) (args : List Bytes) (expansions : List (List Bytes))
    (w : World) (h : args.map (fun arg => (job.expand arg w).2) = expansions.map .ok) :
    let arguments := job.processPaths args w
    let files := job.processFiles expansions.flatten w
    (arguments.results = files.results ∧ arguments.failure = files.failure ∧
      arguments.world.out = files.world.out ∧ arguments.world.files = files.world.files) ∧
    ((∀ arg ∈ args, w.files.isDirectory arg ≠ .ok true) →
      job.processPaths args w = job.processFiles args w) := by
  intro arguments files
  have hexpansions : args.map w.files.expansion = expansions.map .ok := by
    rw [← h]
    exact List.map_congr_left fun arg _ => (expand_eq job arg w).2.symm
  obtain ⟨hworld, hresults, hfailure⟩ := processPaths_eq job args w
  rw [FileSystem.reached_eq_flatten hexpansions] at hworld hresults hfailure
  obtain ⟨hfiles, hout⟩ := World.quiet_inj.1 hworld
  have hnone : (job.processEach expansions.flatten w).orElse none =
      job.processEach expansions.flatten w := by simp [Outcome.orElse]
  refine ⟨⟨?_, ?_, ?_, ?_⟩, fun hdir => ?_⟩
  · rw [hresults]
    exact (verdict_results job _).symm
  · rw [hfailure, hnone]
    rfl
  · rw [hout]
    exact congrArg World.out (verdict_world job _).symm
  · rw [hfiles]
    exact congrArg World.files (verdict_world job _).symm
  · rw [processPaths, processFiles, processArguments_of_no_directory job hdir]

/-- A directory, and a link to the source in it, which is rewritten before the link is looked at. -/
theorem processPaths_eq_eager_linkedSource :
    let job : Job := { settings := ⟨bytes "use", bytes "lib"⟩ }
    let args := [bytes ".", bytes "b"]
    let expansions := [[bytes "a.ts"], [bytes "b"]]
    let w : World := { files := linkedSource }
    args.map (fun arg => (job.expand arg w).2) = expansions.map .ok ∧
      (job.processPaths args w).results = (job.processFiles expansions.flatten w).results ∧
      (job.processPaths args w).world.files =
        (job.processFiles expansions.flatten w).world.files := by
  have hexpand : [bytes ".", bytes "b"].map (fun arg => (Job.expand
      { settings := ⟨bytes "use", bytes "lib"⟩ } arg { files := linkedSource }).2) =
      [[bytes "a.ts"], [bytes "b"]].map .ok := by cbv
  intro job args expansions w
  obtain ⟨⟨hresults, -, -, hfiles⟩, -⟩ := processPaths_eq_eager job args expansions w hexpand
  exact ⟨hexpand, hresults, hfiles⟩

end Job

end HelperImports
