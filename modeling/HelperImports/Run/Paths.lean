import HelperImports.FileSystem.Search
import HelperImports.Run.Job

/-! A run over several files. The first failure ends it; a check that finds files to change fails
in the end. -/

namespace HelperImports

/-- What a run leaves: the world, the results of the files that were dealt with, and what ended it
early. -/
structure Outcome where
  world : World
  results : List Result := []
  failure : Option Failure := none

namespace Job

/-- Deals with the files one after the other, up to the first failure. -/
def processEach (job : Job) : List Bytes → World → Outcome
  | [], w => { world := w }
  | path :: paths, w =>
    match job.processFile path w with
    | (w, _, some f) => { world := w, failure := some f }
    | (w, r, none) =>
      let rest := job.processEach paths w
      { rest with results := r :: rest.results }

/-- The number of files that an edit changes. -/
def pendingCount (results : List Result) : Nat := results.countP (·.changed)

/-- A check fails if files would change. -/
def verdict (job : Job) (o : Outcome) : Outcome :=
  match o.failure with
  | some _ => o
  | none =>
    if job.mode = .check ∧ 0 < pendingCount o.results then
      { o with failure := some (.pending (pendingCount o.results)) }
    else o

/-- Deals with the given files. -/
def processFiles (job : Job) (paths : List Bytes) (w : World) : Outcome :=
  job.verdict (job.processEach paths w)

/-- The record of a directory that was searched. -/
def foundSources (dir : Bytes) (count : Nat) : Log.Record :=
  ⟨.info, "found source files", [("dir", .text dir), ("count", .count count)]⟩

/-- The files that an argument stands for: the sources below a directory, or else the argument
itself, be it a file or not. -/
def expand (job : Job) (arg : Bytes) (w : World) : World × Except Failure (List Bytes) :=
  match w.files.isDirectory arg with
  | .ok true =>
    let s := w.files.findSources arg
    match s.fault with
    | some f => (w, .error (.searching arg f))
    | none => (w.note job (foundSources arg s.found.length), .ok s.found)
  | _ => (w, .ok [arg])

/-- Expands the arguments and deals with their files, each argument before the next one is looked
at. -/
def processArguments (job : Job) : List Bytes → World → Outcome
  | [], w => { world := w }
  | arg :: args, w =>
    match job.expand arg w with
    | (w, .error f) => { world := w, failure := some f }
    | (w, .ok paths) =>
      let first := job.processEach paths w
      match first.failure with
      | some _ => first
      | none =>
        let rest := job.processArguments args first.world
        { rest with results := first.results ++ rest.results }

/-- Deals with the given files and directories. -/
def processPaths (job : Job) (args : List Bytes) (w : World) : Outcome :=
  job.verdict (job.processArguments args w)

end Job

end HelperImports
