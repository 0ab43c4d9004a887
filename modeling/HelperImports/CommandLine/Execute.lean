import HelperImports.CommandLine.Flag
import HelperImports.CommandLine.Help
import HelperImports.Run.Paths
import HelperImports.Settings.Load
import HelperImports.Version

/-! The command: arguments, environment and files in, output, exit status and files out. -/

namespace HelperImports

/-- The flags of the command. -/
def commandFlags : List Flag :=
  [{ name := "config" },
   { name := "helper" },
   { name := "bindings-module" },
   { name := "dry-run", kind := .switch },
   { name := "check", kind := .switch },
   { name := "verbose", kind := .switch },
   { name := "version", letter := some 'v', kind := .switch },
   { name := "help", letter := some 'h', kind := .switch }]

/-- What flags say about settings. -/
def ParsedFlags.settings (p : ParsedFlags) : Settings.Source where
  helper := p.value? "helper"
  bindings := p.value? "bindings-module"

/-- The mode that the switches ask for. -/
def ParsedFlags.mode (p : ParsedFlags) : Mode :=
  if p.isOn "dry-run" then .preview else if p.isOn "check" then .check else .write

/-- How the command was called. -/
structure Invocation where
  arguments : List Bytes
  environment : List (Bytes × Bytes) := []
  palette : Palette := .plain
  build : Build := {}
  /-- What the build was made with. -/
  compiler : Bytes
  /-- What the build was made for. -/
  platform : Bytes

/-- Why the command fails. -/
inductive CommandError where
  | flags (e : FlagError)
  /-- Two modes are asked for at once. -/
  | exclusive
  | settings (e : Settings.LoadError)
  | run (f : Failure)

/-- The wording of an error. -/
def CommandError.message : CommandError → Bytes
  | flags e => e.message
  | exclusive =>
    bytes "if any flags in the group [dry-run check] are set none of the others can be; " ++
      bytes "[check dry-run] were all set"
  | settings e => e.message
  | run f => f.message

/-- How a call of the command ends. -/
inductive Ending where
  | success
  | error (e : CommandError)
  /-- The program breaks down, with no error to report. -/
  | crash

/-- What the command leaves. -/
structure Completion where
  world : World
  ending : Ending := .success

/-- Succeeds with some output. -/
def Completion.printing (w : World) (text : Bytes) : Completion :=
  { world := { w with out := (w.out.write text).1 } }

/-- The record of a run to the end. -/
def runComplete (results : List Result) : Log.Record :=
  ⟨.info, "run complete",
    [("files", .count results.length), ("using_helper", .count (results.countP (·.usesHelper))),
      ("inserted", .count (results.countP (·.inserted)))]⟩

namespace Invocation

/-- The job that flags and settings ask for. -/
def job (i : Invocation) (p : ParsedFlags) (s : Settings) : Job where
  settings := s
  mode := p.mode
  palette := i.palette
  logFrom := some (if p.isOn "verbose" then .debug else .warn)

/-- Runs the command once its flags are known. Help comes first, then the check that only one mode
is asked for, then the version. -/
def perform (i : Invocation) (p : ParsedFlags) (w : World) : Completion :=
  if p.isOn "help" then .printing w helpText
  else if p.isGiven "dry-run" && p.isGiven "check" then { world := w, ending := .error .exclusive }
  else if p.isOn "version" then .printing w (i.build.describe i.compiler i.platform ++ bytes "\n")
  else
    match Settings.load w.files ((p.value? "config").getD []) p.settings
        (.ofEnvironment i.environment) with
    | .error .crash => { world := w, ending := .crash }
    | .error (.error e) => { world := w, ending := .error (.settings e) }
    | .ok s =>
      let job := i.job p s
      let o := job.processPaths p.arguments w
      match o.failure with
      | some f => { world := o.world, ending := .error (.run f) }
      | none => { world := o.world.note job (runComplete o.results) }

/-- Runs the command. -/
def execute (i : Invocation) (w : World) : Completion :=
  match ParsedFlags.parse commandFlags i.arguments with
  | .error e => { world := w, ending := .error (.flags e) }
  | .ok p => i.perform p w

end Invocation

namespace Completion

/-- The exit status: one after an error, and two after a crash. -/
def status (c : Completion) : Nat :=
  match c.ending with
  | .success => 0
  | .error _ => 1
  | .crash => 2

/-- What the command writes to the error output: the log, and the error at its end. -/
def errorText (c : Completion) : Bytes :=
  c.world.log.flatMap Log.Record.toBytes ++
    match c.ending with
    | .error e => bytes "Error: " ++ e.message ++ bytes "\n"
    | _ => []

end Completion

end HelperImports
