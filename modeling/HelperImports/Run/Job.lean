import HelperImports.EditScript.Rendering
import HelperImports.FileSystem.Access
import HelperImports.Import.Placement
import HelperImports.Path.Specifier
import HelperImports.Run.Failure
import HelperImports.Run.Log
import HelperImports.Settings.Basic

/-! One file of a run: it is read, its import is put in its place, and the edit is written, shown
or only noted. -/

namespace HelperImports

/-- What becomes of an edited file. -/
inductive Mode where
  /-- It is written back. -/
  | write
  /-- Its edit is shown. -/
  | preview
  /-- It is noted that it would change. -/
  | check
  deriving DecidableEq, Repr

/-- What a run is asked to do. -/
structure Job where
  settings : Settings := {}
  mode : Mode := .write
  palette : Palette := .plain
  /-- The lowest level that is logged; nothing is logged if it is not given. -/
  logFrom : Option Level := none
  deriving DecidableEq, Repr

/-- What a run works on: files, output and log. -/
structure World where
  files : FileSystem
  out : Sink := .keep none []
  log : List Log.Record := []

/-- Adds a record to the log if its level is logged. -/
def World.note (w : World) (job : Job) (r : Log.Record) : World :=
  if job.logFrom.any fun l => l.rank ≤ r.level.rank then { w with log := w.log ++ [r] } else w

/-- What was done with one file. -/
structure Result where
  path : Bytes
  /-- The file mentions the helper; one that does not is left alone. -/
  usesHelper : Bool := false
  /-- An import was added. -/
  inserted : Bool := false
  /-- The edited text differs from the text that was read. -/
  changed : Bool := false
  /-- The file was written. -/
  written : Bool := false
  deriving DecidableEq, Repr

/-- The edit of a file that mentions the helper. -/
structure Edit where
  before : List Bytes
  after : List Bytes
  inserted : Bool
  deriving DecidableEq, Repr

namespace Edit

/-- The text that was read. -/
def oldText (e : Edit) : Bytes := unlines e.before

/-- The edited text. -/
def newText (e : Edit) : Bytes := unlines e.after

/-- The result of an edit before anything is done with it. -/
def result (e : Edit) (path : Bytes) : Result where
  path
  usesHelper := true
  inserted := e.inserted
  changed := e.oldText != e.newText

end Edit

namespace Job

/-- The lines of a file with the import ensured, for a file at `path`. -/
def ensure (job : Job) (fs : FileSystem) (dir : Bytes) (ls : List Bytes) :
    Except Fault Import.Ensured :=
  Import.ensure job.settings.helper
    (Specifier.between fs.workingDirectory dir job.settings.bindings) ls

/-- Reads a file and edits what was read. There is no edit if the helper is not mentioned. -/
def edit (job : Job) (fs : FileSystem) (path : Bytes) : Except Failure (Option Edit) :=
  match fs.readLines path with
  | .error f => .error (.reading path f)
  | .ok ls =>
    if Import.mentions job.settings.helper ls then
      match job.ensure fs (Path.parent path) ls with
      | .error f => .error (.resolving path f)
      | .ok e => .ok (some ⟨ls, e.lines, e.inserted⟩)
    else .ok none

/-- The record of a file that was left alone. -/
def skipped (path : Bytes) : Log.Record :=
  ⟨.debug, "helper not used, skipping", [("path", .text path)]⟩

/-- The record of a file that would change. -/
def needsUpdate (path : Bytes) : Log.Record :=
  ⟨.warn, "file needs import update", [("path", .text path)]⟩

/-- The record of a file that was dealt with. -/
def processed (r : Result) (e : Edit) : Log.Record :=
  ⟨.debug, "processed file",
    [("path", .text r.path), ("inserted", .flag r.inserted), ("changed", .flag r.changed),
      ("written", .flag r.written), ("diff", .text (lineCounts e.oldText e.newText).summary)]⟩

/-- Does with an edit what the mode asks for. -/
def apply (job : Job) (path : Bytes) (e : Edit) (w : World) : World × Result × Option Failure :=
  let r := e.result path
  match job.mode with
  | .preview =>
    let (out, ok) := w.out.writeAll (Rendering.writes job.palette path e.oldText e.newText)
    let w := { w with out }
    if ok then (w.note job (processed r e), r, none) else (w, r, some .rendering)
  | .check =>
    let w := if r.changed then w.note job (needsUpdate path) else w
    (w.note job (processed r e), r, none)
  | .write =>
    let (files, fault) := w.files.writeLines path e.after
    let w := { w with files }
    match fault with
    | some f => (w, r, some (.writing path f))
    | none =>
      let r := { r with written := true }
      (w.note job (processed r e), r, none)

/-- Deals with one file. -/
def processFile (job : Job) (path : Bytes) (w : World) : World × Result × Option Failure :=
  match job.edit w.files path with
  | .error (.resolving p f) => (w, { path, usesHelper := true }, some (.resolving p f))
  | .error f => (w, { path }, some f)
  | .ok none => (w.note job (skipped path), { path }, none)
  | .ok (some e) => job.apply path e w

end Job

end HelperImports
