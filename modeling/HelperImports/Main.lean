import HelperImports.CommandLine.Execute
import HelperImports.FileSystem.Making

/-! The command as a program. The files that the arguments lead to are read, the command runs on
them, and the files that it changed are written back. -/

namespace HelperImports.Main

/-- A text from outside as bytes, and bytes as a text to go outside. -/
def toText (b : Bytes) : String := String.fromUTF8? b.toByteArray |>.getD ""

/-- Reads what stands under an absolute path into the file system. What a link leads to is read as
well, once; directories that no search enters are left empty. -/
partial def readTree (path : String) (enter : Bool) (fs : FileSystem) : IO FileSystem := do
  let place := (← IO.currentDir) / path
  match ← (place.symlinkMetadata).toBaseIO with
  | .error _ => return fs
  | .ok info =>
    match info.type with
    | .file => return fs.makeFile (bytes path) (← IO.FS.readBinFile path).data.toList
    | .dir =>
      let fs := fs.makeDirectories (bytes path)
      if !enter && Path.isSkippedDirectory (Path.base (bytes path)) then return fs
      (← place.readDir).foldlM (fun fs e => readTree e.path.toString false fs) fs
    | .symlink =>
      match ← (IO.FS.realPath path).toBaseIO with
      | .error _ => return fs.makeLink (bytes path) (bytes path)
      | .ok target =>
        let known := match fs.find .itself (bytes target.toString) with
          | .ok _ => true
          | .error _ => false
        let fs ← if known then pure fs else readTree target.toString true fs
        return fs.makeLink (bytes path) (bytes target.toString)
    | .other => return fs

/-- Reads what a path leads to, with the links on the way. -/
def readPath (fs : FileSystem) (path : Bytes) : IO FileSystem := do
  let names := Path.names path
  let mut fs := fs
  for n in List.range names.length do
    let part := toText (Path.spell true (names.take (n + 1)))
    let place := (← IO.currentDir) / part
    match ← (place.symlinkMetadata).toBaseIO with
    | .error _ => pure ()
    | .ok info =>
      if n + 1 = names.length || info.type matches .symlink then fs ← readTree part true fs
  return fs

/-- The file system, as far as the command looks at it. -/
def readFiles (arguments : List Bytes) : IO FileSystem := do
  let here := bytes (← IO.currentDir).toString
  let config := match ParsedFlags.parse commandFlags arguments with
    | .ok p => (p.value? "config").toList ++ p.arguments
    | .error _ => []
  let paths := config ++ Settings.configNames.map bytes
  let absolute := paths.map fun p => if Path.isRooted p then p else Path.join [here, p]
  let fs ← absolute.foldlM readPath (FileSystem.makeDirectories {} here)
  return fs.enter here

/-- Writes the files that differ. -/
def writeFiles (before after : FileSystem) : IO Unit := do
  let old := before.tree.files
  for (names, content) in after.tree.files do
    if old.lookup names != some content then
      IO.FS.writeBinFile (toText (Path.spell true names)) content.toByteArray

end HelperImports.Main

open HelperImports in
/-- Runs the command and gives its exit status. -/
def main (args : List String) : IO UInt32 := do
  let arguments := args.map bytes
  let mut environment := []
  for name in [Settings.helperVariable, Settings.bindingsVariable] do
    if let some value ← IO.getEnv name then
      environment := (bytes name, bytes value) :: environment
  let files ← Main.readFiles arguments
  let i : Invocation :=
    { arguments, environment, compiler := bytes "lean4", platform := bytes "native" }
  let c := i.execute { files }
  Main.writeFiles files c.world.files
  (← IO.getStdout).write c.world.out.taken.toByteArray
  (← IO.getStderr).write c.errorText.toByteArray
  return c.status.toUInt32
