import HelperImports.FileSystem.Basic
import HelperImports.Text.Lines

/-! Reading and writing files by their paths. -/

namespace HelperImports.FileSystem

/-- The path of the working directory, with no links in it. -/
def workingDirectory (fs : FileSystem) : Except Fault Bytes :=
  if fs.here.removed = 0 then .ok (Path.spell true fs.here.names) else .error .noWorkingDirectory

/-- A directory stands at the end of the path. -/
def isDirectory (fs : FileSystem) (path : Bytes) : Except Fault Bool :=
  match fs.find .destination path with
  | .ok n => .ok n.isDir
  | .error c => .error (.access .looking path c)

/-- The content of the file that a path leads to. A directory can be opened, but not read. -/
def readFile (fs : FileSystem) (path : Bytes) : Except Fault Bytes :=
  match fs.find .destination path with
  | .ok (.file content) => .ok content
  | .ok _ => .error (.access .reading path .isDirectory)
  | .error c => .error (.access .opening path c)

/-- Makes `content` the content of the file that a path leads to, and makes the file if there is
none. Where the content is longer than a file can be, the file is left with its beginning. -/
def writeFile (fs : FileSystem) (path content : Bytes) : FileSystem × Option Fault :=
  match fs.locate .creation path with
  | .error c => (fs, some (.access .opening path c))
  | .ok p =>
    if fs.isDirAt p then (fs, some (.access .opening path .isDirectory))
    else
      let stored := match fs.limit with
        | none => content
        | some n => content.take n
      (fs.put p.names (.file stored) (.file stored),
        if stored.length = content.length then none
        else some (.access .writing path .fileTooLarge))

/-- The lines of the file that a path leads to. -/
def readLines (fs : FileSystem) (path : Bytes) : Except Fault (List Bytes) :=
  (fs.readFile path).map lines

/-- Makes the lines the content of the file that a path leads to. -/
def writeLines (fs : FileSystem) (path : Bytes) (ls : List Bytes) : FileSystem × Option Fault :=
  fs.writeFile path (unlines ls)

end HelperImports.FileSystem
