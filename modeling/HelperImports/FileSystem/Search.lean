import HelperImports.FileSystem.Basic
import HelperImports.Path.SourceFile

/-! Looking for component sources below a directory. Entries are visited in the order of their
names, links are not followed, and the first fault ends the search. -/

namespace HelperImports

/-- The paths found so far, and the fault that ended the search if one did. -/
structure Search where
  found : List Bytes := []
  fault : Option Fault := none
  deriving DecidableEq, Repr

namespace Search

/-- Goes on with another search, unless a fault has ended the first. -/
def andThen (a b : Search) : Search :=
  match a.fault with
  | some _ => a
  | none => ⟨a.found ++ b.found, b.fault⟩

/-- What is found at a path where no directory stands: the path, if its last name is that of a
source. -/
def single (path : Bytes) : Search :=
  if Path.isSourceFile (Path.base path) then { found := [path] } else {}

/-- A directory that a search from `root` passes over. It is told from the root by its path. -/
def passesOver (root path : Bytes) : Bool :=
  path != root && Path.isSkippedDirectory (Path.base path)

mutual

/-- The sources at and below `node`, which stands at `path`, for a search from `root`. -/
def below (root path : Bytes) : Node → Search
  | .dir es => if passesOver root path then {} else belowAll root path es
  | _ => single path

/-- The sources at and below the entries of the directory at `path`. -/
def belowAll (root path : Bytes) : List (Bytes × Node) → Search
  | [] => {}
  | (name, node) :: es =>
    let entry := Path.join [path, name]
    let first :=
      if maxPathLength ≤ entry.length then
        { fault := some (.access .lookingAtLink entry .nameTooLong) }
      else below root entry node
    first.andThen (belowAll root path es)

end

end Search

namespace FileSystem

/-- The sources at and below the entries with the given names of the directory `root`, each looked
up by its path. -/
def searchEntries (fs : FileSystem) (root : Bytes) : List Bytes → Search
  | [] => {}
  | name :: names =>
    let entry := Path.join [root, name]
    match fs.find .itself entry with
    | .error c => { fault := some (.access .lookingAtLink entry c) }
    | .ok node => (Search.below root entry node).andThen (fs.searchEntries root names)

/-- The sources at and below a path. The name of the path itself is no reason to pass over it. -/
def findSources (fs : FileSystem) (path : Bytes) : Search :=
  match fs.locate .itself path with
  | .error c => { fault := some (.access .lookingAtLink path c) }
  | .ok p =>
    match fs.node? p with
    | some (.dir es) =>
      if p.removed ≠ 0 then { fault := some (.access .listing path .notExist) }
      else if Search.passesOver path path then {}
      else fs.searchEntries path (es.map (·.1))
    | _ => Search.single path

end FileSystem

end HelperImports
