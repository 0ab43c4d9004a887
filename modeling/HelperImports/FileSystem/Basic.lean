import HelperImports.FileSystem.Node
import HelperImports.FileSystem.Fault

/-! The file system, and where a path leads in it. Links are followed on the way, at most forty of
them; a working directory that was removed still is a directory, but there is nothing in it. -/

namespace HelperImports

/-- A position on the way along a path: below the directory at `names`, `removed` directories that
are no longer part of the tree. -/
structure Place where
  names : List Bytes
  removed : Nat := 0
  deriving DecidableEq, Repr

namespace Place

/-- The directory above; above the root is the root. -/
def up (p : Place) : Place :=
  if p.removed = 0 then { p with names := p.names.dropLast }
  else { p with removed := p.removed - 1 }

/-- What stands under `name`. -/
def down (p : Place) (name : Bytes) : Place := { p with names := p.names ++ [name] }

end Place

/-- A tree of files with a working directory. -/
structure FileSystem where
  /-- The entries of the root directory. -/
  root : List (Bytes × Node) := []
  /-- The working directory. -/
  here : Place := ⟨[], 0⟩
  /-- The number of bytes a file can hold; any number if it is not given. -/
  limit : Option Nat := none
  wellFormed : (Node.dir root).WellFormed := by exact Node.wellFormed_empty

/-- What a path is followed for. -/
inductive Purpose where
  /-- What stands under the path, which may be a link. -/
  | itself
  /-- What the path leads to. -/
  | destination
  /-- What the path leads to, or would if it were made. -/
  | creation
  deriving DecidableEq, Repr

/-- The steps of a path. A slash at its end is one more step, without a name. -/
def pathSteps (path : Bytes) : List Bytes :=
  let names := (path.splitAt Path.slash).filter (!·.isEmpty)
  if path.getLast? = some Path.slash ∧ names ≠ [] then names ++ [[]] else names

/-- The longest name of an entry, in bytes. -/
def maxNameLength : Nat := 255

/-- The length that a path stays below, in bytes. -/
def maxPathLength : Nat := 4096

/-- The number of links that are followed along one path. -/
def maxLinks : Nat := 40

namespace FileSystem

/-- The tree as one directory. -/
def tree (fs : FileSystem) : Node := .dir fs.root

/-- What stands at a place. A removed directory is empty. -/
def node? (fs : FileSystem) (p : Place) : Option Node :=
  if p.removed = 0 then fs.tree.get? p.names else some (.dir [])

/-- A directory stands at the place. -/
def isDirAt (fs : FileSystem) (p : Place) : Bool := (fs.node? p).any Node.isDir

/-- Where a path begins that is read at `p`. -/
def startOf (p : Place) (path : Bytes) : Place := if Path.isRooted path then ⟨[], 0⟩ else p

/-- Takes the steps one by one from `p`, following at most `links` links. -/
def follow (fs : FileSystem) (purpose : Purpose) (links : Nat) (steps : List Bytes) (p : Place) :
    Except Cause Place :=
  match steps with
  | [] => .ok p
  | name :: rest =>
    if !fs.isDirAt p then .error .notDirectory
    else if name.isEmpty || name == Path.dot then fs.follow purpose links rest p
    else if name == Path.dotDot then fs.follow purpose links rest p.up
    else if purpose = .creation ∧ rest = [[]] then .error .isDirectory
    else if p.removed ≠ 0 then .error .notExist
    else if maxNameLength < name.length then .error .nameTooLong
    else
      match fs.node? (p.down name) with
      | none => if purpose = .creation ∧ rest = [] then .ok (p.down name) else .error .notExist
      | some (.link target) =>
        if purpose = .itself ∧ rest = [] then .ok (p.down name)
        else
          match links with
          | 0 => .error .tooManyLinks
          | links + 1 =>
            fs.follow purpose links (pathSteps target ++ rest) (startOf p target)
      | some _ => fs.follow purpose links rest (p.down name)
termination_by (links, steps.length)

/-- Where a path leads. The empty path leads nowhere. -/
def locate (fs : FileSystem) (purpose : Purpose) (path : Bytes) : Except Cause Place :=
  if path.contains 0 then .error .invalidPath
  else if path.isEmpty then .error .notExist
  else if maxPathLength ≤ path.length then .error .nameTooLong
  else fs.follow purpose maxLinks (pathSteps path) (startOf fs.here path)

/-- What a path leads to. -/
def find (fs : FileSystem) (purpose : Purpose) (path : Bytes) : Except Cause Node := do
  let p ← fs.locate purpose path
  match fs.node? p with
  | some n => return n
  | none => throw .notExist

/-- The file system with `node` at a place. -/
def put (fs : FileSystem) (names : List Bytes) (node : Node) (h : node.WellFormed) : FileSystem :=
  match hput : fs.tree.put node names with
  | .dir root =>
    { fs with root, wellFormed := hput ▸ Node.WellFormed.put h fs.wellFormed names }
  | _ => fs

end FileSystem

end HelperImports
