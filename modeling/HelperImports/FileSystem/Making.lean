import HelperImports.FileSystem.Access

/-! Making and removing what a file system holds. -/

namespace HelperImports

mutual

/-- The files in a tree with the names that lead to them, in the order of the names. -/
def Node.files : Node → List (List Bytes × Bytes)
  | .file content => [([], content)]
  | .link _ => []
  | .dir es => entryFiles es

/-- The files at and below the entries of a directory. -/
def entryFiles : List (Bytes × Node) → List (List Bytes × Bytes)
  | [] => []
  | (name, node) :: es => node.files.map (fun (names, c) => (name :: names, c)) ++ entryFiles es

end

namespace FileSystem

/-- Makes a directory where nothing stands yet. -/
def makeDirectory (fs : FileSystem) (path : Bytes) : FileSystem :=
  match fs.locate .creation path with
  | .error _ => fs
  | .ok p =>
    match fs.node? p with
    | some _ => fs
    | none => fs.put p.names (.dir []) Node.wellFormed_empty

/-- Makes every directory on the way along a path. -/
def makeDirectories (fs : FileSystem) (path : Bytes) : FileSystem :=
  let names := Path.names path
  (List.range names.length).foldl
    (fun fs n => fs.makeDirectory (Path.spell (Path.isRooted path) (names.take (n + 1)))) fs

/-- Makes a file, with the directories on the way to it. -/
def makeFile (fs : FileSystem) (path content : Bytes) : FileSystem :=
  ((fs.makeDirectories (Path.parent path)).writeFile path content).1

/-- Makes a link, with the directories on the way to it, where nothing stands yet. -/
def makeLink (fs : FileSystem) (path target : Bytes) : FileSystem :=
  let fs := fs.makeDirectories (Path.parent path)
  match fs.locate .itself (Path.parent path ++ bytes "/"), fs.find .itself path with
  | .ok p, .error .notExist =>
    fs.put (p.down (Path.base path)).names (.link target) (.link target)
  | _, _ => fs

/-- Makes the directory at the end of a path the working directory. -/
def enter (fs : FileSystem) (path : Bytes) : FileSystem :=
  match fs.locate .destination path with
  | .ok p => if fs.isDirAt p then { fs with here := p } else fs
  | .error _ => fs

/-- Removes what stands under a path, with all that is below it. A working directory there stays
the working directory, outside of the tree. -/
def remove (fs : FileSystem) (path : Bytes) : FileSystem :=
  match fs.locate .itself path with
  | .error _ => fs
  | .ok p =>
    match hroot : fs.tree.erase p.names with
    | .dir root =>
      let depth := p.names.length
      let here :=
        if p.removed = 0 ∧ 0 < depth ∧ p.names.isPrefixOf fs.here.names then
          ⟨p.names.dropLast, fs.here.removed + (fs.here.names.length + 1 - depth)⟩
        else fs.here
      { fs with root, here, wellFormed := hroot ▸ Node.WellFormed.erase fs.wellFormed p.names }
    | _ => fs

end FileSystem

end HelperImports
