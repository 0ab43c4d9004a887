import HelperImports.Import.Scan

/-! Placing the import of the helper: after the last regular import, and in front of the first
grouped import of types if that place is inside it. -/

namespace HelperImports.Import

/-- Takes the line at `src` out and puts it back at index `dst` of what is left. -/
def move (ls : List α) (src dst : Nat) : List α :=
  match ls[src]? with
  | none => ls
  | some l => (ls.eraseIdx src).insertIdx dst l

/-- `move`, refused where either index is none of the list's. -/
def move? (ls : List α) (src dst : Int) : Option (List α) :=
  if 0 ≤ src ∧ src < ls.length ∧ 0 ≤ dst ∧ dst < ls.length then
    some (move ls src.toNat dst.toNat)
  else none

/-- Moves the line at `i` behind the last regular import, and gives its new index. -/
def afterRegular (ls : List Bytes) (i : Nat) : List Bytes × Nat :=
  match lastRegular? ls with
  | none => (ls, i)
  | some last =>
    let target := if i ≤ last then last else last + 1
    (move ls i target, target)

/-- Moves the line at `i` in front of the first group if it stands inside it. -/
def outOfGroup (ls : List Bytes) (i : Nat) : List Bytes :=
  match group? ls with
  | none => ls
  | some g => if g.first ≤ i ∧ i ≤ g.last then move ls i g.first else ls

/-- Puts the first import of the helper in its place. -/
def place (helper : Bytes) (ls : List Bytes) : List Bytes :=
  match helperImport? helper ls with
  | none => ls
  | some i =>
    let (ls, i) := afterRegular ls i
    outOfGroup ls i

/-- Adds a line at the end of the leading run of imports. -/
def insert (line : Bytes) (ls : List Bytes) : List Bytes := ls.insertIdx (runLength ls) line

/-- A file with the import in its place. -/
structure Ensured where
  lines : List Bytes
  /-- The file had no import of the helper, and one was added. -/
  inserted : Bool
  deriving DecidableEq, Repr

/-- Makes sure that the helper is imported, and puts the import in its place. The specifier is
asked for only if the import has to be added. -/
def ensure (helper : Bytes) (specifier : Except ε Bytes) (ls : List Bytes) : Except ε Ensured :=
  match helperImport? helper ls with
  | some _ => .ok ⟨place helper ls, false⟩
  | none => do
    let specifier ← specifier
    return ⟨place helper (insert (statement helper specifier) ls), true⟩

end HelperImports.Import
