import HelperImports.Import.Line

/-! Where the imports of a file stand. -/

namespace HelperImports.Import

/-- The index of the first line that imports the helper. -/
def helperImport? (helper : Bytes) (ls : List Bytes) : Option Nat :=
  ls.findIdx? (importsHelper helper)

/-- Some line mentions the helper. -/
def mentions (helper : Bytes) (ls : List Bytes) : Bool := ls.any helper.occursIn

/-- The number of imports that the file begins with, of both kinds. -/
def runLength (ls : List Bytes) : Nat := (ls.takeWhile fun l => (Kind.ofLine l).isImport).length

/-- The index of the last regular import. -/
def lastRegular? : List Bytes → Option Nat
  | [] => none
  | l :: ls =>
    match lastRegular? ls with
    | some i => some (i + 1)
    | none => if Kind.ofLine l = .regular then some 0 else none

/-- A grouped import of types: the index of its first line, and of its last line or, if nothing
closes it, the number of lines of the file. -/
structure Group where
  first : Nat
  last : Nat
  deriving DecidableEq, Repr

/-- The first grouped import of types. -/
def group? (ls : List Bytes) : Option Group :=
  (ls.findIdx? opensGroup).map fun first =>
    ⟨first, first + ((ls.drop first).takeWhile fun l => !closesGroup l).length⟩

end HelperImports.Import
