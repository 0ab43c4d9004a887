import HelperImports.Text.Blank

/-! Import lines. A line is an import if it begins with the keyword, unindented; a line imports the
helper if it is an import once trimmed and mentions the helper anywhere. -/

namespace HelperImports.Import

/-- What a line is. -/
inductive Kind where
  | other
  | regular
  | typeOnly
  deriving DecidableEq, Repr

/-- How an import begins. -/
def keyword : Bytes := bytes "import "

/-- How an import of types only begins. -/
def typeKeyword : Bytes := bytes "import type "

/-- How a grouped import of types begins. -/
def groupOpener : Bytes := bytes "import type \x7b"

/-- How the last line of a grouped import of types ends. -/
def groupCloser : Bytes := bytes "\x7d from '../types';"

namespace Kind

/-- The kind of a line, by how it begins: an indented line is no import, so that statements inside
a block stay out of the leading run of imports. -/
def ofLine (line : Bytes) : Kind :=
  if typeKeyword.isPrefixOf line then .typeOnly
  else if keyword.isPrefixOf line then .regular
  else .other

/-- The kind with the given number; numbers without a kind are `other`. -/
def ofCode : Int → Kind
  | 1 => .regular
  | 2 => .typeOnly
  | _ => .other

/-- The name of a kind in reports. -/
def name : Kind → String
  | .other => "other"
  | .regular => "import"
  | .typeOnly => "type-import"

/-- An import of either kind. -/
def isImport : Kind → Bool
  | .other => false
  | .regular => true
  | .typeOnly => true

end Kind

/-- `line` imports `helper`. Indentation does not matter here: an indented import is present. -/
def importsHelper (helper line : Bytes) : Bool :=
  keyword.isPrefixOf (trim line) && helper.occursIn line

/-- `line` begins a grouped import of types. -/
def opensGroup (line : Bytes) : Bool := groupOpener.isPrefixOf line

/-- `line` ends a grouped import of types. -/
def closesGroup (line : Bytes) : Bool := groupCloser.isSuffixOf (trim line)

/-- The statement that imports `helper` from `specifier`. -/
def statement (helper specifier : Bytes) : Bytes :=
  bytes "import \x7b " ++ helper ++ bytes " \x7d from '" ++ specifier ++ bytes "';"

end HelperImports.Import
