import HelperImports.Text.Rune
import HelperImports.Text.Digit

/-! Identifiers: a letter or an underscore, then letters, underscores and decimal digits, and none
of the reserved words. -/

namespace HelperImports

/-- The words that are no identifiers. -/
def reservedWords : List String :=
  ["break", "case", "chan", "const", "continue", "default", "defer", "else", "fallthrough", "for",
   "func", "go", "goto", "if", "import", "interface", "map", "package", "range", "return",
   "select", "struct", "switch", "type", "var"]

/-- A character that an identifier may begin with. -/
def isIdentifierStart (c : Char) : Bool := c == '_' || isLetter c

/-- A character that an identifier may go on with. -/
def isIdentifierPart (c : Char) : Bool := isIdentifierStart c || isDecimalDigit c

/-- `text` is an identifier. -/
def isIdentifier (text : Bytes) : Bool :=
  !(reservedWords.any fun word => bytes word == text) &&
    match runes text with
    | [] => false
    | first :: rest =>
      first.char?.any isIdentifierStart && rest.all fun r => r.char?.any isIdentifierPart

end HelperImports
