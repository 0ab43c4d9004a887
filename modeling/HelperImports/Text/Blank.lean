import HelperImports.Text.Rune

/-! White space, and texts without the white space at their ends. -/

namespace HelperImports

/-- The white space characters: tab to carriage return, space, next line, and the spaces and
separators beyond ASCII. -/
def isBlankChar (c : Char) : Bool :=
  let n := c.toNat
  (0x09 ≤ n && n ≤ 0x0D) || n == 0x20 || n == 0x85 || n == 0xA0 || n == 0x1680 ||
    (0x2000 ≤ n && n ≤ 0x200A) || n == 0x2028 || n == 0x2029 || n == 0x202F || n == 0x205F ||
    n == 0x3000

/-- A byte that reads as no character is not blank. -/
def Rune.isBlank (r : Rune) : Bool := r.char?.any isBlankChar

/-- The text between its first and its last character that is not blank. -/
def trim (text : Bytes) : Bytes :=
  unrunes (((runes text).dropWhile Rune.isBlank).reverse.dropWhile Rune.isBlank).reverse

end HelperImports
