import HelperImports.Text.Bytes

/-! Lines of a text. A newline divides two lines, so a text always has at least one line, and
joining its lines restores it. -/

namespace HelperImports

/-- The byte that divides lines. -/
def newline : UInt8 := 0x0A

/-- The lines of a text: an empty text is one empty line, and a text that ends in a newline has an
empty last line. -/
def lines (text : Bytes) : List Bytes := text.splitAt newline

/-- The text of the given lines. -/
def unlines (ls : List Bytes) : Bytes := Bytes.joinWith newline ls

end HelperImports
