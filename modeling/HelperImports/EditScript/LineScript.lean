import HelperImports.EditScript.Script
import HelperImports.Text.Lines

/-! Edit scripts between texts, line by line. A line is compared with the newline that ends it. -/

namespace HelperImports

/-- The lines of a text, each with the newline that ends it; the last line may have none, and is
left out if it is empty. -/
def terminatedLines : Bytes → List Bytes
  | [] => []
  | b :: rest =>
    if b = newline then [b] :: terminatedLines rest
    else
      match terminatedLines rest with
      | [] => [[b]]
      | l :: ls => (b :: l) :: ls

/-- The text of a chunk of lines. -/
def Chunk.text (c : Chunk Bytes) : Bytes := c.items.flatten

/-- The lines that a chunk of text shows: a newline at its end begins no line, and an empty text is
one empty line. -/
def shownLines (text : Bytes) : List Bytes := lines (Bytes.dropEnd [newline] text)

/-- The edit script between two texts. -/
def lineScript (before after : Bytes) : EditScript Bytes :=
  EditScript.between (terminatedLines before) (terminatedLines after)

/-- How many lines an edit adds and removes. -/
structure LineCounts where
  added : Nat
  removed : Nat
  deriving DecidableEq, Repr

/-- Counts the shown lines of the insertions and of the deletions. -/
def lineCounts (before after : Bytes) : LineCounts :=
  let shown (op : Op) : Nat :=
    (((lineScript before after).filter (·.op = op)).flatMap fun c => shownLines c.text).length
  ⟨shown .insert, shown .delete⟩

/-- The counts in one short text. -/
def LineCounts.summary (c : LineCounts) : Bytes :=
  bytes "+" ++ Bytes.ofNat c.added ++ bytes " -" ++ Bytes.ofNat c.removed

end HelperImports
