import HelperImports.Yaml.Source

/-! A position in a YAML text, and the characters that matter there. The text in view grows by a
block where more of it is looked at than has been read. -/

namespace HelperImports.Yaml

/-- The characters that end a line. -/
def isBreak (c : Char) : Bool :=
  c == '\n' || c == '\r' || c.toNat == 0x85 || c.toNat == 0x2028 || c.toNat == 0x2029

/-- A space or a tab. -/
def isGap (c : Char) : Bool := c == ' ' || c == '\t'

/-- A character of a name: a letter, a digit, an underscore or a hyphen, all ASCII. -/
def isWordChar (c : Char) : Bool := c.isAlphanum || c == '_' || c == '-'

/-- A space, a tab, a line break, or the end of the text. -/
def isGapOrEnd : List Char → Bool
  | [] => true
  | c :: _ => isGap c || isBreak c

/-- A line break or the end of the text. -/
def isBreakOrEnd : List Char → Bool
  | [] => true
  | c :: _ => isBreak c

/-- The byte order mark as a character. -/
def byteOrderMark : Char := Char.ofNat 0xFEFF

/-- What is left to read, and where that begins, counted in characters. -/
structure Cursor where
  rest : List Char
  /-- How many of these characters are in view; the end of the text counts, too, once it is seen. -/
  inView : Nat := 0
  /-- The sizes of the blocks that are not in view. -/
  blocks : List Nat := []
  /-- The text ends behind the blocks. -/
  ends : Bool := true
  /-- The text in view began with a byte order mark when a block was added to it. -/
  marked : Bool := false
  /-- Nothing but a gap stands between the last line break and the cursor. -/
  newLine : Bool := false
  index : Nat := 0
  line : Nat := 0
  column : Nat := 0
  deriving DecidableEq, Repr

namespace Cursor

/-- The begin of a text. -/
def ofSource (s : Source) : Cursor where
  rest := s.blocks.flatten
  blocks := s.blocks.map List.length
  ends := s.ends

/-- The character at the cursor. -/
def head? (c : Cursor) : Option Char := c.rest.head?

/-- No more characters than this are left. -/
def bound (c : Cursor) : Nat := c.blocks.foldl (· + ·) c.inView

/-- Blocks are added to `inView` characters until there are `n`, or the text ends. -/
def fill (n : Nat) (ends : Bool) : Nat → List Nat → Option (Nat × List Nat)
  | inView, [] => if ends then some (inView + 1, []) else none
  | inView, size :: blocks =>
    if n ≤ inView + size then some (inView + size, blocks) else fill n ends (inView + size) blocks

/-- Brings `n` characters into view, as far as there are so many. What is no text cannot be brought
into view. -/
def view? (n : Nat) (c : Cursor) : Option Cursor :=
  if n ≤ c.inView then some c
  else do
    let (inView, blocks) ← fill n c.ends c.inView c.blocks
    return { c with inView, blocks, marked := c.head? == some byteOrderMark }

/-- Passes over `n` characters of the line. -/
def skip (c : Cursor) (n : Nat := 1) : Cursor :=
  let passed := c.rest.take n
  { c with
    rest := c.rest.drop n
    inView := c.inView - passed.length
    newLine := c.newLine && passed.all isGap
    index := c.index + passed.length
    column := c.column + passed.length }

/-- Passes over `n` characters of the line one by one, and brings `ahead` more into view each
time. -/
def pass? (ahead : Nat) : Nat → Cursor → Option Cursor
  | 0, c => some c
  | n + 1, c => do pass? ahead n (← c.skip.view? ahead)

/-- The characters at the cursor that satisfy `p`, and the cursor behind them. -/
def takeWhile? (p : Char → Bool) (c : Cursor) : Option (List Char × Cursor) := do
  let c ← c.view? 1
  let cs := c.rest.takeWhile p
  return (cs, ← c.pass? 1 cs.length)

/-- Passes over the characters of the line that satisfy `p`. -/
def skipWhile? (p : Char → Bool) (c : Cursor) : Option Cursor := (c.takeWhile? p).map (·.2)

/-- Passes over all up to the end of the line. -/
def skipToBreak? (c : Cursor) : Option Cursor := c.skipWhile? (!isBreak ·)

/-- The begin of the next line, behind a line break of `n` characters. -/
def nextLine (c : Cursor) (n : Nat) : Cursor :=
  { c with
    rest := c.rest.drop n
    inView := c.inView - n
    newLine := true
    index := c.index + n
    line := c.line + 1
    column := 0 }

/-- The cursor stands at a line break. -/
def atBreak (c : Cursor) : Bool := c.head?.any isBreak

/-- The line break at the cursor as it counts in a text, and the cursor behind it. A carriage return
counts as a newline, alone or with one. Where there is no line break, the cursor stays. -/
def passBreak? (c : Cursor) : Option (List Char × Cursor) := do
  let c ← c.view? 2
  match c.rest with
  | '\r' :: '\n' :: _ => return (['\n'], c.nextLine 2)
  | b :: _ =>
    if !isBreak b then return ([], c)
    else if b.toNat == 0x2028 || b.toNat == 0x2029 then return ([b], c.nextLine 1)
    else return (['\n'], c.nextLine 1)
  | [] => return ([], c)

/-- Passes over a gap, a comment behind it, and the line break. Nothing else may stand there. -/
def finishLine? (c : Cursor) : Option Cursor := do
  let c ← c.skipWhile? isGap
  let c ← if c.head? == some '#' then c.skipToBreak? else some c
  guard (isBreakOrEnd c.rest)
  if c.atBreak then return (← c.passBreak?).2 else return c

/-- The mark of a document's begin or end stands at the cursor: three hyphens or three dots at the
begin of a line, with nothing behind them but a gap. -/
def isDocumentMark (c : Cursor) : Bool :=
  c.column == 0 && (c.rest.take 3 == "---".toList || c.rest.take 3 == "...".toList) &&
    isGapOrEnd (c.rest.drop 3)

end Cursor

end HelperImports.Yaml
