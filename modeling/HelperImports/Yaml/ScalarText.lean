import HelperImports.Yaml.Cursor

/-! The texts of YAML scalars: plain, in quotes, and as blocks. Lines are folded, so that a single
line break between two lines of text is a space. -/

namespace HelperImports.Yaml

/-- White space between two words: spaces up to the first line break, and the line breaks. -/
structure Space where
  gap : List Char := []
  breaks : List (List Char) := []
  deriving DecidableEq, Repr

/-- White space as it counts between words. Within a line it stands as it is, one line break is a
space, and of more line breaks all but the first stand. -/
def Space.folded (s : Space) : List Char :=
  match s.breaks with
  | [] => s.gap
  | first :: more =>
    if first == ['\n'] then
      if more.isEmpty then [' '] else more.flatten
    else first ++ more.flatten

/-- Reads white space. After a line break, a tab before column `tabsFrom` is refused. -/
def space? (tabsFrom : Nat) (c : Cursor) : Option (Space × Cursor) := do
  let c ← c.view? 1
  go (c.bound + 1) {} c
where
  /-- At most `fuel` more characters and line breaks are read. -/
  go : Nat → Space → Cursor → Option (Space × Cursor)
    | 0, s, c => some (s, c)
    | fuel + 1, s, c =>
      if c.atBreak then do
        let (b, c) ← c.passBreak?
        go fuel { s with breaks := s.breaks ++ [b] } (← c.view? 1)
      else if !c.head?.any isGap then some (s, c)
      else if s.breaks.isEmpty then do
        go fuel { s with gap := s.gap ++ c.rest.take 1 } (← c.skip.view? 1)
      else if c.head? == some '\t' && c.column < tabsFrom then none
      else do go fuel s (← c.skip.view? 1)

/-- The characters that end a plain scalar inside brackets. -/
def isFlowIndicator (c : Char) : Bool := ",?[]".toList.contains c || c == '\x7b' || c == '\x7d'

/-- The word of a plain scalar at the start of a text: up to white space, to a colon before white
space, and inside brackets to an indicator. -/
def plainWord (inFlow : Bool) : List Char → List Char
  | [] => []
  | c :: rest =>
    if isGap c || isBreak c || (c == ':' && isGapOrEnd rest) || (inFlow && isFlowIndicator c) then
      []
    else c :: plainWord inFlow rest

/-- A scalar that was read: its text, the cursor behind it, and whether the cursor has come to
another line. -/
structure PlainText where
  text : List Char
  after : Cursor
  newLine : Bool

/-- Reads a plain scalar, whose further lines have to be indented to column `indent` unless it
stands inside brackets. White space behind it is read, too. -/
def plainText? (inFlow : Bool) (indent : Nat) (c : Cursor) : Option PlainText :=
  go (c.bound + 1) [] {} c
where
  /-- `parts` are what was read before the white space `s`, the last one first. -/
  go : Nat → List (List Char) → Space → Cursor → Option PlainText
    | 0, parts, s, c => some (done parts s c)
    | fuel + 1, parts, s, c => do
      let c ← c.view? 4
      if c.isDocumentMark || c.head? == some '#' then return done parts s c
      let word := plainWord inFlow c.rest
      let c ← c.pass? 2 word.length
      let (parts, s) := if word.isEmpty then (parts, s) else (word :: s.folded :: parts, {})
      if !c.head?.any fun ch => isGap ch || isBreak ch then return done parts s c
      let (s, c) ← space? indent c
      if !inFlow && c.column < indent then return done parts s c
      go fuel parts s c
  /-- The scalar ends here. -/
  done (parts : List (List Char)) (s : Space) (c : Cursor) : PlainText :=
    ⟨parts.reverse.flatten, c, !s.breaks.isEmpty⟩

/-- The character that an escape letter stands for. -/
def escaped? : Char → Option Nat
  | '0' => some 0x00
  | 'a' => some 0x07
  | 'b' => some 0x08
  | 't' => some 0x09
  | '\t' => some 0x09
  | 'n' => some 0x0A
  | 'v' => some 0x0B
  | 'f' => some 0x0C
  | 'r' => some 0x0D
  | 'e' => some 0x1B
  | ' ' => some 0x20
  | '"' => some 0x22
  | '\x27' => some 0x27
  | '\\' => some 0x5C
  | 'N' => some 0x85
  | '_' => some 0xA0
  | 'L' => some 0x2028
  | 'P' => some 0x2029
  | _ => none

/-- The number of digits behind an escape letter that stands for a code point. -/
def escapeDigits? : Char → Option Nat
  | 'x' => some 2
  | 'u' => some 4
  | 'U' => some 8
  | _ => none

/-- The value of a digit in base 16. -/
def hexDigit? (c : Char) : Option Nat :=
  if '0' ≤ c ∧ c ≤ '9' then some (c.toNat - 0x30)
  else if 'a' ≤ c ∧ c ≤ 'f' then some (c.toNat - 0x57)
  else if 'A' ≤ c ∧ c ≤ 'F' then some (c.toNat - 0x37)
  else none

/-- The value of digits in base 16. -/
def hexValue? (cs : List Char) : Option Nat :=
  cs.foldlM (fun n c => (hexDigit? c).map (n * 16 + ·)) 0

/-- The character with the given code point, if it has one. -/
def charOf? (code : Nat) : Option Char :=
  if code.isValidChar then some (Char.ofNat code) else none

/-- Reads an escape sequence from its backslash on. -/
def escape? (c : Cursor) : Option (Char × Cursor) := do
  let letter ← c.skip.head?
  let c := c.skip 2
  match escaped? letter with
  | some code => return (Char.ofNat code, c)
  | none =>
    let n ← escapeDigits? letter
    let c ← c.view? n
    let digits := c.rest.take n
    guard (digits.length = n)
    return (← charOf? (← hexValue? digits), c.skip n)

/-- The quotes that a scalar stands in. -/
inductive Quotes where
  | single
  | double
  deriving DecidableEq, Repr

/-- The quote at either end of a scalar. -/
def Quotes.mark : Quotes → Char
  | single => '\x27'
  | double => '"'

/-- A scalar in quotes ends here. Inside single quotes, a quote that is written twice does not end
it. -/
def Quotes.endAt : Quotes → List Char → Bool
  | single, '\x27' :: rest => rest.head? != some '\x27'
  | double, '"' :: _ => true
  | _, _ => false

/-- A line of a scalar in double quotes ends here with a backslash, which joins it to the next. -/
def Quotes.joinAt : Quotes → List Char → Bool
  | double, '\\' :: b :: _ => isBreak b
  | _, _ => false

/-- Reads a character of a scalar in quotes. -/
def quotedChar? (q : Quotes) (c : Cursor) : Option (Char × Cursor) :=
  match q, c.rest with
  | _, [] => none
  | .single, '\x27' :: _ => some ('\x27', c.skip 2)
  | .double, '\\' :: _ => escape? c
  | _, ch :: _ => some (ch, c.skip)

/-- Characters of a scalar in quotes with no white space between them. -/
structure QuotedRun where
  text : List Char := []
  after : Cursor
  /-- The run ends with its line, which is joined to the next. -/
  joined : Bool := false

/-- Reads the characters of a scalar in quotes up to white space or to the quote at its end. At most
`fuel` characters are read. -/
def quotedRun? (q : Quotes) : Nat → Cursor → Option QuotedRun
  | 0, c => some { after := c }
  | fuel + 1, c =>
    if isGapOrEnd c.rest || q.endAt c.rest then some { after := c }
    else if q.joinAt c.rest then do
      let c ← c.view? 3
      return { after := (← c.skip.passBreak?).2, joined := true }
    else do
      let (ch, c) ← quotedChar? q c
      let run ← quotedRun? q fuel (← c.view? 2)
      return { run with text := ch :: run.text }

/-- Reads a scalar in quotes from behind the first of them. -/
def quotedText? (q : Quotes) (c : Cursor) : Option (List Char × Cursor) :=
  go (c.bound + 1) [] c
where
  /-- `parts` are what was read, the last one first. -/
  go : Nat → List (List Char) → Cursor → Option (List Char × Cursor)
    | 0, _, _ => none
    | fuel + 1, parts, c => do
      let c ← c.view? 4
      guard (!c.isDocumentMark && !c.rest.isEmpty)
      let run ← quotedRun? q (c.bound + 1) c
      let parts := run.text :: parts
      let c ← run.after.view? 1
      if c.head? == some q.mark then return (parts.reverse.flatten, c.skip)
      let (s, c) ← space? 0 c
      go fuel ((if run.joined then s.breaks.flatten else s.folded) :: parts) c

/-- What becomes of the line breaks at the end of a block scalar. -/
inductive Chomping where
  | strip
  | clip
  | keep
  deriving DecidableEq, Repr

/-- The line behind the mark of a block scalar: how it ends, and how far it is indented if that is
said. -/
structure BlockHeader where
  chomping : Chomping := .clip
  indentation : Option Nat := none
  deriving DecidableEq, Repr

/-- The chomping that a character asks for. -/
def chomping? : Char → Option Chomping
  | '+' => some .keep
  | '-' => some .strip
  | _ => none

/-- The indentation that a digit asks for; zero is refused. -/
def indentation? (c : Char) : Option Nat :=
  if c.isDigit && c != '0' then some (c.toNat - 0x30) else none

/-- Reads the header of a block scalar, and its line to the end. -/
def blockHeader? (c : Cursor) : Option (BlockHeader × Cursor) := do
  let (chomping, c) ← mark? chomping? c
  guard (c.head? != some '0')
  let (indentation, c) ← mark? indentation? c
  let (chomping, c) ←
    if chomping.isNone && indentation.isSome then mark? chomping? c else some (chomping, c)
  return (⟨chomping.getD .clip, indentation⟩, ← c.finishLine?)
where
  /-- Reads one character if it is a mark. -/
  mark? {α : Type} (read : Char → Option α) (c : Cursor) : Option (Option α × Cursor) := do
    let c ← c.view? 1
    match c.head?.bind read with
    | some a => return (some a, c.skip)
    | none => return (none, c)

/-- Empty lines of a block scalar: their line breaks, and the greatest column that indentation came
to. -/
structure EmptyLines where
  breaks : List Char := []
  widest : Nat := 0

/-- Reads the indentation of a line and the empty lines before it. Indentation goes up to column
`indent`, or as far as it can if that is not given; a tab in it is refused. -/
def emptyLines? (indent : Option Nat) (c : Cursor) : Option (EmptyLines × Cursor) :=
  go (c.bound + 1) {} c
where
  /-- At most `fuel` more lines are read. -/
  go : Nat → EmptyLines → Cursor → Option (EmptyLines × Cursor)
    | 0, e, c => some (e, c)
    | fuel + 1, e, c => do
      let c ← c.view? 1
      let spaces := (c.rest.takeWhile (· == ' ')).length
      let c ← c.pass? 1 (match indent with
        | some n => min spaces (n - c.column)
        | none => spaces)
      let e := { e with widest := max e.widest c.column }
      let inIndent := match indent with
        | some n => c.column < n
        | none => true
      guard (!(inIndent && c.head? == some '\t'))
      if c.atBreak then
        let (b, c) ← c.passBreak?
        go fuel { e with breaks := e.breaks ++ b } c
      else return (e, c)

/-- A block scalar that is being read: its parts so far, the last one first, the break of the line
read last, the empty lines behind it, and whether that line began with a gap. -/
structure BlockText where
  parts : List (List Char) := []
  lineBreak : List Char := []
  emptyLines : List Char := []
  gapFirst : Bool := false

/-- Reads the lines of a block scalar that are indented to column `indent`. Unless it is `literal`,
the break between two lines that begin with no gap is folded. -/
def blockLines? (literal : Bool) (indent : Nat) : Nat → BlockText → Cursor →
    Option (BlockText × Cursor)
  | 0, t, c => some (t, c)
  | fuel + 1, t, c =>
    if c.column ≠ indent || c.rest.isEmpty then some (t, c)
    else do
      let gapFirst := c.head?.any isGap
      let joint :=
        if !literal && !t.gapFirst && !gapFirst && t.lineBreak == ['\n'] then
          if t.emptyLines.isEmpty then [' '] else []
        else t.lineBreak
      let (line, c) ← c.takeWhile? (!isBreak ·)
      let parts := line :: t.emptyLines :: joint :: t.parts
      let (lineBreak, c) ← c.passBreak?
      let (e, c) ← emptyLines? (some indent) c
      blockLines? literal indent fuel ⟨parts, lineBreak, e.breaks, gapFirst⟩ c

/-- Reads a block scalar from behind its mark. `parent` is the column of the collection it stands
in, or `-1`. -/
def blockText? (literal : Bool) (parent : Int) (c : Cursor) : Option (List Char × Cursor) := do
  let (header, c) ← blockHeader? c
  let base := parent.toNat
  let (first, c) ← emptyLines? (header.indentation.map (base + ·)) c
  let indent := match header.indentation with
    | some n => base + n
    | none => max first.widest (max (parent + 1).toNat 1)
  let (t, c) ← blockLines? literal indent (c.bound + 1) { emptyLines := first.breaks } c
  let ending := match header.chomping with
    | .strip => []
    | .clip => t.lineBreak
    | .keep => t.lineBreak ++ t.emptyLines
  return ((ending :: t.parts).reverse.flatten, c)

end HelperImports.Yaml
