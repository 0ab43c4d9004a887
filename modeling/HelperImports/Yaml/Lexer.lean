import HelperImports.Yaml.Comment
import HelperImports.Yaml.Property

/-! From a YAML text to its tokens. A block collection begins where a line is indented further than
the collection around it, and ends where a line is not. What stands before a colon is a key, so the
token for it is put in front of what was read already. A token is handed out once it is known that
nothing goes in front of it, and two more tokens have been read. -/

namespace HelperImports.Yaml

/-- A place where a key may have begun. -/
structure KeyStart where
  /-- The number of tokens in front of it. -/
  token : Nat
  index : Nat
  line : Nat
  column : Nat
  /-- A line of a block mapping begins here, so a key has to follow. -/
  required : Bool
  /-- The token here is held back until it is known whether it begins a key. -/
  awaited : Bool := true

/-- The keys at one depth of brackets. -/
structure Level where
  /-- The possible key. -/
  key : Option KeyStart := none
  /-- The number of tokens in front of the key noted last, or else of the bracket. -/
  noted : Nat := 0

/-- The state of reading tokens. -/
structure Lexer where
  cursor : Cursor
  /-- The tokens that are handed out, the last one first. -/
  handed : List Token := []
  /-- The number of tokens that are handed out. -/
  count : Nat := 0
  /-- The tokens that are not handed out yet. -/
  queue : List Token := []
  /-- The column of the innermost block collection, or `-1`. -/
  indent : Int := -1
  /-- The columns of the block collections around it, innermost first. -/
  outer : List Int := []
  /-- A key may begin here. -/
  keyAllowed : Bool := true
  level : Level := {}
  /-- The levels around each open bracket, innermost first. -/
  flow : List Level := []

namespace Lexer

/-- The greatest number of brackets or of block collections around a token. -/
def maxDepth : Nat := 10000

/-- The lexer is inside brackets. -/
def inFlow (l : Lexer) : Bool := !l.flow.isEmpty

/-- The number of tokens. -/
def size (l : Lexer) : Nat := l.count + l.queue.length

/-- Puts a token at the end. -/
def emit (l : Lexer) (t : Token) : Lexer := { l with queue := l.queue ++ [t] }

/-- Puts a token in front of the `n`-th, or at the end if that one is handed out. -/
def emitAt (l : Lexer) (n : Nat) (t : Token) : Lexer :=
  if n < l.count then l.emit t
  else { l with queue := l.queue.take (n - l.count) ++ t :: l.queue.drop (n - l.count) }

/-- Gives up the possible key, unless one was required. -/
def dropKey (l : Lexer) : Option Lexer :=
  match l.level.key with
  | some k => if k.required then none else some { l with level.key := none }
  | none => some l

/-- Notes that a key may begin here, if one is allowed. -/
def noteKey (l : Lexer) : Option Lexer := do
  if l.keyAllowed then
    let l ← l.dropKey
    let c := l.cursor
    let required := !l.inFlow && l.indent == c.column
    let n := l.size
    return { l with level := ⟨some ⟨n, c.index, c.line, c.column, required, true⟩, n⟩ }
  else return l

/-- Begins a block collection at a column, if it is further right than the one around it. Its token
goes in front of the `n`-th. -/
def openBlock (l : Lexer) (column : Nat) (n : Nat) (t : Token) : Option Lexer := do
  if l.inFlow || (column : Int) ≤ l.indent then return l
  guard (l.outer.length < maxDepth)
  return { l.emitAt n t with indent := column, outer := l.indent :: l.outer }

/-- Ends the block collections that are further right than `column`. -/
def closeBlocks (l : Lexer) (column : Int) : Lexer :=
  if l.inFlow then l else go l.outer l
where
  /-- `outer` are the columns around the innermost collection. -/
  go : List Int → Lexer → Lexer
    | [], l => l
    | next :: outer, l =>
      if l.indent ≤ column then l
      else go outer { l.emit .blockEnd with indent := next, outer }

/-- A token of `n` characters. -/
def advance (l : Lexer) (n : Nat) (t : Token) : Lexer := { l.emit t with cursor := l.cursor.skip n }

/-- Passes over white space, comments and line breaks. A tab is white space only where no key may
begin; a new line outside of brackets may begin with a key. If the text in view began with a byte
order mark, a line loses its first character. At most `fuel` lines are passed. -/
def skipSpace? : Nat → Lexer → Option Lexer
  | 0, l => some l
  | fuel + 1, l => do
    let c ← l.cursor.view? 1
    let c := if c.column == 0 && c.marked then c.skip else c
    let c ← c.skipWhile? fun ch => ch == ' ' || (ch == '\t' && (l.inFlow || !l.keyAllowed))
    let c ← if c.head? == some '#' then c.passComments? (c.bound + 1) else some c
    if c.atBreak then
      let (_, c) ← c.passBreak?
      skipSpace? fuel { l with cursor := c, keyAllowed := l.keyAllowed || !l.inFlow }
    else return { l with cursor := c }

/-- The end of the text: it ends all collections. -/
def finish? (l : Lexer) : Option Lexer := do
  return (← (l.closeBlocks (-1)).dropKey).emit .streamEnd

/-- A directive: it ends all collections. -/
def directive? (l : Lexer) : Option Lexer := do
  let l ← (l.closeBlocks (-1)).dropKey
  let (t, c) ← Yaml.directive? l.cursor.skip
  return { l.emit t with cursor := c, keyAllowed := false }

/-- The mark of a document: it ends all collections. -/
def documentMark? (l : Lexer) : Option Lexer := do
  let l ← (l.closeBlocks (-1)).dropKey
  let t := if l.cursor.head? == some '-' then Token.documentStart else .documentEnd
  return { l with keyAllowed := false }.advance 3 t

/-- An opening bracket. -/
def openFlow (l : Lexer) (t : Token) : Option Lexer := do
  let l ← l.noteKey
  guard (l.flow.length < maxDepth)
  let level : Level := { noted := l.size }
  return { l with flow := l.level :: l.flow, level, keyAllowed := true }.advance 1 t

/-- A closing bracket. If nothing was noted between the brackets, the opening one is no longer held
back. -/
def closeFlow (l : Lexer) (t : Token) : Option Lexer := do
  let l ← l.dropKey
  let l := match l.flow with
    | [] => l
    | level :: flow =>
      let held (k : KeyStart) : Bool := k.awaited && k.token != l.level.noted
      let key := level.key.map fun (k : KeyStart) => { k with awaited := held k }
      { l with level := { level with key }, flow }
  return { l with keyAllowed := false }.advance 1 t

/-- The comma between brackets. -/
def flowEntry (l : Lexer) : Option Lexer := do
  let l ← l.dropKey
  return { l with keyAllowed := true }.advance 1 .flowEntry

/-- The hyphen of a block sequence, and the question mark of a key. Inside brackets nothing is
indented. -/
def entryMark (l : Lexer) (collection : Token) (t : Token) : Option Lexer := do
  guard (l.inFlow || l.keyAllowed)
  let l ← (← l.openBlock l.cursor.column l.size collection).dropKey
  return { l with keyAllowed := t == Token.blockEntry || !l.inFlow }.advance 1 t

/-- The possible key is near enough: on the same line, at most 1024 characters ago. -/
def keyInReach (l : Lexer) (k : KeyStart) : Bool :=
  k.line == l.cursor.line && l.cursor.index ≤ k.index + 1024

/-- The colon behind a key. -/
def valueMark (l : Lexer) : Option Lexer := do
  match l.level.key.filter l.keyInReach with
  | some k =>
    let l := { l with level.key := none, keyAllowed := false }
    let l ← (l.emitAt k.token .key).openBlock k.column k.token .blockMappingStart
    return l.advance 1 .value
  | none =>
    guard (!l.level.key.any (·.required))
    guard (l.inFlow || l.keyAllowed)
    let l ← l.openBlock l.cursor.column l.size .blockMappingStart
    return { l with level.key := none, keyAllowed := !l.inFlow }.advance 1 .value

/-- A token that may be a key: its reading gives the token and the cursor behind it. -/
def keyed (l : Lexer) (read : Cursor → Option (Token × Cursor)) : Option Lexer := do
  let l ← l.noteKey
  let (t, c) ← read l.cursor
  return { l.emit t with cursor := c, keyAllowed := false }

/-- A scalar in quotes. -/
def quotedScalar (l : Lexer) (q : Quotes) : Option Lexer :=
  l.keyed fun c => (quotedText? q c.skip).map fun (t, c) => (.scalar .quoted t, c)

/-- A block scalar, which is never a key. -/
def blockScalar (l : Lexer) (literal : Bool) : Option Lexer := do
  let l ← l.dropKey
  let (text, c) ← blockText? literal l.indent l.cursor.skip
  return { l.emit (.scalar .quoted text) with cursor := c, keyAllowed := true }

/-- A plain scalar. If it ends on a new line, a key may follow. -/
def plainScalar (l : Lexer) : Option Lexer := do
  let l ← l.noteKey
  let p ← plainText? l.inFlow (l.indent + 1).toNat l.cursor
  return { l.emit (.scalar .plain p.text) with cursor := p.after, keyAllowed := p.newLine }

/-- The characters that no plain scalar begins with, unless they are followed by another one that is
not white space. -/
def isIndicator (c : Char) : Bool :=
  "-?:,[]#&*!|>\"%@".toList.contains c || c == '\x7b' || c == '\x7d' || c == '\x27' || c == '\x60'

/-- A plain scalar begins with these characters. -/
def startsPlain (inFlow : Bool) : List Char → Bool
  | [] => false
  | c :: rest =>
    !(isGap c || isBreak c || isIndicator c) || (c == '-' && !rest.head?.any isGap) ||
      (!inFlow && (c == '?' || c == ':') && !isGapOrEnd rest)

/-- Reads the token at the cursor, which is neither a directive nor the mark of a document. -/
def token? (l : Lexer) : Option Lexer :=
  let c := l.cursor
  let next := c.rest.drop 1
  match c.head? with
  | none => none
  | some ch =>
    if ch == '[' then l.openFlow .flowSequenceStart
    else if ch == '\x7b' then l.openFlow .flowMappingStart
    else if ch == ']' then l.closeFlow .flowSequenceEnd
    else if ch == '\x7d' then l.closeFlow .flowMappingEnd
    else if ch == ',' then l.flowEntry
    else if ch == '-' && isGapOrEnd next then l.entryMark .blockSequenceStart .blockEntry
    else if ch == '?' && (l.inFlow || isGapOrEnd next) then l.entryMark .blockMappingStart .key
    else if ch == ':' && (l.inFlow || isGapOrEnd next) then l.valueMark
    else if ch == '*' then
      l.keyed fun c => (anchorName? c.skip).map fun (name, c) => (.alias name, c)
    else if ch == '&' then
      l.keyed fun c => (anchorName? c.skip).map fun (name, c) => (.anchor name, c)
    else if ch == '!' then l.keyed tag?
    else if (ch == '|' || ch == '>') && !l.inFlow then l.blockScalar (ch == '|')
    else if ch == '\x27' then l.quotedScalar .single
    else if ch == '"' then l.quotedScalar .double
    else if startsPlain l.inFlow c.rest then l.plainScalar
    else none

/-- Reads the next token, the white space and the comments before it, and a comment behind it on the
same line. A comment behind the hyphen of a block sequence belongs to what follows. -/
def next? (l : Lexer) : Option Lexer := do
  let l ← l.skipSpace? (l.cursor.bound + 1)
  let l := l.closeBlocks l.cursor.column
  let c ← l.cursor.view? 4
  let l := { l with cursor := c }
  if c.rest.isEmpty then l.finish?
  else if c.column == 0 && c.head? == some '%' then l.directive?
  else if c.isDocumentMark then l.documentMark?
  else
    let l ← l.token?
    if l.queue.getLast? == some .blockEntry then return l
    else return { l with cursor := ← l.cursor.passLineComment? }

/-- The possible key that the `n`-th token is held back for. -/
def awaited? (l : Lexer) (n : Nat) : Option KeyStart :=
  (l.level :: l.flow).findSome? fun level => level.key.filter fun k => k.awaited && k.token == n

/-- Hands out a token. -/
def hand (l : Lexer) (t : Token) : Lexer :=
  { l with handed := t :: l.handed, count := l.count + 1 }

/-- Hands out the tokens of a queue as long as two more are behind the first and it is not held back
for a key in reach. A required key has to be in reach. -/
def handOut? : List Token → Lexer → Option Lexer
  | t :: a :: b :: more, l =>
    match l.awaited? l.count with
    | none => handOut? (a :: b :: more) (l.hand t)
    | some k =>
      if l.keyInReach k then some { l with queue := t :: a :: b :: more }
      else if k.required then none
      else handOut? (a :: b :: more) (l.hand t)
  | queue, l => some { l with queue }

/-- The tokens that are handed out before something that cannot be read. -/
def broken (l : Lexer) : List Token := l.handed.reverse ++ [.unreadable]

/-- Reads tokens to the end of the text, at most `fuel` of them. -/
def run : Nat → Lexer → List Token
  | 0, l => l.broken
  | fuel + 1, l =>
    match l.handOut? l.queue with
    | none => l.broken
    | some l =>
      match l.next? with
      | none => l.broken
      | some next =>
        if next.queue.getLast? == some .streamEnd then next.handed.reverse ++ next.queue
        else run fuel next

end Lexer

/-- The tokens of a text. -/
def tokens (s : Source) : List Token :=
  let c := Cursor.ofSource s
  Lexer.run (c.bound + 2) { cursor := c }

end HelperImports.Yaml
