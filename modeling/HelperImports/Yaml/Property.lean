import HelperImports.Yaml.ScalarText
import HelperImports.Yaml.Token

/-! Anchors, aliases, tags and directives. -/

namespace HelperImports.Yaml

/-- Reads the name of an anchor or an alias from behind its mark. -/
def anchorName? (c : Cursor) : Option (List Char × Cursor) := do
  let (name, c) ← c.takeWhile? isWordChar
  guard (!name.isEmpty)
  guard (isGapOrEnd c.rest || c.head?.any fun ch =>
    "?:,]%@".toList.contains ch || ch == '\x7d' || ch == '\x60')
  return (name, c)

/-- A character that stands for itself in a tag. -/
def isTagChar (c : Char) : Bool :=
  isWordChar c || ";/?:@&=+$,.!~*()[]".toList.contains c || c == '\x27'

/-- Reads a byte that is written with a percent sign. -/
def percentByte? (c : Cursor) : Option (UInt8 × Cursor) := do
  let c ← c.view? 3
  match c.rest with
  | '%' :: a :: b :: _ => return ((← hexValue? [a, b]).toUInt8, c.skip 3)
  | _ => none

/-- Reads `n` bytes that go on with a character. -/
def percentTail? : Nat → Cursor → Option (Bytes × Cursor)
  | 0, c => some ([], c)
  | n + 1, c => do
    let (b, c) ← percentByte? c
    guard (b &&& 0xC0 == 0x80)
    let (bs, c) ← percentTail? n c
    return (b :: bs, c)

/-- Reads the bytes of a character that is written with percent signs. Their number is right, but
the character need not be one. -/
def percentChar? (c : Cursor) : Option (Bytes × Cursor) := do
  let (b, c) ← percentByte? c
  let (bs, c) ← percentTail? ((← utf8Width? b) - 1) c
  return (b :: bs, c)

/-- Reads the characters of a tag. -/
def tagText? (c : Cursor) : Option (Bytes × Cursor) := do
  let c ← c.view? 1
  go (c.bound + 1) c
where
  /-- At most `fuel` characters are read. -/
  go : Nat → Cursor → Option (Bytes × Cursor)
    | 0, c => some ([], c)
    | fuel + 1, c =>
      match c.head? with
      | none => some ([], c)
      | some ch =>
        if !isTagChar ch && ch != '%' then some ([], c)
        else do
          let (bs, c) ← if ch == '%' then percentChar? c else some (textBytes [ch], c.skip)
          let (more, c) ← go fuel (← c.view? 1)
          return (bs ++ more, c)

/-- Reads a handle: an exclamation mark, a word, and another exclamation mark if there is one. -/
def tagHandle? (c : Cursor) : Option (List Char × Cursor) := do
  let c ← c.view? 1
  guard (c.head? == some '!')
  let (word, c) ← c.skip.takeWhile? isWordChar
  if c.head? == some '!' then return ('!' :: word ++ ['!'], c.skip) else return ('!' :: word, c)

/-- Reads a tag: between angle brackets, behind a handle, or alone. -/
def tag? (c : Cursor) : Option (Token × Cursor) := do
  let c ← c.view? 2
  let (handle, suffix, c) ←
    if c.rest.take 2 == ['!', '<'] then do
      let (text, c) ← tagText? (c.skip 2)
      guard (!text.isEmpty && c.head? == some '>')
      pure ([], text, c.skip)
    else do
      let (handle, c) ← tagHandle? c
      let (text, c) ← tagText? c
      if 1 < handle.length && handle.getLast? == some '!' then do
        guard (!text.isEmpty)
        pure (handle, text, c)
      else
        let suffix := textBytes (handle.drop 1) ++ text
        pure (if suffix.isEmpty then ([], bytes "!", c) else (['!'], suffix, c))
  let c ← c.view? 1
  guard (isGapOrEnd c.rest)
  return (.tag handle suffix, c)

/-- Reads a number of one or two digits, with no third one behind it. -/
def versionNumber? (c : Cursor) : Option (Nat × Cursor) := do
  let (digits, c) ← c.takeWhile? Char.isDigit
  guard (!digits.isEmpty && digits.length ≤ 2)
  return (digits.foldl (fun n d => n * 10 + (d.toNat - 0x30)) 0, c)

/-- Reads a directive from behind its percent sign, and its line to the end. Only the directives for
the version and for tags are known. -/
def directive? (c : Cursor) : Option (Token × Cursor) := do
  let (name, c) ← c.takeWhile? isWordChar
  guard (!name.isEmpty && isGapOrEnd c.rest)
  let c ← c.skipWhile? isGap
  let (token, c) ←
    if name == "YAML".toList then do
      let (major, c) ← versionNumber? c
      guard (c.head? == some '.')
      let (minor, c) ← versionNumber? c.skip
      pure (Token.versionDirective major minor, c)
    else if name == "TAG".toList then do
      let (handle, c) ← tagHandle? c
      guard (handle == ['!'] || handle.getLast? == some '!')
      let c ← c.view? 1
      guard (c.head?.any isGap)
      let (stem, c) ← tagText? (← c.skipWhile? isGap)
      guard (!stem.isEmpty)
      let c ← c.view? 1
      guard (isGapOrEnd c.rest)
      pure (Token.tagDirective handle stem, c)
    else none
  return (token, ← c.finishLine?)

end HelperImports.Yaml
