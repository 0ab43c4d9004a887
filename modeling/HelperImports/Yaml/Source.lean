import HelperImports.Text.Rune

/-! The characters of a YAML file, in the blocks in which they are read. A file is read a block at a
time, and only as far as it is looked at, so what is no text behind that does no harm. -/

namespace HelperImports.Yaml

/-- The number of bytes of a block. -/
def blockSize : Nat := 512

/-- How characters are written as bytes: in UTF-8, or in 16-bit units with the more significant byte
first or last. -/
inductive Encoding where
  | utf8
  | utf16 (bigEndian : Bool)
  deriving DecidableEq, Repr

/-- The byte order mark at the begin of a file tells its encoding, which is UTF-8 without one. -/
def Encoding.ofFile : Bytes → Encoding
  | 0xFF :: 0xFE :: _ => .utf16 false
  | 0xFE :: 0xFF :: _ => .utf16 true
  | _ => .utf8

/-- The number of bytes that the byte order mark at the begin of a file takes. -/
def Encoding.markSize (e : Encoding) (file : Bytes) : Nat :=
  match e with
  | utf16 _ => 2
  | utf8 => if [0xEF, 0xBB, 0xBF].isPrefixOf file then 3 else 0

/-- The characters that a YAML text may hold. -/
def isAllowed (c : Char) : Bool :=
  let n := c.toNat
  n == 0x09 || n == 0x0A || n == 0x0D || (0x20 ≤ n && n ≤ 0x7E) || n == 0x85 ||
    (0xA0 ≤ n && n ≤ 0xFFFD) || 0x10000 ≤ n

/-- What stands at the begin of some bytes: a character with its number of bytes, a character that
is cut off, or something else. -/
inductive Piece where
  | char (c : Char) (width : Nat)
  | cut
  | invalid
  deriving DecidableEq, Repr

/-- The number of bytes of a character in UTF-8, which the first of them tells. -/
def utf8Width? (first : UInt8) : Option Nat :=
  if first < 0x80 then some 1
  else if first &&& 0xE0 == 0xC0 then some 2
  else if first &&& 0xF0 == 0xE0 then some 3
  else if first &&& 0xF8 == 0xF0 then some 4
  else none

/-- What some bytes begin with in UTF-8. -/
def Piece.ofUtf8 (text : Bytes) : Piece :=
  match text.head?.map utf8Width? with
  | none => cut
  | some none => invalid
  | some (some width) =>
    if (text.take width).length < width then cut
    else
      match Rune.leading? text with
      | some (code, more) => char (Char.ofNat code) (more + 1)
      | none => invalid

/-- What some bytes begin with in 16-bit units: a surrogate pair stands for one character. -/
def Piece.ofUtf16 (bigEndian : Bool) : Bytes → Piece
  | a :: b :: rest =>
    let u := unit a b
    if 0xDC00 ≤ u && u < 0xE000 then invalid
    else if 0xD800 ≤ u && u < 0xDC00 then
      match rest with
      | c :: d :: _ =>
        let v := unit c d
        if 0xDC00 ≤ v && v < 0xE000 then
          char (Char.ofNat (0x10000 + (u - 0xD800) * 0x400 + (v - 0xDC00))) 4
        else invalid
      | _ => cut
    else char (Char.ofNat u) 2
  | _ => cut
where
  /-- The unit of two bytes. -/
  unit (a b : UInt8) : Nat :=
    if bigEndian then a.toNat * 256 + b.toNat else b.toNat * 256 + a.toNat

namespace Encoding

/-- What some bytes begin with. -/
def piece : Encoding → Bytes → Piece
  | utf8 => .ofUtf8
  | utf16 bigEndian => .ofUtf16 bigEndian

/-- At most `n` characters at the begin of some bytes, and the number of bytes that they take. There
has to be nothing but characters that are allowed, except for one that is cut off at the end. -/
def block? (e : Encoding) : Nat → Bytes → Option (List Char × Nat)
  | 0, _ => some ([], 0)
  | n + 1, text =>
    match e.piece text with
    | .cut => some ([], 0)
    | .invalid => none
    | .char c width => do
      guard (isAllowed c)
      let (cs, size) ← block? e n (text.drop width)
      return (c :: cs, width + size)

end Encoding

/-- A text in blocks. -/
structure Source where
  blocks : List (List Char) := []
  /-- The text ends behind these blocks; otherwise something follows that is no text. -/
  ends : Bool := true

namespace Source

/-- The blocks of a file of which the first `size` bytes are read next. The rest of a character that
is cut off at the end of a block goes with the next one. At most `fuel` blocks are read. -/
def read (e : Encoding) : Nat → Nat → Bytes → Source
  | 0, _, _ => {}
  | fuel + 1, size, file =>
    if file.isEmpty then {}
    else
      match e.block? size (file.take size) with
      | none | some ([], _) => { ends := false }
      | some (cs, taken) =>
        let more := read e fuel blockSize (file.drop taken)
        { more with blocks := cs :: more.blocks }

/-- The text of a file. -/
def ofFile (file : Bytes) : Source :=
  let e := Encoding.ofFile file
  let mark := e.markSize file
  read e (file.length + 1) (blockSize - mark) (file.drop mark)

end Source

end HelperImports.Yaml
