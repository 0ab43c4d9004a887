import HelperImports.Text.Rune
import HelperImports.Text.Printable

/-! Quoted texts. A quoted text is printable on one line, and two different texts are quoted
differently: the quote mark and the backslash are escaped, control characters by letter where they
have one, and bytes that read as no character by their value. -/

namespace HelperImports

/-- The digits of `n` in base 16, in lower case, at least `width` of them. -/
def hex (width n : Nat) : Bytes :=
  let digits := bytes (String.ofList (Nat.toDigits 16 n))
  List.replicate (width - digits.length) 0x30 ++ digits

/-- The letter that names a control character after a backslash. -/
def escapeLetter? : Nat → Option Char
  | 0x07 => some 'a'
  | 0x08 => some 'b'
  | 0x09 => some 't'
  | 0x0A => some 'n'
  | 0x0B => some 'v'
  | 0x0C => some 'f'
  | 0x0D => some 'r'
  | _ => none

/-- A character as it stands between the quote marks `mark`. -/
def Rune.quoted (mark : Char) (r : Rune) : Bytes :=
  match r.char? with
  | none => bytes "\\x" ++ r.encoding.flatMap fun b => hex 2 b.toNat
  | some c =>
    if c == mark || c == '\\' then bytes "\\" ++ r.encoding
    else if isPrintable c then r.encoding
    else
      match escapeLetter? c.toNat with
      | some letter => bytes "\\" ++ bytes (String.singleton letter)
      | none =>
        if c.toNat < 0x20 || c.toNat == 0x7F then bytes "\\x" ++ hex 2 c.toNat
        else if c.toNat < 0x10000 then bytes "\\u" ++ hex 4 c.toNat
        else bytes "\\U" ++ hex 8 c.toNat

/-- The text between double quotes. -/
def quote (text : Bytes) : Bytes :=
  bytes "\"" ++ (runes text).flatMap (Rune.quoted '"') ++ bytes "\""

/-- A character between single quotes. -/
def quoteChar (c : Char) : Bytes :=
  bytes "'" ++ (Rune.ofChar c).quoted '\x27' ++ bytes "'"

end HelperImports
