/-! Byte strings. Every text the tool handles is a sequence of bytes, valid UTF-8 or not, and a
match on a text is a match on its bytes. -/

namespace HelperImports

/-- A text, as the bytes it is stored in. -/
abbrev Bytes := List UInt8

/-- The bytes of `s` in UTF-8. -/
def bytes (s : String) : Bytes := s.toUTF8.data.toList

/-- The bytes of characters. -/
def textBytes (cs : List Char) : Bytes := bytes (String.ofList cs)

namespace Bytes

/-- The decimal digits of `n`. -/
def ofNat (n : Nat) : Bytes := bytes (toString n)

/-- The decimal digits of `n`, after a minus sign if it is negative. -/
def ofInt (n : Int) : Bytes := bytes (toString n)

/-- `part` stands somewhere in the text. -/
def occursIn (part : Bytes) : Bytes → Bool
  | [] => part.isEmpty
  | b :: rest => part.isPrefixOf (b :: rest) || occursIn part rest

theorem occursIn_iff {part text : Bytes} : part.occursIn text = true ↔ part <:+: text := by
  induction text with
  | nil => simp [occursIn, List.isEmpty_iff]
  | cons b rest ih => simp [occursIn, ih, List.infix_cons_iff]

/-- Splits the text at every `mark`; the pieces hold no `mark`, and there is one more of them than
there are marks. -/
def splitAt (mark : UInt8) : Bytes → List Bytes
  | [] => [[]]
  | b :: rest =>
    if b = mark then [] :: splitAt mark rest
    else
      match splitAt mark rest with
      | [] => [[b]]
      | piece :: pieces => (b :: piece) :: pieces

/-- The pieces, with `mark` between each two. -/
def joinWith (mark : UInt8) (pieces : List Bytes) : Bytes := [mark].intercalate pieces

/-- The text before the first `mark`, and the text after it if there is one. -/
def cut (mark : UInt8) (text : Bytes) : Bytes × Option Bytes :=
  match text.dropWhile (· != mark) with
  | [] => (text, none)
  | _ :: rest => (text.takeWhile (· != mark), some rest)

/-- The text with `suffix` taken off its end, if it ends so. -/
def dropEnd (suffix text : Bytes) : Bytes :=
  if suffix.isSuffixOf text then text.take (text.length - suffix.length) else text

end Bytes

end HelperImports
