import HelperImports.Text.Bytes

/-! Characters of a byte string. A text reads as UTF-8 from the left; a byte that begins no
character stands for itself, so every text has characters, and their bytes put together are the
text. -/

namespace HelperImports

/-- A stretch of text that reads as one character, or a single byte that reads as none. -/
structure Rune where
  /-- The character, if the bytes encode one. -/
  char? : Option Char
  /-- The bytes it was read from. -/
  encoding : Bytes
  deriving DecidableEq, Repr

namespace Rune

/-- The six bits that a continuation byte carries, if it is one from `lo` to `hi`. -/
def tailBits? (lo hi : Nat) (b : UInt8) : Option Nat :=
  if lo ≤ b.toNat ∧ b.toNat ≤ hi then some (b.toNat - 0x80) else none

/-- The code point that a text begins with and the number of its bytes after the first. Longer
spellings of a code point, surrogates and values above `0x10FFFF` are refused. -/
def leading? : Bytes → Option (Nat × Nat)
  | [] => none
  | first :: rest =>
    let a := first.toNat
    if a < 0x80 then some (a, 0)
    else if 0xC2 ≤ a ∧ a ≤ 0xDF then
      match rest with
      | b :: _ => do
        let b ← tailBits? 0x80 0xBF b
        return ((a - 0xC0) * 0x40 + b, 1)
      | _ => none
    else if 0xE0 ≤ a ∧ a ≤ 0xEF then
      match rest with
      | b :: c :: _ => do
        let b ← tailBits? (if a = 0xE0 then 0xA0 else 0x80) (if a = 0xED then 0x9F else 0xBF) b
        let c ← tailBits? 0x80 0xBF c
        return ((a - 0xE0) * 0x1000 + b * 0x40 + c, 2)
      | _ => none
    else if 0xF0 ≤ a ∧ a ≤ 0xF4 then
      match rest with
      | b :: c :: d :: _ => do
        let b ← tailBits? (if a = 0xF0 then 0x90 else 0x80) (if a = 0xF4 then 0x8F else 0xBF) b
        let c ← tailBits? 0x80 0xBF c
        let d ← tailBits? 0x80 0xBF d
        return ((a - 0xF0) * 0x40000 + b * 0x1000 + c * 0x40 + d, 3)
      | _ => none
    else none

/-- A character, with its bytes in UTF-8. -/
def ofChar (c : Char) : Rune := ⟨some c, bytes (String.singleton c)⟩

end Rune

/-- The characters of a text from its byte `skip` on. -/
def runesFrom : Nat → Bytes → List Rune
  | _, [] => []
  | skip + 1, _ :: rest => runesFrom skip rest
  | 0, b :: rest =>
    match Rune.leading? (b :: rest) with
    | some (code, more) =>
      ⟨some (Char.ofNat code), b :: rest.take more⟩ :: runesFrom more rest
    | none => ⟨none, [b]⟩ :: runesFrom 0 rest

/-- The characters of a text. -/
def runes (text : Bytes) : List Rune := runesFrom 0 text

/-- The text that the characters were read from. -/
def unrunes (rs : List Rune) : Bytes := rs.flatMap Rune.encoding

theorem unrunes_runesFrom (skip : Nat) (text : Bytes) :
    unrunes (runesFrom skip text) = text.drop skip := by
  fun_induction runesFrom skip text with
  | case1 => simp [unrunes]
  | case2 skip b rest ih => simpa using ih
  | case3 b rest code more h ih =>
    simp only [unrunes, List.flatMap_cons] at ih ⊢
    simp [ih]
  | case4 b rest h ih =>
    simp only [unrunes, List.flatMap_cons] at ih ⊢
    simp [ih]

/-- Reading characters loses nothing. -/
@[simp] theorem unrunes_runes (text : Bytes) : unrunes (runes text) = text :=
  unrunes_runesFrom 0 text

end HelperImports
