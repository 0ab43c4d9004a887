import HelperImports.Number.Binary64
import HelperImports.Yaml.Node
import HelperImports.Yaml.Timestamp

/-! The values of YAML nodes. A plain scalar is what it looks like: nothing, a truth value, a
number, a time, or else a text. -/

namespace HelperImports.Yaml

/-- A floating-point number. -/
inductive FloatValue where
  | finite (negative : Bool) (magnitude : Decimal)
  | infinite (negative : Bool)
  | notANumber
  deriving DecidableEq, Repr

/-- A value. -/
inductive Value where
  | null
  | bool (b : Bool)
  | int (n : Int)
  | float (f : FloatValue)
  | time (t : Timestamp)
  | text (t : Bytes)
  | list (items : List Value)
  /-- Entries in any order. With `textKeys` all keys are texts; otherwise they are of any kind but
  collections. -/
  | map (textKeys : Bool) (entries : List (Value × Value))

/-- What a tag can ask a scalar to be. -/
inductive Tag where
  | null
  | bool
  | int
  | float
  | time
  | text
  deriving DecidableEq, Repr

namespace Value

/-- The tag of a scalar value. -/
def tag : Value → Tag
  | null => .null
  | bool _ => .bool
  | int _ => .int
  | float _ => .float
  | time _ => .time
  | _ => .text

/-- The value is a list or a map. -/
def isCollection : Value → Bool
  | list _ => true
  | map _ _ => true
  | _ => false

end Value

/-! Numbers. -/

/-- The value of a digit in a base up to 16. -/
def digitIn? (base : Nat) (c : Char) : Option Nat := (hexDigit? c).filter (· < base)

/-- The value of digits in a base; there has to be one. -/
def digitsIn? (base : Nat) : List Char → Option Nat
  | [] => none
  | cs => cs.foldlM (fun n c => (digitIn? base c).map (n * base + ·)) 0

/-- The value of digits behind the prefix that tells their base. A zero alone in front tells base
8. -/
def unsigned? : List Char → Option Nat
  | '0' :: 'x' :: cs | '0' :: 'X' :: cs => digitsIn? 16 cs
  | '0' :: 'o' :: cs | '0' :: 'O' :: cs => digitsIn? 8 cs
  | '0' :: 'b' :: cs | '0' :: 'B' :: cs => digitsIn? 2 cs
  | '0' :: c :: cs => digitsIn? 8 (c :: cs)
  | cs => digitsIn? 10 cs

/-- A number behind a sign, if it fits into 64 bits. -/
def signed? (read : List Char → Option Nat) : List Char → Option Int
  | '-' :: cs => (read cs).bind fun n => if n ≤ 0x8000000000000000 then some (-n) else none
  | '+' :: cs => (read cs).bind fun n => if n < 0x8000000000000000 then some (n : Int) else none
  | cs => (read cs).bind fun n => if n < 0x10000000000000000 then some (n : Int) else none

/-- An integer: in any base, or behind a prefix for base 2 or 8 also with a sign. -/
def integer? (cs : List Char) : Option Int :=
  signed? unsigned? cs <|>
    match cs with
    | '0' :: 'b' :: rest => signed? (digitsIn? 2) rest
    | '0' :: 'o' :: rest => signed? (digitsIn? 8) rest
    | _ => none

/-- The parts of a decimal: its digits before and behind the point, and its exponent. -/
structure DecimalText where
  negative : Bool
  whole : List Char
  part : List Char
  exponent : Int

/-- Reads an exponent; none is written as nothing. -/
def exponent? : List Char → Option Int
  | [] => some 0
  | e :: cs =>
    if e != 'e' && e != 'E' then none
    else
      let (negative, ds) := match cs with
        | '-' :: ds => (true, ds)
        | '+' :: ds => (false, ds)
        | ds => (false, ds)
      if ds.isEmpty || !ds.all Char.isDigit then none
      else
        let n : Int := Timestamp.digitsValue (ds.dropWhile (· == '0') |>.take 6)
        some (if negative then -n else n)

/-- Reads a decimal: digits with at most one point, and an exponent. -/
def decimalText? (cs : List Char) : Option DecimalText := do
  let (negative, cs) := match cs with
    | '-' :: cs => (true, cs)
    | '+' :: cs => (false, cs)
    | cs => (false, cs)
  let whole := cs.takeWhile Char.isDigit
  let rest := cs.drop whole.length
  let (part, rest) := match rest with
    | '.' :: more =>
      let part := more.takeWhile Char.isDigit
      (part, more.drop part.length)
    | _ => ([], rest)
  guard (!(whole.isEmpty && part.isEmpty))
  return ⟨negative, whole, part, ← exponent? rest⟩

/-- The floating-point number of a decimal, if it is not too large. -/
def DecimalText.float? (d : DecimalText) : Option FloatValue := do
  let digits := Timestamp.digitsValue (d.whole ++ d.part)
  let b ← Binary64.ofDecimal? digits (d.exponent - d.part.length)
  return .finite d.negative b.shortest

/-- Underscores stand only between two digits. -/
def underscoresSeparate : List Char → Bool
  | '_' :: _ => false
  | a :: '_' :: b :: rest => a.isDigit && b.isDigit && underscoresSeparate (b :: rest)
  | [_, '_'] => false
  | _ :: rest => underscoresSeparate rest
  | [] => true

/-- A floating-point number that begins with a point. -/
def pointFloat? (cs : List Char) : Option FloatValue := do
  guard (underscoresSeparate cs)
  (← decimalText? (cs.filter (· != '_'))).float?

/-! Scalars. -/

/-- The words with a meaning. -/
def word? (cs : List Char) : Option Value :=
  let s := String.ofList cs
  if ["", "~", "null", "Null", "NULL"].contains s then some .null
  else if ["true", "True", "TRUE"].contains s then some (.bool true)
  else if ["false", "False", "FALSE"].contains s then some (.bool false)
  else if [".nan", ".NaN", ".NAN"].contains s then some (.float .notANumber)
  else if [".inf", ".Inf", ".INF", "+.inf", "+.Inf", "+.INF"].contains s then
    some (.float (.infinite false))
  else if ["-.inf", "-.Inf", "-.INF"].contains s then some (.float (.infinite true))
  else none

/-- What a scalar looks like. Underscores in a number do not count, and a time is looked for only if
`times` says so. -/
def appearance (times : Bool) (cs : List Char) : Value :=
  let text := Value.text (textBytes cs)
  match word? cs with
  | some v => v
  | none =>
    match cs with
    | [] => text
    | c :: _ =>
      if c == '.' then
        match pointFloat? cs with
        | some f => .float f
        | none => text
      else if c.isDigit || c == '+' || c == '-' then
        match (if times then Timestamp.ofText? cs else none) with
        | some t => .time t
        | none =>
          let plain := cs.filter (· != '_')
          match integer? plain with
          | some n => .int n
          | none =>
            match (decimalText? plain).bind DecimalText.float? with
            | some f => .float f
            | none => text
      else text

/-- A tag is the one with a name in the common namespace, written in full or behind two exclamation
marks. -/
def isTag (name : String) (tag : Bytes) : Bool :=
  tag == bytes "tag:yaml.org,2002:" ++ bytes name || tag == bytes "!!" ++ bytes name

/-- The tag that a written tag stands for, if it is one that scalars are read by. -/
def knownTag? (tag : Bytes) : Option Tag :=
  if isTag "null" tag then some .null
  else if isTag "bool" tag then some .bool
  else if isTag "int" tag then some .int
  else if isTag "float" tag then some .float
  else if isTag "timestamp" tag then some .time
  else if isTag "str" tag then some .text
  else none

/-- The value of a base 64 digit. -/
def base64Digit? (c : Char) : Option Nat :=
  if 'A' ≤ c ∧ c ≤ 'Z' then some (c.toNat - 0x41)
  else if 'a' ≤ c ∧ c ≤ 'z' then some (c.toNat - 0x47)
  else if c.isDigit then some (c.toNat + 4)
  else if c = '+' then some 62
  else if c = '/' then some 63
  else none

/-- The bytes of base 64 digits, four digits for three bytes, padded with equals signs. -/
def base64? : List Char → Option Bytes
  | [] => some []
  | [a, b, '=', '='] => do
    let n := (← base64Digit? a) * 64 + (← base64Digit? b)
    return [(n / 16).toUInt8]
  | [a, b, c, '='] => do
    let n := ((← base64Digit? a) * 64 + (← base64Digit? b)) * 64 + (← base64Digit? c)
    return [(n / 1024).toUInt8, (n / 4 % 256).toUInt8]
  | a :: b :: c :: d :: rest => do
    let n := (((← base64Digit? a) * 64 + (← base64Digit? b)) * 64 + (← base64Digit? c)) * 64 +
      (← base64Digit? d)
    let more ← base64? rest
    return (n / 65536).toUInt8 :: (n / 256 % 256).toUInt8 :: (n % 256).toUInt8 :: more
  | _ => none

/-- The value of a scalar. One with a known tag has to look like it; an integer of 64 bits with a
sign can stand for a floating-point number. -/
def scalarValue? (tag : Option Bytes) (style : Style) (cs : List Char) : Option Value :=
  let text := Value.text (textBytes cs)
  match tag with
  | none => some (if style = .quoted then text else appearance true cs)
  | some t =>
    match knownTag? t with
    | some .text => some text
    | some k =>
      match appearance (k == .time) cs with
      | .int n =>
        if k = .int then some (.int n)
        else if k = .float ∧ n < 0x8000000000000000 then
          (Binary64.ofDecimal? n.natAbs 0).map fun b => .float (.finite (n < 0) b.shortest)
        else none
      | v => if v.tag = k then some v else none
    | none =>
      if isTag "binary" t then (base64? (cs.filter fun c => c != '\n' && c != '\r')).map .text
      else some text

end HelperImports.Yaml
