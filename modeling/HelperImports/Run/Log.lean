import HelperImports.Text.Blank
import HelperImports.Text.Quoted

/-! The log: one record a line, each an ordered list of keys and values. -/

namespace HelperImports

/-- How much a record matters, least first. -/
inductive Level where
  | debug
  | info
  | warn
  deriving DecidableEq, Repr

namespace Level

/-- The name of a level in the log. -/
def name : Level → String
  | debug => "DEBUG"
  | info => "INFO"
  | warn => "WARN"

/-- The rank of a level. -/
def rank : Level → Nat
  | debug => 0
  | info => 1
  | warn => 2

end Level

namespace Log

/-- A value in a record. -/
inductive Value where
  | text (t : Bytes)
  | flag (b : Bool)
  | count (n : Nat)
  deriving DecidableEq, Repr

/-- A character that a value shows without quotes. White space, the equals sign, the double quote
and control characters need them, and beyond ASCII all that is not printable. -/
def isBare (r : Rune) : Bool :=
  match r.char? with
  | none => false
  | some c =>
    if c.toNat < 0x80 then 0x20 < c.toNat && c != '=' && c != '"'
    else c.toNat != 0xFFFD && !isBlankChar c && isPrintable c

/-- A text as a value: quoted if it is empty or holds a character that needs quotes. -/
def showText (t : Bytes) : Bytes :=
  if t.isEmpty || !(runes t).all isBare then quote t else t

namespace Value

/-- A value as it stands in the log. -/
def toBytes : Value → Bytes
  | text t => showText t
  | flag b => bytes (if b then "true" else "false")
  | count n => Bytes.ofNat n

end Value

/-- One line of the log. -/
structure Record where
  level : Level
  message : String
  details : List (String × Value)
  deriving DecidableEq, Repr

/-- The text of a record, with the newline that ends it. -/
def Record.toBytes (r : Record) : Bytes :=
  let pairs := ("level", Value.text (bytes r.level.name)) ::
    ("msg", Value.text (bytes r.message)) :: r.details
  [0x20].intercalate (pairs.map fun (key, v) => bytes key ++ bytes "=" ++ v.toBytes) ++ bytes "\n"

end Log

end HelperImports
