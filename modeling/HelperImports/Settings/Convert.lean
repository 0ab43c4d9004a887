import HelperImports.Settings.KeyCase

/-! The values of a configuration file as texts. -/

namespace HelperImports.Settings

open Yaml (Value FloatValue)

/-- A floating-point number, with an exponent where it is very large or small. -/
def showFloat : FloatValue → Bytes
  | .finite negative d => textBytes ((if negative then ['-'] else []) ++ d.general)
  | f => showPositional f

/-- A key with an entry as it is shown. -/
structure ShownEntry where
  key : Value
  text : Bytes

/-- The place of a kind of key among the keys of a map. -/
def keyRank : Value → Nat
  | .null => 0
  | .bool _ => 1
  | .int _ => 2
  | .float _ => 3
  | .text _ => 4
  | _ => 5

/-- A floating-point number is below another. What is not a number comes first. -/
def floatBelow : FloatValue → FloatValue → Bool
  | .notANumber, .notANumber => false
  | .notANumber, _ => true
  | _, .notANumber => false
  | .infinite n, .infinite m => n && !m
  | .infinite n, .finite _ _ => n
  | .finite _ _, .infinite m => !m
  | .finite n a, .finite m b =>
    if n && !m then !(a.digits.isEmpty && b.digits.isEmpty)
    else if !n && m then false
    else if n then magnitudeBelow b a else magnitudeBelow a b
where
  /-- A decimal without a sign is below another. -/
  magnitudeBelow (a b : Decimal) : Bool :=
    if b.digits.isEmpty then false
    else a.digits.isEmpty || a.point < b.point || (a.point == b.point && a.digits < b.digits)

/-- A key is shown in front of another. -/
def keyBelow (a b : Value) : Bool :=
  match a, b with
  | .bool a, .bool b => !a && b
  | .int a, .int b => a < b
  | .float a, .float b => floatBelow a b
  | .text a, .text b => a < b
  | .time a, .time b => a.toBytes < b.toBytes
  | a, b => keyRank a < keyRank b

/-- Inserts an entry in the order of the keys. -/
def insertByKey (e : ShownEntry) : List ShownEntry → List ShownEntry
  | [] => [e]
  | f :: fs => if keyBelow f.key e.key then f :: insertByKey e fs else e :: f :: fs

mutual

/-- A value as it is shown in messages: lists and maps in square brackets, the entries of a map in
the order of their keys. -/
def showValue : Value → Bytes
  | .null => bytes "<nil>"
  | .bool b => bytes (if b then "true" else "false")
  | .int n => Bytes.ofInt n
  | .float f => showFloat f
  | .time t => t.toBytes
  | .text t => t
  | .list items => bytes "[" ++ [0x20].intercalate (showValues items) ++ bytes "]"
  | .map _ entries =>
    let sorted := (showEntries entries).foldr insertByKey []
    bytes "map[" ++ [0x20].intercalate (sorted.map (·.text)) ++ bytes "]"

/-- The values of a list as they are shown. -/
def showValues : List Value → List Bytes
  | [] => []
  | v :: vs => showValue v :: showValues vs

/-- The entries of a map as they are shown. -/
def showEntries : List (Value × Value) → List ShownEntry
  | [] => []
  | (k, v) :: es => ⟨k, showValue k ++ bytes ":" ++ showValue v⟩ :: showEntries es

end

/-- The name of a kind of value that is no text. -/
def typeName : Value → String
  | .list _ => "[]interface \x7b\x7d"
  | .map _ _ => "map[string]interface \x7b\x7d"
  | .time _ => "time.Time"
  | _ => "string"

/-- A value as the text of a setting: a truth value is one or zero, a number has no exponent. A
list, a map and a time are no texts. -/
def asText? : Value → Option Bytes
  | .text t => some t
  | .bool b => some (bytes (if b then "1" else "0"))
  | .int n => some (Bytes.ofInt n)
  | .float f => some (showPositional f)
  | .null => some []
  | _ => none

end HelperImports.Settings
