import HelperImports.Text.Lower
import HelperImports.Yaml.Decoder

/-! The keys of a configuration file in lower case, so that upper and lower case make no
difference. -/

namespace HelperImports.Settings

open Yaml (Value Entries FloatValue)

/-- A floating-point number without an exponent. -/
def showPositional : FloatValue → Bytes
  | .finite negative d => textBytes ((if negative then ['-'] else []) ++ d.positional)
  | .infinite negative => bytes (if negative then "-Inf" else "+Inf")
  | .notANumber => bytes "NaN"

/-- The text of a key. -/
def keyText : Value → Bytes
  | .bool b => bytes (if b then "true" else "false")
  | .int n => Bytes.ofInt n
  | .float f => showPositional f
  | .time t => t.toBytes
  | .text t => t
  | _ => []

/-- The key in lower case. -/
def lowerKey (key : Value) : Value := .text (lowerText (keyText key))

/-- Entries with their keys in lower case. Of two spellings of a key, the one that is not all in
lower case counts. -/
def mergeSpellings (es : Entries) : Entries :=
  let (lower, upper) := es.partition fun e => (lowerKey e.1).sameKey e.1
  upper.foldl (fun es e => es.put (lowerKey e.1) e.2) lower

mutual

/-- A value with all keys in lower case. What stands below a map whose keys are not all texts is
left to `plainKeys`. -/
def lowerKeys : Value → Value
  | .list items => .list (lowerItems items)
  | .map true es => .map true (mergeSpellings (lowerEntries es))
  | .map false es => .map true (plainEntries es)
  | v => v

/-- The items of a list with all keys in lower case. -/
def lowerItems : List Value → List Value
  | [] => []
  | v :: vs => lowerKeys v :: lowerItems vs

/-- Entries with all keys in their values in lower case. -/
def lowerEntries : Entries → Entries
  | [] => []
  | (k, v) :: es => (k, lowerKeys v) :: lowerEntries es

/-- A value whose keys are texts in lower case, except for what stands in lists. -/
def plainKeys : Value → Value
  | .map _ es => .map true (plainEntries es)
  | v => v

/-- Entries whose keys are texts in lower case. -/
def plainEntries : Entries → Entries
  | [] => []
  | (k, v) :: es => (plainEntries es).put (lowerKey k) (plainKeys v)

end

/-- The entries of a configuration file as they count. -/
def foldKeys (es : Entries) : Entries := mergeSpellings (lowerEntries es)

end HelperImports.Settings
