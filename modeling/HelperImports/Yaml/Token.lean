import HelperImports.Text.Bytes

/-! The tokens of a YAML text. Indentation shows as tokens that begin and end collections. -/

namespace HelperImports.Yaml

/-- Whether a scalar stands as it is or is marked as a text, by quotes or as a block. -/
inductive Style where
  | plain
  | quoted
  deriving DecidableEq, Repr

/-- A token. -/
inductive Token where
  | streamEnd
  | versionDirective (major minor : Nat)
  | tagDirective (handle : List Char) (stem : Bytes)
  | documentStart
  | documentEnd
  | blockSequenceStart
  | blockMappingStart
  | blockEnd
  | flowSequenceStart
  | flowSequenceEnd
  | flowMappingStart
  | flowMappingEnd
  | blockEntry
  | flowEntry
  | key
  | value
  | alias (name : List Char)
  | anchor (name : List Char)
  | tag (handle : List Char) (suffix : Bytes)
  | scalar (style : Style) (text : List Char)
  /-- What cannot be read, and stands for all that follows it. -/
  | unreadable
  deriving DecidableEq, Repr

end HelperImports.Yaml
