import HelperImports.Yaml.Node
import HelperImports.Yaml.Value

/-! From the nodes of a document to the entries of the mapping that it is. A mapping may take over
the entries of others, an alias is decoded again wherever it stands, and a document that consists of
little but aliases is refused. -/

namespace HelperImports.Yaml

/-- Two keys are the same. No number is the same as what is not a number, and a time is the same
only in a zone of whole hours that is in use somewhere. -/
def Value.sameKey : Value → Value → Bool
  | .null, .null => true
  | .bool a, .bool b => a == b
  | .int a, .int b => a == b
  | .float (.finite n a), .float (.finite m b) => a == b && (n == m || a.digits.isEmpty)
  | .float (.infinite n), .float (.infinite m) => n == m
  | .time a, .time b => a == b && a.ahead % 60 == 0 && -720 ≤ a.ahead && a.ahead ≤ 840
  | .text a, .text b => a == b
  | _, _ => false

/-- The entries of a map. -/
abbrev Entries := List (Value × Value)

/-- Puts an entry in place of the one with the same key. -/
def Entries.put (es : Entries) (key value : Value) : Entries :=
  es.filter (fun e => !e.1.sameKey key) ++ [(key, value)]

namespace Node

/-- What tells one key of a mapping from another: its kind, and its text as it is written. -/
def identity : Node → Nat × List Char
  | .scalar _ _ text => (0, text)
  | .sequence _ _ => (1, [])
  | .mapping _ _ => (2, [])
  | .alias name _ _ => (3, name)

/-- The key that takes over the entries of other mappings. -/
def isMergeKey : Node → Bool
  | .scalar tag style text =>
    text == ['<', '<'] && match tag with
      | none => style == .plain
      | some t => isTag "merge" t
  | _ => false

/-- The node is a text, by its tag or its look, or a key that takes over entries. An alias is
neither. -/
def isTextual : Node → Bool
  | .scalar none style text =>
    style == .quoted || text == ['<', '<'] || (appearance true text).tag == .text
  | .scalar (some t) _ _ | .sequence (some t) _ | .mapping (some t) _ =>
    isTag "str" t || isTag "merge" t
  | _ => false

/-- The node is a mapping. -/
def isMapping : Node → Bool
  | .mapping _ _ => true
  | _ => false

end Node

/-- No two keys are the same. -/
def distinctKeys (keys : List (Nat × List Char)) : Bool := keys.eraseDups.length = keys.length

namespace Document

/-- The node that an alias stands for; any other node stands for itself. -/
def behind? (d : Document) : Node → Option Node
  | .alias _ target _ => d.anchored.lookup target
  | n => some n

/-- All keys of a mapping are texts. -/
def hasTextKeys (d : Document) (entries : List (Node × Node)) : Bool :=
  entries.all fun e => (d.behind? e.1).any Node.isTextual

/-- The node is a mapping, or an alias of one. -/
def isMapping (d : Document) (n : Node) : Bool := (d.behind? n).any Node.isMapping

end Document

/-- Why a document cannot be decoded. -/
inductive DecodeError where
  /-- The text is no document, or the document does not say what it should. -/
  | malformed
  /-- Entries are taken over where a collection is among the keys. Decoding does not come back
  from there. -/
  | collectionKey
  deriving DecidableEq, Repr

/-- How far decoding has come. -/
structure Progress where
  /-- The number of nodes that were visited. -/
  visited : Nat := 0
  /-- How many of them stood behind an alias. -/
  copied : Nat := 0
  /-- A node does not fit where it stands. -/
  misfit : Bool := false
  /-- While entries are taken over, the keys that are taken already. -/
  taken : Option (List Value) := none

/-- Most nodes stand behind an alias. Of up to 400000 nodes 99 in 100 may, of 4000000 and more one
in ten, and in between a part that falls evenly. -/
def Progress.isExcessive (p : Progress) : Bool :=
  100 < p.copied && 1000 < p.visited &&
    if p.visited ≤ 400000 then 99 * p.visited < 100 * p.copied
    else if 4000000 ≤ p.visited then p.visited < 10 * p.copied
    else (99 * 3600000 - 89 * (p.visited - 400000)) * p.visited < 360000000 * p.copied

/-- A computation that decodes nodes. -/
abbrev Decoder := StateT Progress (Except DecodeError)

namespace Decoder

/-- Counts a visit. `within` are the aliases that lead to the node. -/
def visit (within : List Nat) : Decoder Unit := do
  let p ← get
  let copied := if within.isEmpty then p.copied else p.copied + 1
  let p := { p with visited := p.visited + 1, copied }
  if p.isExcessive then throw .malformed
  set p

/-- Notes a node that does not fit. -/
def refuse : Decoder Unit := modify fun p => { p with misfit := true }

/-- The node behind an alias, which must not lead to itself. -/
def follow (d : Document) (within : List Nat) (number target : Nat) : Decoder Node := do
  if within.contains number then throw .malformed
  match d.anchored.lookup target with
  | some n => return n
  | none => throw .malformed

/-- The value of a scalar. -/
def scalar (tag : Option Bytes) (style : Style) (text : List Char) : Decoder Value :=
  match scalarValue? tag style text with
  | some v => return v
  | none => throw .malformed

/-- A scalar as the key of a map with text keys: its text as it is written, unless it is written in
base 64. Nothing is no key. -/
def scalarKey (tag : Option Bytes) (style : Style) (text : List Char) : Decoder (Option Value) := do
  match ← scalar tag style text with
  | .null => return none
  | .text t => return some (.text t)
  | _ => return some (.text (textBytes text))

/-- A node as the key of a map with text keys. A collection is none. The number bounds how deep
nodes and aliases go, as in the functions below. -/
def textKey (d : Document) (fuel : Nat) (within : List Nat) (n : Node) : Decoder (Option Value) :=
  match fuel with
  | 0 => throw .malformed
  | fuel + 1 => do
    visit within
    match n with
    | .scalar tag style text => scalarKey tag style text
    | .alias _ target number =>
      textKey d fuel (number :: within) (← follow d within number target)
    | _ =>
      refuse
      return none

mutual

/-- The value of a node, if it fits. -/
def value (d : Document) (fuel : Nat) (within : List Nat) (n : Node) : Decoder (Option Value) :=
  match fuel with
  | 0 => throw .malformed
  | fuel + 1 => do
    visit within
    match n with
    | .scalar tag style text => some <$> scalar tag style text
    | .sequence _ items =>
      return some (.list ((← items.mapM (value d fuel within)).filterMap id))
    | .mapping _ entries =>
      let textKeys := d.hasTextKeys entries
      return (← fill d fuel within textKeys [] entries).map (.map textKeys)
    | .alias _ target number =>
      value d fuel (number :: within) (← follow d within number target)

/-- Adds the entries of a mapping to a map: its own first, then those that it takes over. No two of
its keys may be the same. -/
def fill (d : Document) (fuel : Nat) (within : List Nat) (textKeys : Bool) (map : Entries)
    (entries : List (Node × Node)) : Decoder (Option Entries) :=
  match fuel with
  | 0 => throw .malformed
  | fuel + 1 => do
    if !distinctKeys (entries.map (·.1.identity)) then
      refuse
      return none
    let taken := (← get).taken
    modify fun p => { p with taken := none }
    let (map, taken) ← entries.foldlM (addEntry d fuel within textKeys) (map, taken)
    modify fun p => { p with taken }
    match entries.find? (·.1.isMergeKey) with
    | none => return some map
    | some (_, source) => return some (← takeOver d fuel within textKeys map entries source)

/-- Adds an entry to a map. A key that is taken is passed over, and its value is not looked at. -/
def addEntry (d : Document) (fuel : Nat) (within : List Nat) (textKeys : Bool)
    (state : Entries × Option (List Value)) (entry : Node × Node) :
    Decoder (Entries × Option (List Value)) :=
  match fuel with
  | 0 => throw .malformed
  | fuel + 1 => do
    let (map, taken) := state
    if entry.1.isMergeKey then return state
    let key? ←
      if textKeys then textKey d fuel within entry.1 else value d fuel within entry.1
    match key? with
    | none => return state
    | some key =>
      if key.isCollection then
        throw (if taken.isSome then .collectionKey else .malformed)
      if taken.any (·.any key.sameKey) then return state
      let taken := taken.map (key :: ·)
      match ← value d fuel within entry.2 with
      | none => return (map, taken)
      | some v => return (map.put key v, taken)

/-- Adds the entries that the mapping with the given entries takes over: those of another mapping,
or of several in a sequence. Its own keys are taken. -/
def takeOver (d : Document) (fuel : Nat) (within : List Nat) (textKeys : Bool) (map : Entries)
    (entries : List (Node × Node)) (source : Node) : Decoder Entries :=
  match fuel with
  | 0 => throw .malformed
  | fuel + 1 => do
    let outermost := (← get).taken.isNone
    if outermost then
      modify fun p => { p with taken := some [] }
      entries.forM fun e => do
        match ← value d fuel within e.1 with
        | none => return
        | some key =>
          if key.isCollection then throw .collectionKey
          modify fun p => { p with taken := p.taken.map (key :: ·) }
    let map ← match source with
      | .sequence _ items => items.foldlM (addFrom d fuel within textKeys) map
      | n => addFrom d fuel within textKeys map n
    if outermost then modify fun p => { p with taken := none }
    return map

/-- Adds the entries of a mapping, or of one behind an alias. -/
def addFrom (d : Document) (fuel : Nat) (within : List Nat) (textKeys : Bool) (map : Entries)
    (n : Node) : Decoder Entries :=
  match fuel with
  | 0 => throw .malformed
  | fuel + 1 => do
    if !d.isMapping n then throw .malformed
    visit within
    match n with
    | .mapping _ entries => return (← fill d fuel within textKeys map entries).getD map
    | .alias _ target number =>
      addFrom d fuel (number :: within) textKeys map (← follow d within number target)
    | _ => throw .malformed

end

/-- The entries of a document, which has to be a mapping or nothing. -/
def entries (d : Document) : Decoder Entries := do
  visit []
  visit []
  match d.root with
  | .scalar tag style text =>
    match ← scalar tag style text with
    | .null => return []
    | _ => throw .malformed
  | .mapping _ es =>
    let map ← fill d (4 * (d.height + 2) * (d.aliases + 1)) [] true [] es
    if (← get).misfit then throw .malformed
    return map.getD []
  | _ => throw .malformed

end Decoder

/-- The entries of the mapping that is the first document of a file. A file without a document has
no entries. -/
def decodeFile (file : Bytes) : Except DecodeError Entries :=
  match document? (tokens (Source.ofFile file)) with
  | none => .error .malformed
  | some none => .ok []
  | some (some d) => (Decoder.entries d).run' {}

end HelperImports.Yaml
