import HelperImports.Yaml.Lexer

/-! The nodes of a YAML document, read from its tokens. An alias stands for the node that had its
name when the alias was read, which may be one that the alias is part of. -/

namespace HelperImports.Yaml

/-- A node. A tag is kept where one is written. -/
inductive Node where
  | scalar (tag : Option Bytes) (style : Style) (text : List Char)
  | sequence (tag : Option Bytes) (items : List Node)
  | mapping (tag : Option Bytes) (entries : List (Node × Node))
  /-- The node with the number `target` among those with an anchor. Aliases are numbered, too. -/
  | alias (name : List Char) (target : Nat) (number : Nat)

/-- A node that is not written. -/
def Node.empty : Node := .scalar none .plain []

/-- What is known while a document is read. -/
structure Scope where
  /-- What the handles of tags stand for. -/
  handles : List (List Char × Bytes) :=
    [(['!'], bytes "!"), (['!', '!'], bytes "tag:yaml.org,2002:")]
  /-- The numbers of the nodes that names stand for, the latest first. -/
  names : List (List Char × Nat) := []
  /-- The nodes with an anchor that are read to their end, by their numbers. -/
  anchored : List (Nat × Node) := []
  /-- How many nodes with an anchor have begun. -/
  anchors : Nat := 0
  /-- How many aliases were read. -/
  aliases : Nat := 0

/-- The properties in front of a node. -/
structure Properties where
  anchor : Option (List Char) := none
  tag : Option Bytes := none

/-- The tag of a node. An exclamation mark alone is none. -/
def Properties.nodeTag (p : Properties) : Option Bytes := p.tag.filter (· != bytes "!")

namespace Scope

/-- The tag that a handle and a suffix stand for. -/
def tag? (s : Scope) (handle : List Char) (suffix : Bytes) : Option Bytes :=
  if handle.isEmpty then some suffix else (s.handles.lookup handle).map (· ++ suffix)

/-- Begins a node: from here on the name of its anchor stands for it. -/
def enter (s : Scope) (p : Properties) : Scope :=
  match p.anchor with
  | some a => { s with names := (a, s.anchors) :: s.names, anchors := s.anchors + 1 }
  | none => s

/-- Ends a node, of which `number` is the number if it has an anchor. -/
def leave (s : Scope) (p : Properties) (number : Nat) (n : Node) : Scope :=
  if p.anchor.isSome then { s with anchored := (number, n) :: s.anchored } else s

end Scope

/-- Reads the properties of a node: an anchor and a tag in either order. -/
def properties? (s : Scope) : List Token → Option (Properties × List Token)
  | .anchor a :: .tag h t :: ts => do return (⟨some a, some (← s.tag? h t)⟩, ts)
  | .tag h t :: .anchor a :: ts => do return (⟨some a, some (← s.tag? h t)⟩, ts)
  | .anchor a :: ts => some (⟨some a, none⟩, ts)
  | .tag h t :: ts => do return (⟨none, some (← s.tag? h t)⟩, ts)
  | ts => some ({}, ts)

/-- What reading a part of a document gives: the part, what is known after it, and the tokens behind
it. -/
abbrev Part (α : Type) := α × Scope × List Token

/-- Where a node stands: inside brackets, as an entry of a block sequence or a document, or as a key
or a value of a block mapping, where a sequence need not be indented. -/
inductive Context where
  | flow
  | block
  | blockMapping
  deriving DecidableEq, Repr

/-- No node is written before these tokens. -/
def endsBlockEntry : List Token → Bool
  | .blockEntry :: _ | .blockEnd :: _ => true
  | _ => false

/-- No node is written before these tokens in a sequence that is not indented. -/
def endsIndentlessEntry : List Token → Bool
  | .blockEntry :: _ | .key :: _ | .value :: _ | .blockEnd :: _ => true
  | _ => false

/-- No node is written before these tokens in a block mapping. -/
def endsBlockPair : List Token → Bool
  | .key :: _ | .value :: _ | .blockEnd :: _ => true
  | _ => false

/-- No value is written before these tokens in a flow mapping. -/
def endsFlowMappingValue : List Token → Bool
  | .flowEntry :: _ | .flowMappingEnd :: _ => true
  | _ => false

/-- No key is written before these tokens in a flow mapping. -/
def endsFlowMappingKey : List Token → Bool
  | .value :: _ => true
  | ts => endsFlowMappingValue ts

/-- No value is written before these tokens in a pair inside a flow sequence. -/
def endsFlowPairValue : List Token → Bool
  | .flowEntry :: _ | .flowSequenceEnd :: _ => true
  | _ => false

/-- No key is written before these tokens in a pair inside a flow sequence. -/
def endsFlowPairKey : List Token → Bool
  | .value :: _ => true
  | ts => endsFlowPairValue ts

mutual

/-- Reads a node. The number bounds how many more parts are read, as in the functions below. -/
def node? (fuel : Nat) (context : Context) (s : Scope) (ts : List Token) : Option (Part Node) :=
  match fuel with
  | 0 => none
  | fuel + 1 =>
    match ts with
    | .alias name :: ts => do
      let target ← s.names.lookup name
      return (.alias name target s.aliases, { s with aliases := s.aliases + 1 }, ts)
    | _ => do
      let (p, ts) ← properties? s ts
      let number := s.anchors
      let (n, s, ts) ← content? fuel context p (s.enter p) ts
      return (n, s.leave p number n, ts)

/-- Reads a node from behind its properties. A node with properties may be left empty. -/
def content? (fuel : Nat) (context : Context) (p : Properties) (s : Scope) (ts : List Token) :
    Option (Part Node) :=
  match fuel with
  | 0 => none
  | fuel + 1 =>
    match ts with
    | .scalar style text :: ts =>
      some (.scalar p.nodeTag style text, s, ts)
    | .flowSequenceStart :: ts => do
      let (items, s, ts) ← flowSequence? fuel true s ts
      return (.sequence p.nodeTag items, s, ts)
    | .flowMappingStart :: ts => do
      let (entries, s, ts) ← flowMapping? fuel true s ts
      return (.mapping p.nodeTag entries, s, ts)
    | t :: rest =>
      if context == .blockMapping && t == .blockEntry then do
        let (items, s, ts) ← indentlessSequence? fuel s ts
        return (.sequence p.nodeTag items, s, ts)
      else if context != .flow && t == .blockSequenceStart then do
        let (items, s, ts) ← blockSequence? fuel s rest
        return (.sequence p.nodeTag items, s, ts)
      else if context != .flow && t == .blockMappingStart then do
        let (entries, s, ts) ← blockMapping? fuel s rest
        return (.mapping p.nodeTag entries, s, ts)
      else if t != .unreadable && (p.anchor.isSome || p.tag.isSome) then
        some (.scalar p.nodeTag .plain [], s, ts)
      else none
    | [] => none

/-- Reads a node, or an empty one where none is written. -/
def nodeUnless? (fuel : Nat) (empty : Bool) (context : Context) (s : Scope) (ts : List Token) :
    Option (Part Node) :=
  match fuel with
  | 0 => none
  | fuel + 1 => if empty then some (.empty, s, ts) else node? fuel context s ts

/-- Reads the entries of a block sequence to its end. -/
def blockSequence? (fuel : Nat) (s : Scope) (ts : List Token) : Option (Part (List Node)) :=
  match fuel with
  | 0 => none
  | fuel + 1 =>
    match ts with
    | .blockEntry :: ts => do
      let (n, s, ts) ← nodeUnless? fuel (endsBlockEntry ts) .block s ts
      let (ns, s, ts) ← blockSequence? fuel s ts
      return (n :: ns, s, ts)
    | .blockEnd :: ts => some ([], s, ts)
    | _ => none

/-- Reads the entries of a sequence that is not indented. -/
def indentlessSequence? (fuel : Nat) (s : Scope) (ts : List Token) : Option (Part (List Node)) :=
  match fuel with
  | 0 => none
  | fuel + 1 =>
    match ts with
    | .blockEntry :: ts => do
      let (n, s, ts) ← nodeUnless? fuel (endsIndentlessEntry ts) .block s ts
      let (ns, s, ts) ← indentlessSequence? fuel s ts
      return (n :: ns, s, ts)
    | .unreadable :: _ => none
    | ts => some ([], s, ts)

/-- Reads the entries of a block mapping to its end. -/
def blockMapping? (fuel : Nat) (s : Scope) (ts : List Token) : Option (Part (List (Node × Node))) :=
  match fuel with
  | 0 => none
  | fuel + 1 =>
    match ts with
    | .key :: ts => do
      let (k, s, ts) ← nodeUnless? fuel (endsBlockPair ts) .blockMapping s ts
      let (v, s, ts) ← blockValue? fuel s ts
      let (es, s, ts) ← blockMapping? fuel s ts
      return ((k, v) :: es, s, ts)
    | .blockEnd :: ts => some ([], s, ts)
    | _ => none

/-- Reads a value of a block mapping. -/
def blockValue? (fuel : Nat) (s : Scope) (ts : List Token) : Option (Part Node) :=
  match fuel with
  | 0 => none
  | fuel + 1 =>
    match ts with
    | .value :: ts => nodeUnless? fuel (endsBlockPair ts) .blockMapping s ts
    | .unreadable :: _ => none
    | ts => some (.empty, s, ts)

/-- Reads the entries of a flow sequence to its end. A key in it is a mapping of one entry; where
the key is left out, the token it would stand before is lost. -/
def flowSequence? (fuel : Nat) (first : Bool) (s : Scope) (ts : List Token) :
    Option (Part (List Node)) :=
  match fuel with
  | 0 => none
  | fuel + 1 => do
    let ts ← match first, ts with
      | true, ts => some ts
      | false, .flowSequenceEnd :: ts => some (.flowSequenceEnd :: ts)
      | false, .flowEntry :: ts => some ts
      | false, _ => none
    match ts with
    | .flowSequenceEnd :: ts => return ([], s, ts)
    | .key :: ts =>
      let (k, s, ts) ←
        if endsFlowPairKey ts then some (Node.empty, s, ts.drop 1) else node? fuel .flow s ts
      let (v, s, ts) ← match ts with
        | .value :: ts => nodeUnless? fuel (endsFlowPairValue ts) .flow s ts
        | .unreadable :: _ => none
        | ts => some (.empty, s, ts)
      let (ns, s, ts) ← flowSequence? fuel false s ts
      return (.mapping none [(k, v)] :: ns, s, ts)
    | ts =>
      let (n, s, ts) ← node? fuel .flow s ts
      let (ns, s, ts) ← flowSequence? fuel false s ts
      return (n :: ns, s, ts)

/-- Reads the entries of a flow mapping to its end. A node that is not marked as a key has no
value. -/
def flowMapping? (fuel : Nat) (first : Bool) (s : Scope) (ts : List Token) :
    Option (Part (List (Node × Node))) :=
  match fuel with
  | 0 => none
  | fuel + 1 => do
    let ts ← match first, ts with
      | true, ts => some ts
      | false, .flowMappingEnd :: ts => some (.flowMappingEnd :: ts)
      | false, .flowEntry :: ts => some ts
      | false, _ => none
    match ts with
    | .flowMappingEnd :: ts => return ([], s, ts)
    | .key :: ts =>
      let (k, s, ts) ← nodeUnless? fuel (endsFlowMappingKey ts) .flow s ts
      let (v, s, ts) ← match ts with
        | .value :: ts => nodeUnless? fuel (endsFlowMappingValue ts) .flow s ts
        | .unreadable :: _ => none
        | ts => some (.empty, s, ts)
      let (es, s, ts) ← flowMapping? fuel false s ts
      return ((k, v) :: es, s, ts)
    | ts =>
      let (k, s, ts) ← node? fuel .flow s ts
      let (es, s, ts) ← flowMapping? fuel false s ts
      return ((k, .empty) :: es, s, ts)

end

/-- Reads the directives of a document. The version has to be 1.1, and is given at most once, as is
the meaning of each handle. -/
def directives? (s : Scope) (versioned : Bool) (given : List (List Char)) :
    List Token → Option (Scope × List Token)
  | .versionDirective major minor :: ts =>
    if versioned || major ≠ 1 || minor ≠ 1 then none else directives? s true given ts
  | .tagDirective handle stem :: ts =>
    if given.contains handle then none
    else
      directives? { s with handles := (handle, stem) :: s.handles } versioned (handle :: given) ts
  | ts => some (s, ts)

/-- The first document ends before these tokens. -/
def endsDocument : List Token → Bool
  | [] | .unreadable :: _ => false
  | _ => true

/-- A document: its root, and what the aliases in it stand for. -/
structure Document where
  root : Node
  anchored : List (Nat × Node) := []
  aliases : Nat := 0
  /-- No branch has more nodes. -/
  height : Nat

/-- The first document; a text may have none. What stands behind the document is not looked at,
except for what the lexer reads ahead. -/
def document? (ts : List Token) : Option (Option Document) :=
  let fuel := 4 * ts.length + 4
  match ts with
  | .streamEnd :: _ => some none
  | _ => do
    let (s, rest) ← directives? {} false [] ts
    let (root, s, rest) ← match rest with
      | .documentStart :: .unreadable :: _ => none
      | .documentStart :: .streamEnd :: ts => some (.empty, s, .streamEnd :: ts)
      | .documentStart :: .documentEnd :: ts => some (.empty, s, .documentEnd :: ts)
      | .documentStart :: .documentStart :: ts => some (.empty, s, .documentStart :: ts)
      | .documentStart :: .versionDirective a b :: ts =>
        some (.empty, s, .versionDirective a b :: ts)
      | .documentStart :: .tagDirective a b :: ts => some (.empty, s, .tagDirective a b :: ts)
      | .documentStart :: ts => node? fuel .block s ts
      | _ => if rest.length = ts.length then node? fuel .block s ts else none
    guard (endsDocument rest)
    return some { root, anchored := s.anchored, aliases := s.aliases, height := ts.length }

end HelperImports.Yaml
