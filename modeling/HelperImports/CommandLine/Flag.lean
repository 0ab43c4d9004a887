import HelperImports.Text.Quoted

/-! Flags among the arguments of a command. Flags and other arguments may be mixed, and two hyphens
alone end the flags. -/

namespace HelperImports

/-- What a flag takes: a text, or whether it is on, which is so if nothing is said. -/
inductive FlagKind where
  | text
  | switch
  deriving DecidableEq, Repr

/-- A flag, with the letter it can be given by. -/
structure Flag where
  name : String
  letter : Option Char := none
  kind : FlagKind := .text
  deriving DecidableEq, Repr

/-- Why arguments are refused. -/
inductive FlagError where
  /-- A flag with no proper name. -/
  | badName (arg : Bytes)
  | unknownName (name : Bytes)
  /-- A letter that is no flag, with the letters from it on. -/
  | unknownLetter (letter : UInt8) (letters : Bytes)
  | missingValue (arg : Bytes)
  /-- A value that does not say whether a switch is on. -/
  | badSwitch (flag : Flag) (value : Bytes)
  /-- Help is asked for where there is no flag for it. -/
  | helpRequested
  deriving DecidableEq, Repr

/-- How a flag is named in messages. -/
def Flag.shown (f : Flag) : Bytes :=
  (match f.letter with
    | some c => bytes "-" ++ bytes (String.singleton c) ++ bytes ", "
    | none => []) ++ bytes "--" ++ bytes f.name

/-- The wording of a refusal. -/
def FlagError.message : FlagError → Bytes
  | badName arg => bytes "bad flag syntax: " ++ arg
  | unknownName name => bytes "unknown flag: --" ++ name
  | unknownLetter letter letters =>
    bytes "unknown shorthand flag: " ++ quoteChar (Char.ofNat letter.toNat) ++ bytes " in -" ++
      letters
  | missingValue arg => bytes "flag needs an argument: " ++ arg
  | badSwitch flag value =>
    bytes "invalid argument " ++ quote value ++ bytes " for " ++ quote flag.shown ++
      bytes " flag: strconv.ParseBool: parsing " ++ quote value ++ bytes ": invalid syntax"
  | helpRequested => bytes "pflag: help requested"

/-- The spellings of on and off. -/
def switchValue? (value : Bytes) : Option Bool :=
  if ["1", "t", "T", "TRUE", "true", "True"].any fun s => bytes s == value then some true
  else if ["0", "f", "F", "FALSE", "false", "False"].any fun s => bytes s == value then some false
  else none

/-- A flag that was given, with its value. -/
structure GivenFlag where
  name : String
  value : Bytes
  deriving DecidableEq, Repr

namespace GivenFlag

/-- Takes a value for a flag; a switch takes only on and off. -/
def of (flag : Flag) (value : Bytes) : Except FlagError GivenFlag :=
  if flag.kind = .switch ∧ (switchValue? value).isNone then .error (.badSwitch flag value)
  else .ok ⟨flag.name, value⟩

/-- The value of a flag that is given without one, if it needs none. -/
def implied? (flag : Flag) : Option Bytes :=
  match flag.kind with
  | .switch => some (bytes "true")
  | .text => none

end GivenFlag

/-- What arguments say: the flags in the order they were given, and the other arguments. -/
structure ParsedFlags where
  given : List GivenFlag := []
  arguments : List Bytes := []
  deriving DecidableEq, Repr

namespace ParsedFlags

/-- The last value given for a flag. -/
def value? (p : ParsedFlags) (name : String) : Option Bytes :=
  ((p.given.filter (·.name == name)).getLast?).map (·.value)

/-- A switch is on. -/
def isOn (p : ParsedFlags) (name : String) : Bool :=
  ((p.value? name).bind switchValue?).getD false

/-- A flag was given, with whatever value. -/
def isGiven (p : ParsedFlags) (name : String) : Bool := (p.value? name).isSome

/-- Adds flags in front of the given ones. -/
def addGiven (gs : List GivenFlag) (p : ParsedFlags) : ParsedFlags :=
  { p with given := gs ++ p.given }

/-- Adds an argument in front of the others. -/
def addArgument (arg : Bytes) (p : ParsedFlags) : ParsedFlags :=
  { p with arguments := arg :: p.arguments }

/-- The flag of an argument that begins with two hyphens, and its value if it is not the next
argument. -/
def long (flags : List Flag) (arg : Bytes) : Except FlagError (Flag × Option Bytes) :=
  let (name, value) := Bytes.cut 0x3D (arg.drop 2)
  if name.isEmpty || name.head? == some 0x2D then .error (.badName arg)
  else
    match flags.find? fun f => bytes f.name == name with
    | some f => .ok (f, value <|> GivenFlag.implied? f)
    | none => .error (if name == bytes "help" then .helpRequested else .unknownName name)

/-- The flags of letters behind one hyphen, and whether the last of them takes the next argument as
its value. What follows a letter may be its value. -/
def short (flags : List Flag) : Bytes → Except FlagError (List GivenFlag × Option Flag)
  | [] => .ok ([], none)
  | letter :: rest =>
    if (bytes "test.").isPrefixOf (letter :: rest) then .ok ([], none)
    else
      match flags.find? fun f => f.letter.map Char.toNat == some letter.toNat with
      | none =>
        .error (if letter == 0x68 then .helpRequested else .unknownLetter letter (letter :: rest))
      | some f =>
        if rest.head? == some 0x3D && 1 < rest.length then do
          return ([← GivenFlag.of f (rest.drop 1)], none)
        else
          match GivenFlag.implied? f with
          | some v => do
            let g ← GivenFlag.of f v
            let (gs, last) ← short flags rest
            return (g :: gs, last)
          | none =>
            if rest.isEmpty then .ok ([], some f)
            else do return ([← GivenFlag.of f rest], none)

/-- Reads arguments, up to the first error. -/
def parse (flags : List Flag) : List Bytes → Except FlagError ParsedFlags
  | [] => .ok {}
  | arg :: rest =>
    if arg.head? != some 0x2D || arg.length = 1 then (parse flags rest).map (addArgument arg)
    else if arg == bytes "--" then .ok { arguments := rest }
    else if (bytes "--").isPrefixOf arg then
      match long flags arg with
      | .error e => .error e
      | .ok (f, some v) =>
        match GivenFlag.of f v with
        | .error e => .error e
        | .ok g => (parse flags rest).map (addGiven [g])
      | .ok (f, none) =>
        match rest with
        | [] => .error (.missingValue arg)
        | v :: rest =>
          match GivenFlag.of f v with
          | .error e => .error e
          | .ok g => (parse flags rest).map (addGiven [g])
    else
      match short flags (arg.drop 1) with
      | .error e => .error e
      | .ok (gs, none) => (parse flags rest).map (addGiven gs)
      | .ok (gs, some f) =>
        match rest with
        | [] => .error (.missingValue arg)
        | v :: rest =>
          match GivenFlag.of f v with
          | .error e => .error e
          | .ok g => (parse flags rest).map (addGiven (gs ++ [g]))

end ParsedFlags

end HelperImports
