import HelperImports.Settings.Basic
import HelperImports.Settings.ConfigFile
import HelperImports.Settings.Convert

/-! Settings from several sources. For each setting the first of these counts: the command line, the
environment, the configuration file, the default. -/

namespace HelperImports.Settings

/-- What a source says about each setting. -/
structure Source where
  helper : Option Bytes := none
  bindings : Option Bytes := none
  deriving DecidableEq, Repr

/-- The names of the variables in the environment. -/
def helperVariable : String := "VEI_HELPER"

@[inherit_doc helperVariable]
def bindingsVariable : String := "VEI_BINDINGS_MODULE"

/-- What the environment says. An empty variable says nothing. -/
def Source.ofEnvironment (env : List (Bytes × Bytes)) : Source where
  helper := (env.lookup (bytes helperVariable)).filter (!·.isEmpty)
  bindings := (env.lookup (bytes bindingsVariable)).filter (!·.isEmpty)

/-- The keys in a configuration file. -/
def helperKey : String := "helper"

@[inherit_doc helperKey]
def bindingsKey : String := "bindings_module"

/-- A value that cannot be a setting, with the key it stands under. -/
structure Misfit where
  key : String
  value : Yaml.Value

/-- Why settings cannot be loaded. -/
inductive LoadError where
  /-- The configuration file cannot be read. -/
  | unreadable (fault : Fault)
  /-- The configuration file cannot be understood. -/
  | malformed
  /-- The configuration file gives values that are no texts. -/
  | misfits (values : List Misfit)
  /-- The settings are not valid. -/
  | invalid (reason : Invalid)

/-- How loading ends without settings. -/
inductive Unloaded where
  | error (e : LoadError)
  /-- The decoder breaks down over the configuration file, and nothing catches it. -/
  | crash

/-- What decoding that does not succeed makes of loading. -/
def Unloaded.ofDecodeError : Yaml.DecodeError → Unloaded
  | .malformed => .error .malformed
  | .collectionKey => .crash

/-- The wording of a value that is no text. -/
def Misfit.message (m : Misfit) : Bytes :=
  bytes "'" ++ bytes m.key ++ bytes "' expected type 'string', got unconvertible type '" ++
    bytes (typeName m.value) ++ bytes "', value: '" ++ showValue m.value ++ bytes "'"

/-- The wording of an error. -/
def LoadError.message : LoadError → Bytes
  | unreadable f => bytes "failed to read config file: " ++ f.message
  | malformed => bytes "failed to read config file: While parsing config:"
  | misfits ms =>
    bytes "failed to load config: decoding failed due to the following error(s):\n\n" ++
      Bytes.joinWith 0x0A (ms.map Misfit.message)
  | invalid r => r.message

/-- The entries of the configuration file: of the one that is named, which has to be readable, or
else of the one in the working directory, if there is one. -/
def configEntries (fs : FileSystem) (named : Bytes) : Except Unloaded Yaml.Entries :=
  let read (path : Bytes) : Except Unloaded Yaml.Entries :=
    match fs.readFile path with
    | .error f => .error (.error (.unreadable f))
    | .ok content => (readEntries content).mapError .ofDecodeError
  if named.isEmpty then
    match configPath? fs with
    | none => .ok []
    | some path => read path
  else read named

/-- A setting from the first source that says something about it. -/
def choose (flag env : Option Bytes) (file : Option Yaml.Value) (default : Bytes) :
    Yaml.Value :=
  match flag, env, file with
  | some t, _, _ => .text t
  | none, some t, _ => .text t
  | none, none, some v => v
  | none, none, none => .text default

/-- The settings with these values, which have to be texts. -/
def ofValues (helper bindings : Yaml.Value) : Except LoadError Settings :=
  match asText? helper, asText? bindings with
  | some helper, some bindings => .ok ⟨helper, bindings⟩
  | some _, none => .error (.misfits [⟨bindingsKey, bindings⟩])
  | none, some _ => .error (.misfits [⟨helperKey, helper⟩])
  | none, none => .error (.misfits [⟨helperKey, helper⟩, ⟨bindingsKey, bindings⟩])

/-- Loads the settings; `named` is the path of a configuration file, or empty. -/
def load (fs : FileSystem) (named : Bytes) (flags env : Source) : Except Unloaded Settings := do
  let entries ← configEntries fs named
  let helper := choose flags.helper env.helper (said? entries (bytes helperKey)) defaultHelper
  let bindings :=
    choose flags.bindings env.bindings (said? entries (bytes bindingsKey)) defaultBindings
  let s ← (ofValues helper bindings).mapError .error
  match s.validate with
  | .ok () => return s
  | .error e => throw (.error (.invalid e))

end HelperImports.Settings
