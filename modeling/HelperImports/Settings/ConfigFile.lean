import HelperImports.FileSystem.Access
import HelperImports.Settings.KeyCase

/-! The configuration file: where it is looked for, and what it says about each setting. -/

namespace HelperImports.Settings

/-- The names of the configuration file in the working directory; the first one that is there
counts. -/
def configNames : List String :=
  [".vei.json", ".vei.toml", ".vei.yaml", ".vei.yml", ".vei.properties", ".vei.props", ".vei.prop",
   ".vei.hcl", ".vei.tfvars", ".vei.dotenv", ".vei.env", ".vei.ini", ".vei"]

/-- The entries of a configuration file with the given content. -/
def readEntries (content : Bytes) : Except Yaml.DecodeError Yaml.Entries :=
  (Yaml.decodeFile content).map foldKeys

/-- What a configuration file says about a key. A value that is nothing counts as not said. -/
def said? (entries : Yaml.Entries) (key : Bytes) : Option Yaml.Value :=
  match entries.find? fun e => e.1.sameKey (.text key) with
  | some (_, .null) => none
  | some (_, v) => some v
  | none => none

/-- The path of the configuration file in the working directory, seen from the root. Only a file
counts, or a link to one. -/
def configPath? (fs : FileSystem) : Option Bytes :=
  match fs.workingDirectory with
  | .error _ => none
  | .ok here =>
    (configNames.map fun n => Path.join [here, bytes n]).find? fun path =>
      match fs.find .destination path with
      | .ok (.file _) => true
      | _ => false

end HelperImports.Settings
