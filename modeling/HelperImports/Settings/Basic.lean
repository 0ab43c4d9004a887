import HelperImports.Text.Blank
import HelperImports.Text.Identifier
import HelperImports.Text.Quoted

/-! The settings of a run: the helper, and the module that its import comes from. -/

namespace HelperImports

/-- The helper that is looked for unless another one is set. -/
def defaultHelper : Bytes := bytes "getVisualEditorAttributes"

/-- The module that the helper is imported from unless another one is set. -/
def defaultBindings : Bytes := bytes "utils/stackbitBindings"

/-- What shapes the import. -/
structure Settings where
  helper : Bytes := defaultHelper
  /-- The module with the helper, relative to the working directory. -/
  bindings : Bytes := defaultBindings
  deriving DecidableEq, Repr

namespace Settings

/-- Why settings are refused. -/
inductive Invalid where
  | notIdentifier (helper : Bytes)
  | emptyBindings
  deriving DecidableEq, Repr

/-- The wording of a refusal. -/
def Invalid.message : Invalid → Bytes
  | notIdentifier helper => bytes "helper must be a valid identifier: " ++ quote helper
  | emptyBindings => bytes "bindings module must not be empty"

/-- The helper has to be an identifier, and the module more than white space. -/
def validate (s : Settings) : Except Invalid Unit :=
  if !isIdentifier s.helper then .error (.notIdentifier s.helper)
  else if (trim s.bindings).isEmpty then .error .emptyBindings
  else .ok ()

/-- The settings with the defaults in place of empty texts. -/
def withDefaults (helper bindings : Bytes) : Settings where
  helper := if helper.isEmpty then defaultHelper else helper
  bindings := if bindings.isEmpty then defaultBindings else bindings

end Settings

end HelperImports
