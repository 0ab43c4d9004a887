import HelperImports.FileSystem.Fault

/-! Why a run ends early or is not content. -/

namespace HelperImports

/-- What ended a run. -/
inductive Failure where
  /-- A file cannot be read. -/
  | reading (path : Bytes) (fault : Fault)
  /-- The way from a file to the bindings module cannot be told. -/
  | resolving (path : Bytes) (fault : Fault)
  /-- An edit cannot be shown, because the output is closed. -/
  | rendering
  /-- A file cannot be written. -/
  | writing (path : Bytes) (fault : Fault)
  /-- The sources below a directory cannot be found. -/
  | searching (dir : Bytes) (fault : Fault)
  /-- A check found files that would change. -/
  | pending (count : Nat)
  deriving DecidableEq, Repr

/-- The wording of a fault in telling a specifier. -/
def Fault.specifierMessage (f : Fault) : Bytes :=
  bytes "failed to get current working directory: " ++ f.message

/-- The wording of a fault in adding an import. -/
def Fault.importMessage (f : Fault) : Bytes :=
  bytes "failed to resolve bindings module: " ++ f.specifierMessage

/-- What a closed output says. -/
def closedMessage : Bytes := bytes "out closed"

/-- The wording of a failure. -/
def Failure.message : Failure → Bytes
  | reading path f => bytes "failed to read file " ++ path ++ bytes ": " ++ f.message
  | resolving path f => path ++ bytes ": " ++ f.importMessage
  | rendering => bytes "failed to render diff: " ++ closedMessage
  | writing path f => bytes "failed to write file " ++ path ++ bytes ": " ++ f.message
  | searching dir f =>
    bytes "failed to find source files in directory " ++ dir ++ bytes ": " ++ f.message
  | pending n => bytes "files need import updates: " ++ Bytes.ofNat n

end HelperImports
