import HelperImports.Text.Bytes

/-! What can go wrong with files. -/

namespace HelperImports

/-- Why a path cannot be used. -/
inductive Cause where
  | notExist
  | isDirectory
  | notDirectory
  | invalidPath
  | nameTooLong
  | tooManyLinks
  | fileTooLarge
  deriving DecidableEq, Repr

/-- The wording of a cause. -/
def Cause.text : Cause → String
  | notExist => "no such file or directory"
  | isDirectory => "is a directory"
  | notDirectory => "not a directory"
  | invalidPath => "invalid argument"
  | nameTooLong => "file name too long"
  | tooManyLinks => "too many levels of symbolic links"
  | fileTooLarge => "file too large"

/-- What was asked of a path. -/
inductive Action where
  | opening
  | reading
  | writing
  /-- Looking at what a path leads to. -/
  | looking
  /-- Looking at what stands under a path, be it a link. -/
  | lookingAtLink
  /-- Listing a directory. -/
  | listing
  deriving DecidableEq, Repr

/-- The name of an action in messages. -/
def Action.name : Action → String
  | opening => "open"
  | reading => "read"
  | writing => "write"
  | looking => "stat"
  | lookingAtLink => "lstat"
  | listing => "readdirent"

/-- A failed access. -/
inductive Fault where
  | access (action : Action) (path : Bytes) (cause : Cause)
  /-- The working directory is asked for, and has been removed. -/
  | noWorkingDirectory
  deriving DecidableEq, Repr

/-- The cause of a fault. -/
def Fault.cause : Fault → Cause
  | access _ _ cause => cause
  | noWorkingDirectory => .notExist

/-- The wording of a fault: what was tried, with which path, and why it failed. -/
def Fault.message : Fault → Bytes
  | access action path cause =>
    bytes action.name ++ bytes " " ++ path ++ bytes ": " ++ bytes cause.text
  | noWorkingDirectory => bytes "getwd: " ++ bytes Cause.notExist.text

end HelperImports
