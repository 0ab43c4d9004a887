import HelperImports.Text.Bytes

/-! What the tool says about its own build. -/

namespace HelperImports

/-- How a build of the tool was marked. -/
structure Build where
  version : Bytes := bytes "dev"
  commit : Bytes := bytes "unknown"
  date : Bytes := bytes "unknown"
  deriving DecidableEq, Repr

namespace Build

/-- Takes over the version that the module was fetched under, if there is one and the build was
not given a version of its own. -/
def adopt (b : Build) (fetched : Bytes) : Build :=
  if b.version != bytes "dev" || fetched.isEmpty || fetched == bytes "(devel)" then b
  else { b with version := fetched }

/-- The line that tells the version; `compiler` and `platform` say what the build was made with
and for. -/
def describe (b : Build) (compiler platform : Bytes) : Bytes :=
  bytes "vei version " ++ b.version ++ bytes " (commit " ++ b.commit ++ bytes ", built " ++
    b.date ++ bytes ", " ++ compiler ++ bytes " " ++ platform ++ bytes ")"

end Build

end HelperImports
