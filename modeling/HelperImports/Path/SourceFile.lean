import HelperImports.Path.Lexical

/-! Component sources, told by their names. -/

namespace HelperImports.Path

/-- The endings of component sources. -/
def sourceExtensions : List String := [".ts", ".tsx", ".js", ".jsx", ".mjs", ".cjs"]

/-- `name` is the name of a component source; a declaration file is none. -/
def isSourceFile (name : Bytes) : Bool :=
  !(bytes ".d.ts").isSuffixOf name && sourceExtensions.any fun e => bytes e == extension name

/-- A directory below the searched one that is passed over: dependencies, and hidden
directories. -/
def isSkippedDirectory (name : Bytes) : Bool :=
  name == bytes "node_modules" || dot.isPrefixOf name

end HelperImports.Path
