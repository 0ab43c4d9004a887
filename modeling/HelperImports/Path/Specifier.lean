import HelperImports.Path.Lexical

/-! Import specifiers: the path from the importing file's directory to the module. -/

namespace HelperImports.Specifier

/-- A relative path as an import specifier: with slashes only, and a dot in front. -/
def ofPath (path : Bytes) : Bytes :=
  let path := path.map fun b => if b = 0x5C then Path.slash else b
  if path.head? = some 0x2E then path else bytes "./" ++ path

/-- The specifier that reaches `module` from a file in `dir`. Both paths begin at `here` if they
are relative, and `here` is asked for only then, first for the directory. -/
def between (here : Except ε Bytes) (dir module : Bytes) : Except ε Bytes := do
  let base ← Path.absolute here dir
  let target ← Path.absolute here module
  return ofPath (Path.relative base target)

end HelperImports.Specifier
