import HelperImports.EditScript.LineScript
import HelperImports.Sink

/-! Showing an edit: a header that names the file, then every deleted and inserted line. -/

namespace HelperImports

/-- Whether a rendering has colors. -/
inductive Palette where
  | plain
  | colored
  deriving DecidableEq, Repr

namespace Rendering

/-- Switches a display attribute on, by its number; 0 switches all off. -/
def display (code : Nat) : Bytes := bytes "\x1b[" ++ Bytes.ofNat code ++ bytes "m"

/-- The header. Its colors are written apart from its text, and may get lost. -/
def header (palette : Palette) (path : Bytes) : List Write :=
  let text := bytes "--- " ++ path ++ bytes "\n+++ " ++ path ++ bytes "\n"
  match palette with
  | .plain => [{ text }]
  | .colored =>
    [{ text := display 1, optional := true }, { text },
      { text := display 0, optional := true }]

/-- One changed line after its mark, in its color. -/
def changedLine (palette : Palette) (mark : String) (color : Nat) (line : Bytes) : Write :=
  match palette with
  | .plain => { text := bytes mark ++ line ++ bytes "\n" }
  | .colored => { text := display color ++ bytes mark ++ line ++ display 0 ++ bytes "\n" }

/-- The changed lines of a chunk: insertions are green and marked with a plus, deletions red and
marked with a minus. -/
def chunk (palette : Palette) (c : Chunk Bytes) : List Write :=
  match c.op with
  | .equal => []
  | .insert => (shownLines c.text).map (changedLine palette "+" 32)
  | .delete => (shownLines c.text).map (changedLine palette "-" 31)

/-- The writes that show an edit. Two equal texts need none. -/
def writes (palette : Palette) (path before after : Bytes) : List Write :=
  if before = after then []
  else header palette path ++ (lineScript before after).flatMap (chunk palette)

/-- What showing an edit comes to. -/
structure Shown where
  sink : Sink
  /-- There was an edit to show. -/
  changed : Bool
  /-- Nothing was refused that has to be taken. -/
  complete : Bool
  deriving DecidableEq, Repr

/-- Shows an edit, up to the first write that is refused and not optional. -/
def render (palette : Palette) (path before after : Bytes) (sink : Sink) : Shown :=
  let (sink, complete) := sink.writeAll (writes palette path before after)
  { sink, changed := before != after, complete }

end Rendering

end HelperImports
