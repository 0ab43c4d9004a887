import HelperImports.Text.Bytes

/-! Paths as texts. A path is read without a look at any file: it begins at the root or not, and
names one step after the other. -/

namespace HelperImports.Path

/-- The byte between the names of a path. -/
def slash : UInt8 := 0x2F

/-- The name of the directory itself. -/
def dot : Bytes := bytes "."

/-- The name of the directory above. -/
def dotDot : Bytes := bytes ".."

/-- The path begins at the root. -/
def isRooted (path : Bytes) : Bool := path.head? == some slash

/-- The names of a path, in order. Empty names and the name of the directory itself are no steps
and are left out. -/
def names (path : Bytes) : List Bytes :=
  (path.splitAt slash).filter fun n => !n.isEmpty && n != dot

/-- Adds one step to a path that is given last name first: a step up takes the last step back, is
lost at the root, and stays where there is nothing to take back. -/
def step (rooted : Bool) (back : List Bytes) (name : Bytes) : List Bytes :=
  if name = dotDot then
    match back with
    | [] => if rooted then [] else [dotDot]
    | last :: rest => if last = dotDot then dotDot :: back else rest
  else name :: back

/-- The steps of a path with every step up taken, as far as that can be told. -/
def resolved (rooted : Bool) (ns : List Bytes) : List Bytes := (ns.foldl (step rooted) []).reverse

/-- The shortest text with the given steps. -/
def spell (rooted : Bool) (ns : List Bytes) : Bytes :=
  let text := Bytes.joinWith slash ns
  if rooted then slash :: text else if ns.isEmpty then dot else text

/-- The shortest path that leads to the same place, as far as the text tells. -/
def clean (path : Bytes) : Bytes :=
  let rooted := isRooted path
  spell rooted (resolved rooted (names path))

/-- One path after another, cleaned; empty paths in front are left out, and nothing joined is
empty. -/
def join (parts : List Bytes) : Bytes :=
  match parts.dropWhile List.isEmpty with
  | [] => []
  | parts => clean (Bytes.joinWith slash parts)

/-- The path up to its last slash, cleaned. -/
def parent (path : Bytes) : Bytes :=
  clean (path.reverse.dropWhile (· != slash)).reverse

/-- The path without the slashes at its end. -/
def dropSlashes (path : Bytes) : Bytes := (path.reverse.dropWhile (· == slash)).reverse

/-- The last name of a path: a dot for the empty path, a slash for one of slashes only. -/
def base (path : Bytes) : Bytes :=
  if path.isEmpty then dot
  else
    match dropSlashes path with
    | [] => [slash]
    | path => (path.reverse.takeWhile (· != slash)).reverse

/-- The ending of the last name, from its last dot on; empty if it has no dot. -/
def extension (path : Bytes) : Bytes :=
  let name := path.reverse.takeWhile (· != slash)
  match name.dropWhile (· != 0x2E) with
  | [] => []
  | mark :: _ => mark :: (name.takeWhile (· != 0x2E)).reverse

/-- The path seen from the root, if relative paths begin at the directory `here`. Only a relative
path asks where that is. -/
def absolute (here : Except ε Bytes) (path : Bytes) : Except ε Bytes :=
  if isRooted path then .ok (clean path)
  else do
    let here ← here
    return join [here, path]

/-- The steps from one directory to another, both given by their steps from the root: up to the
last directory that both pass, then down. -/
def route : List Bytes → List Bytes → List Bytes
  | a :: as, b :: bs => if a = b then route as bs else (a :: as).map (fun _ => dotDot) ++ b :: bs
  | as, bs => as.map (fun _ => dotDot) ++ bs

/-- The path from one absolute directory to another place. -/
def relative (base target : Bytes) : Bytes :=
  spell false (route (resolved true (names base)) (resolved true (names target)))

end HelperImports.Path
