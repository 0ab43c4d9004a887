import HelperImports.Yaml.Cursor

/-! Comments: one behind a token on its line, and those on lines of their own, which are passed
over together with the white space between them. -/

namespace HelperImports.Yaml.Cursor

/-- The number of characters in which a comment is looked for. -/
def commentReach : Nat := 512

/-- Looks for a comment past characters that satisfy `past`. A character that satisfies `last` is
passed as well, and the search ends behind it. Gives the number of characters before the comment;
`n` of them are passed already, and `ahead` is what follows these. -/
def findComment? (past last : Char → Bool) (ahead : List Char) (n : Nat) (c : Cursor) :
    Option (Option Nat × Cursor) :=
  if commentReach ≤ n then some (none, c)
  else do
    let c ← c.view? (n + 1)
    match ahead with
    | [] => return (none, c)
    | ch :: ahead =>
      if ch == '#' then return (some n, c)
      else if past ch then findComment? past last ahead (n + 1) c
      else if last ch && n + 1 < commentReach then return (none, ← c.view? (n + 2))
      else return (none, c)

/-- Passes over a comment on the line of a token, from behind the token. -/
def passLineComment? (c : Cursor) : Option Cursor :=
  if c.newLine then some c
  else do
    let (found, c) ← findComment? isGap (fun _ => false) c.rest 0 c
    if found.isSome then (← c.skipWhile? isGap).skipToBreak? else return c

/-- Passes over white space up to a position. At most `fuel` characters and line breaks are
passed. -/
def passSpaceTo? (index : Nat) : Nat → Cursor → Option Cursor
  | 0, c => some c
  | fuel + 1, c =>
    if index ≤ c.index then some c
    else do
      let c ← c.view? 1
      let c ← if c.atBreak then (c.passBreak?).map (·.2) else some c.skip
      passSpaceTo? index fuel c

/-- Passes over the comment at the cursor, and over further ones as long as each is in reach of the
one before it. Line breaks of more than one byte end the search. At most `fuel` comments are
passed. -/
def passComments? : Nat → Cursor → Option Cursor
  | 0, c => some c
  | fuel + 1, c => do
    let c ← c.skipToBreak?
    let (found, c) ←
      findComment? (fun ch => isGap ch || ch == '\n' || ch == '\r') isBreak c.rest 0 c
    match found with
    | some n => passComments? fuel (← c.passSpaceTo? (c.index + n) n)
    | none => return c

end HelperImports.Yaml.Cursor
