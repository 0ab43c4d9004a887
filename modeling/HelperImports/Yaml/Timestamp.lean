import HelperImports.Text.Bytes

/-! Dates and times as YAML scalars. -/

namespace HelperImports.Yaml

/-- A time, with the minutes by which its zone is ahead. -/
structure Timestamp where
  year : Nat
  month : Nat
  day : Nat
  hour : Nat := 0
  minute : Nat := 0
  second : Nat := 0
  nanosecond : Nat := 0
  ahead : Int := 0
  deriving DecidableEq, Repr

namespace Timestamp

/-- The value of decimal digits. -/
def digitsValue (ds : List Char) : Nat := ds.foldl (fun n d => n * 10 + (d.toNat - 0x30)) 0

/-- Reads a number of one or two digits. -/
def short? : List Char → Option (Nat × List Char)
  | a :: b :: rest =>
    if a.isDigit && b.isDigit then some (digitsValue [a, b], rest)
    else if a.isDigit then some (digitsValue [a], b :: rest)
    else none
  | [a] => if a.isDigit then some (digitsValue [a], []) else none
  | [] => none

/-- Reads one character. -/
def mark? (c : Char) : List Char → Option (List Char)
  | d :: rest => if c = d then some rest else none
  | [] => none

/-- The number of days of a month. -/
def daysIn (year month : Nat) : Nat :=
  if month = 2 then if year % 4 = 0 ∧ (year % 100 ≠ 0 ∨ year % 400 = 0) then 29 else 28
  else if month = 4 ∨ month = 6 ∨ month = 9 ∨ month = 11 then 30
  else 31

/-- Reads a date: four digits of the year, month and day. -/
def date? (cs : List Char) : Option (Timestamp × List Char) := do
  let year := cs.takeWhile Char.isDigit
  guard (year.length = 4)
  let rest ← mark? '-' (cs.drop 4)
  let (month, rest) ← short? rest
  let rest ← mark? '-' rest
  let (day, rest) ← short? rest
  let year := digitsValue year
  guard (1 ≤ month ∧ month ≤ 12 ∧ 1 ≤ day ∧ day ≤ daysIn year month)
  return ({ year, month, day }, rest)

/-- Reads a fraction of a second behind a point or a comma, if there is one; what is below a
nanosecond is dropped. -/
def fraction (cs : List Char) : Nat × List Char :=
  match cs with
  | m :: d :: rest =>
    if (m == '.' || m == ',') && d.isDigit then
      let ds := (d :: rest).takeWhile Char.isDigit
      let kept := ds.take 9
      (digitsValue (kept ++ List.replicate (9 - kept.length) '0'), (d :: rest).drop ds.length)
    else (0, cs)
  | _ => (0, cs)

/-- Reads a time of day. -/
def time? (t : Timestamp) (cs : List Char) : Option (Timestamp × List Char) := do
  let (hour, cs) ← short? cs
  let cs ← mark? ':' cs
  let (minute, cs) ← short? cs
  let cs ← mark? ':' cs
  let (second, cs) ← short? cs
  guard (hour < 24 ∧ minute < 60 ∧ second < 60)
  let (nanosecond, cs) := fraction cs
  return ({ t with hour, minute, second, nanosecond }, cs)

/-- Reads a zone to the end of the text: the letter Z, or hours and minutes behind a sign. -/
def zone? : List Char → Option Int
  | ['Z'] => some 0
  | [s, a, b, ':', c, d] => do
    guard (a.isDigit && b.isDigit && c.isDigit && d.isDigit)
    let hours := digitsValue [a, b]
    let minutes := digitsValue [c, d]
    guard (hours ≤ 24 ∧ minutes ≤ 60)
    let ahead : Int := hours * 60 + minutes
    if s = '+' then return ahead else if s = '-' then return -ahead else none
  | _ => none

/-- Reads a date, alone, with a time of day behind spaces, or with a time of day and a zone behind
the letter T. -/
def ofText? (cs : List Char) : Option Timestamp := do
  let (t, cs) ← date? cs
  match cs with
  | [] => return t
  | c :: rest =>
    if c == 'T' || c == 't' then
      let (t, cs) ← time? t rest
      return { t with ahead := ← zone? cs }
    else if c == ' ' then
      let (t, cs) ← time? t (rest.dropWhile (· == ' '))
      guard cs.isEmpty
      return t
    else none

/-- A number of at least `width` digits. -/
def padded (width n : Nat) : List Char :=
  let ds := Nat.toDigits 10 n
  List.replicate (width - ds.length) '0' ++ ds

/-- A time with its zone. -/
def toBytes (t : Timestamp) : Bytes :=
  let fraction := ((padded 9 t.nanosecond).reverse.dropWhile (· == '0')).reverse
  let zone := (if t.ahead < 0 then '-' else '+') ::
    padded 2 (t.ahead.natAbs / 60) ++ padded 2 (t.ahead.natAbs % 60)
  bytes (String.ofList (padded 4 t.year ++ '-' :: padded 2 t.month ++ '-' :: padded 2 t.day ++
    ' ' :: padded 2 t.hour ++ ':' :: padded 2 t.minute ++ ':' :: padded 2 t.second ++
    (if fraction.isEmpty then [] else '.' :: fraction) ++ ' ' :: zone ++
    ' ' :: (if t.ahead = 0 then "UTC".toList else zone)))

end Timestamp

end HelperImports.Yaml
