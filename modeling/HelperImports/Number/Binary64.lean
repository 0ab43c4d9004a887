/-! Floating-point numbers of 64 bits, as far as reading and writing decimals needs them. A number
is `mantissa * 2 ^ exponent` with a mantissa below `2 ^ 53`; a decimal is read as the nearest
number, and a number is written with the fewest digits that are read as the same number. -/

namespace HelperImports

/-- A finite number that is not negative. -/
structure Binary64 where
  mantissa : Nat
  exponent : Int
  deriving DecidableEq, Repr

namespace Binary64

/-- The least exponent. -/
def minExponent : Int := -1074

/-- The greatest exponent. -/
def maxExponent : Int := 971

/-- `a * 2 ^ e` as a fraction. -/
def scale (a : Nat × Nat) (e : Int) : Nat × Nat :=
  if 0 ≤ e then (a.1 * Nat.pow 2 e.toNat, a.2) else (a.1, a.2 * Nat.pow 2 (-e).toNat)

/-- The number nearest to a fraction in units of `2 ^ e`; of two equally near ones the even one. -/
def quotient (a : Nat × Nat) (e : Int) : Nat :=
  let (n, d) := scale a (-e)
  let m := n / d
  if d < 2 * (n % d) ∨ (d = 2 * (n % d) ∧ m % 2 = 1) then m + 1 else m

/-- The number nearest to a fraction; none if the fraction is too large. -/
def nearest? (a : Nat × Nat) : Option Binary64 :=
  if a.1 = 0 then some ⟨0, minExponent⟩
  else
    let guess : Int := (Nat.log2 a.1 : Int) - Nat.log2 a.2 - 53
    let exact (e : Int) : Bool := let (n, d) := scale a (-e); n / d < 0x20000000000000
    let e := if exact guess then guess else if exact (guess + 1) then guess + 1 else guess + 2
    let e := max e minExponent
    let m := quotient a e
    let r : Binary64 := if m = 0x20000000000000 then ⟨0x10000000000000, e + 1⟩ else ⟨m, e⟩
    if maxExponent < r.exponent then none else some r

/-- The number nearest to `digits * 10 ^ exponent`. -/
def ofDecimal? (digits : Nat) (exponent : Int) : Option Binary64 :=
  let size : Int := (Nat.toDigits 10 digits).length + exponent
  if digits = 0 ∨ size < -400 then some ⟨0, minExponent⟩
  else if 400 < size then none
  else if 0 ≤ exponent then nearest? (digits * Nat.pow 10 exponent.toNat, 1)
  else nearest? (digits, Nat.pow 10 (-exponent).toNat)

end Binary64

/-- The decimal `0.d₁d₂… * 10 ^ point`. -/
structure Decimal where
  digits : List Char
  point : Int
  deriving DecidableEq, Repr

namespace Decimal

/-- Without zeros at the end. -/
def ofNat (digits : Nat) (exponent : Int) : Decimal :=
  let ds := Nat.toDigits 10 digits
  let kept := (ds.reverse.dropWhile (· == '0')).reverse
  ⟨kept, if kept.isEmpty then 0 else ds.length + exponent⟩

end Decimal

namespace Binary64

/-- `10 ^ p` as a fraction. -/
def powerOfTen (p : Int) : Nat × Nat :=
  if 0 ≤ p then (Nat.pow 10 p.toNat, 1) else (1, Nat.pow 10 (-p).toNat)

/-- The order of two fractions. -/
def lessEq (a b : Nat × Nat) : Bool := a.1 * b.2 ≤ b.1 * a.2

/-- The decimals with `n` digits on both sides of the number that are read as it, the nearer one
first; of two equally near ones the one with the even last digit. -/
def candidates (b : Binary64) (n : Nat) : List Decimal :=
  let unit := scale (1, 1) (b.exponent - 2)
  let quarter (k : Nat) : Nat × Nat := (k * unit.1, unit.2)
  let value := quarter (4 * b.mantissa)
  let high := quarter (4 * b.mantissa + 2)
  let low := quarter (4 * b.mantissa -
    if b.mantissa = 0x10000000000000 ∧ minExponent < b.exponent then 1 else 2)
  let even := b.mantissa % 2 = 0
  let inside (a : Nat × Nat) : Bool :=
    if even then lessEq low a && lessEq a high else !lessEq a low && !lessEq high a
  let size : Int := (Nat.toDigits 10 (value.1 / value.2)).length
  let size := if value.1 < value.2 then leadingZeros 400 value else size
  let p := size - n
  let grid := powerOfTen p
  let below := value.1 * grid.2 / (value.2 * grid.1)
  let point (k : Nat) : Nat × Nat := (k * grid.1, grid.2)
  let distance (k : Nat) : Nat × Nat :=
    let a := point k
    ((a.1 * value.2 - value.1 * a.2) + (value.1 * a.2 - a.1 * value.2), a.2 * value.2)
  let above := below + 1
  let upwards := !lessEq (distance below) (distance above) ||
    (lessEq (distance above) (distance below) && below % 2 == 1)
  let order := if upwards then [above, below] else [below, above]
  (order.filter fun k => inside (point k)).map fun k => Decimal.ofNat k p
where
  /-- The exponent of a fraction below one: minus the number of zeros behind its point. -/
  leadingZeros : Nat → Nat × Nat → Int
    | 0, _ => 0
    | fuel + 1, (n, d) => if d ≤ n * 10 then 0 else leadingZeros fuel (n * 10, d) - 1

/-- The number with the fewest digits that are read as it. -/
def shortest (b : Binary64) : Decimal :=
  if b.mantissa = 0 then ⟨[], 0⟩
  else ((List.range 17).findSome? fun n => (b.candidates (n + 1)).head?).getD ⟨[], 0⟩

end Binary64

namespace Decimal

/-- Without an exponent, and with no more digits than there are. -/
def positional (d : Decimal) : List Char :=
  if d.digits.isEmpty then ['0']
  else if d.point ≤ 0 then "0.".toList ++ List.replicate (-d.point).toNat '0' ++ d.digits
  else
    let whole := d.digits.take d.point.toNat
    let part := d.digits.drop d.point.toNat
    whole ++ List.replicate (d.point.toNat - whole.length) '0' ++
      (if part.isEmpty then [] else '.' :: part)

/-- With an exponent where the number is below `10 ^ -4` or at least `10 ^ 6`. -/
def general (d : Decimal) : List Char :=
  let exponent := d.point - 1
  if d.digits.isEmpty ∨ (-4 ≤ exponent ∧ exponent < 6) then d.positional
  else
    let magnitude := Nat.toDigits 10 exponent.natAbs
    d.digits.take 1 ++ (if d.digits.length = 1 then [] else '.' :: d.digits.drop 1) ++
      ['e', if exponent < 0 then '-' else '+'] ++
      (if magnitude.length = 1 then '0' :: magnitude else magnitude)

end Decimal

end HelperImports
