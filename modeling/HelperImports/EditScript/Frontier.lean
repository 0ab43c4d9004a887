import HelperImports.EditScript.Division

/-! The middle of a shortest edit script. Two frontiers advance over the grid of the two sequences,
one from the start and one from the end, by one edit at a time; where they meet, a shortest script
passes. A frontier holds, for each diagonal `x - y`, how far it has come in `x`. -/

namespace HelperImports

/-- How far paths with the same number of edits have come. -/
structure Frontier where
  /-- The furthest `x` on each diagonal, from diagonal `-centre` on; `-1` where no path has come. -/
  reach : Array Int
  /-- The index of diagonal 0. -/
  centre : Nat
  /-- How many of the lowest diagonals have left the grid. -/
  low : Int
  /-- How many of the highest diagonals have left the grid. -/
  high : Int
  deriving Repr

namespace Frontier

/-- The frontier before the first step, for paths of fewer than `centre` edits. -/
def start (centre : Nat) : Frontier where
  reach := (Array.replicate (2 * centre) (-1)).setIfInBounds (centre + 1) 0
  centre := centre
  low := 0
  high := 0

/-- How far the frontier has come on diagonal `k`; `-1` outside the diagonals it keeps. -/
def get (f : Frontier) (k : Int) : Int :=
  let i := f.centre + k
  if i < 0 then -1 else f.reach.getD i.toNat (-1)

/-- Records that diagonal `k` is reached up to `x`. -/
def set (f : Frontier) (k x : Int) : Frontier :=
  { f with reach := f.reach.setIfInBounds (f.centre + k).toNat x }

end Frontier

/-- The number of items that `xs` from `x` on and `ys` from `y` on share at their start. -/
def slide [DecidableEq α] (xs ys : Array α) (x y : Nat) : Nat :=
  if h : x < xs.size ∧ y < ys.size then
    if xs[x] = ys[y] then slide xs ys (x + 1) (y + 1) + 1 else 0
  else 0
termination_by xs.size - x

/-- A point where two frontiers meet: `x` items of the one sequence and `y` of the other are on
this side. -/
structure Meeting where
  x : Int
  y : Int
  deriving DecidableEq, Repr

variable [DecidableEq α]

/-- Advances the frontier on the diagonals from `k` on, every other one, to paths of `d` edits.
`meets k x y` says where a path that has come to `(x, y)` on diagonal `k` meets the other
frontier. At most `fuel` diagonals are walked. -/
def Frontier.advance (xs ys : Array α) (meets : Int → Int → Int → Option Meeting) (d : Nat) :
    Nat → Int → Frontier → Frontier × Option Meeting
  | 0, _, f => (f, none)
  | fuel + 1, k, f =>
    if d - f.high < k then (f, none)
    else
      let x :=
        if k = -d ∨ (k ≠ d ∧ f.get (k - 1) < f.get (k + 1)) then f.get (k + 1)
        else f.get (k - 1) + 1
      let along := if 0 ≤ x ∧ 0 ≤ x - k then slide xs ys x.toNat (x - k).toNat else 0
      let x := x + along
      let y := x - k
      let f := f.set k x
      if x > xs.size then advance xs ys meets d fuel (k + 2) { f with high := f.high + 2 }
      else if y > ys.size then advance xs ys meets d fuel (k + 2) { f with low := f.low + 2 }
      else
        match meets k x y with
        | some m => (f, some m)
        | none => advance xs ys meets d fuel (k + 2) f

/-- Where the two frontiers meet, after `d` edits each and at most `fuel` more. If the lengths
differ by an odd number the forward frontier runs into the backward one, otherwise the other way
round. -/
def meeting? (xs ys : Array α) : Nat → Nat → Frontier → Frontier → Option Meeting
  | 0, _, _, _ => none
  | fuel + 1, d, f, b =>
    let n : Int := xs.size
    let delta : Int := n - ys.size
    let odd := delta % 2 ≠ 0
    let onBackward (k x y : Int) : Option Meeting :=
      if odd ∧ b.get (delta - k) ≠ -1 ∧ n - b.get (delta - k) ≤ x then some ⟨x, y⟩ else none
    let (f, met) := f.advance xs ys onBackward d (d + 1) (-d + f.low)
    match met with
    | some m => some m
    | none =>
      let onForward (k x _ : Int) : Option Meeting :=
        let x₁ := f.get (delta - k)
        if ¬odd ∧ x₁ ≠ -1 ∧ n - x ≤ x₁ then some ⟨x₁, x₁ - (delta - k)⟩ else none
      let (b, met) := b.advance xs.reverse ys.reverse onForward d (d + 1) (-d + b.low)
      match met with
      | some m => some m
      | none => meeting? xs ys fuel (d + 1) f b

/-- Cuts two sequences where a shortest edit script between them passes its middle. There is no
such cut if they have nothing in common. -/
def Division.middle? (xs ys : List α) : Option (Division xs ys) := do
  let edits := (xs.length + ys.length + 1) / 2
  let m ← meeting? xs.toArray ys.toArray edits 0 (Frontier.start edits) (Frontier.start edits)
  Division.cut? xs ys m.x.toNat m.y.toNat

end HelperImports
