import HelperImports.EditScript.Overlap

/-! Dividing the comparison of two sequences into two smaller ones. -/

namespace HelperImports

/-- Two sequences cut at a stretch that they share, which may be empty. What stands before it and
what stands after it are smaller than the whole. -/
structure Division (xs ys : List α) where
  front₁ : List α
  front₂ : List α
  shared : List α
  back₁ : List α
  back₂ : List α
  eq₁ : front₁ ++ shared ++ back₁ = xs
  eq₂ : front₂ ++ shared ++ back₂ = ys
  front_lt : front₁.length + front₂.length < xs.length + ys.length
  back_lt : back₁.length + back₂.length < xs.length + ys.length

namespace Division

/-- The same division with the two sequences exchanged. -/
def swap {xs ys : List α} (d : Division xs ys) : Division ys xs where
  front₁ := d.front₂
  front₂ := d.front₁
  shared := d.shared
  back₁ := d.back₂
  back₂ := d.back₁
  eq₁ := d.eq₂
  eq₂ := d.eq₁
  front_lt := by have := d.front_lt; omega
  back_lt := by have := d.back_lt; omega

/-- Cuts `xs` at `x` and `ys` at `y`, unless one side of the cut is empty in both. -/
def cut? (xs ys : List α) (x y : Nat) : Option (Division xs ys) :=
  if h : (xs.take x).length + (ys.take y).length < xs.length + ys.length ∧
      (xs.drop x).length + (ys.drop y).length < xs.length + ys.length then
    some
      { front₁ := xs.take x
        front₂ := ys.take y
        shared := []
        back₁ := xs.drop x
        back₂ := ys.drop y
        eq₁ := by simp
        eq₂ := by simp
        front_lt := h.1
        back_lt := h.2 }
  else none

variable [DecidableEq α]

/-- Cuts at the longest shared stretch that covers index `i` of `xs` and `j` of `ys`, unless it is
empty. -/
def around? (xs ys : List α) (i j : Nat) : Option (Division xs ys) :=
  let before := commonSuffix (xs.take i) (ys.take j)
  let after := commonPrefix (xs.drop i) (ys.drop j)
  if h : 0 < before.length + after.length then
    have eq₁ : beforeSuffix before (xs.take i) ++ (before ++ after) ++
        afterPrefix after (xs.drop i) = xs := by
      have := append_commonSuffix_left (xs.take i) (ys.take j)
      have := commonPrefix_append_left (xs.drop i) (ys.drop j)
      simp_all [before, after, ← List.append_assoc]
      simp_all
    have eq₂ : beforeSuffix before (ys.take j) ++ (before ++ after) ++
        afterPrefix after (ys.drop j) = ys := by
      have := append_commonSuffix_right (xs.take i) (ys.take j)
      have := commonPrefix_append_right (xs.drop i) (ys.drop j)
      simp_all [before, after, ← List.append_assoc]
      simp_all
    some
      { front₁ := beforeSuffix before (xs.take i)
        front₂ := beforeSuffix before (ys.take j)
        shared := before ++ after
        back₁ := afterPrefix after (xs.drop i)
        back₂ := afterPrefix after (ys.drop j)
        eq₁ := eq₁
        eq₂ := eq₂
        front_lt := by
          have h₁ := congrArg List.length eq₁
          have h₂ := congrArg List.length eq₂
          simp only [List.length_append] at h₁ h₂
          omega
        back_lt := by
          have h₁ := congrArg List.length eq₁
          have h₂ := congrArg List.length eq₂
          simp only [List.length_append] at h₁ h₂
          omega }
  else none

/-- The division with the longer shared stretch; the first one if they are equally long. -/
def longer {xs ys : List α} : Option (Division xs ys) → Option (Division xs ys) →
    Option (Division xs ys)
  | none, e => e
  | d, none => d
  | some d, some e => if d.shared.length < e.shared.length then some e else some d

/-- The longest shared stretch that covers a quarter of `long` at index `i`, if it covers at least
half of `long`. -/
def seeded? (long short : List α) (i : Nat) : Option (Division long short) :=
  let seed := (long.drop i).take (long.length / 4)
  let best := (occurrences seed short).foldl
    (fun best j => longer best (around? long short i j)) none
  best.filter fun d => long.length ≤ 2 * d.shared.length

/-- A shared stretch that covers half of `long`, looked for around its second and its third
quarter; of two the longer one, and of two equally long ones that around the third. -/
def half? (long short : List α) : Option (Division long short) :=
  if long.length < 4 || 2 * short.length < long.length then none
  else longer (seeded? long short ((long.length + 1) / 2))
    (seeded? long short ((long.length + 3) / 4))

end Division

end HelperImports
