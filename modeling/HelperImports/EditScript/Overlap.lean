/-! What two sequences have in common at their ends, and where one occurs in the other. -/

namespace HelperImports

variable [DecidableEq α]

/-- The longest sequence that both begin with. -/
def commonPrefix : List α → List α → List α
  | x :: xs, y :: ys => if x = y then x :: commonPrefix xs ys else []
  | _, _ => []

/-- The longest sequence that both end with. -/
def commonSuffix (xs ys : List α) : List α := (commonPrefix xs.reverse ys.reverse).reverse

/-- `xs` without its beginning `front`, which is not looked at. -/
def afterPrefix (front xs : List α) : List α := xs.drop front.length

/-- `xs` without its end `back`, which is not looked at. -/
def beforeSuffix (back xs : List α) : List α := xs.take (xs.length - back.length)

/-- The indices at which `part` occurs in `xs`, in order. -/
def occurrences (part xs : List α) : List Nat :=
  (List.range xs.length).filter fun i => part.isPrefixOf (xs.drop i)

theorem commonPrefix_append_left (xs ys : List α) :
    commonPrefix xs ys ++ afterPrefix (commonPrefix xs ys) xs = xs := by
  fun_induction commonPrefix xs ys with
  | case1 x xs ys ih => simpa [afterPrefix] using ih
  | case2 => simp [afterPrefix]
  | case3 => simp [afterPrefix]

theorem commonPrefix_comm (xs ys : List α) : commonPrefix xs ys = commonPrefix ys xs := by
  induction xs generalizing ys with
  | nil => cases ys <;> simp [commonPrefix]
  | cons x xs ih =>
    cases ys with
    | nil => simp [commonPrefix]
    | cons y ys =>
      by_cases h : x = y
      · subst h; simp [commonPrefix, ih]
      · simp [commonPrefix, h, Ne.symm h]

theorem commonPrefix_append_right (xs ys : List α) :
    commonPrefix xs ys ++ afterPrefix (commonPrefix xs ys) ys = ys := by
  rw [commonPrefix_comm]
  exact commonPrefix_append_left ys xs

theorem commonSuffix_comm (xs ys : List α) : commonSuffix xs ys = commonSuffix ys xs := by
  simp [commonSuffix, commonPrefix_comm]

theorem append_commonSuffix_left (xs ys : List α) :
    beforeSuffix (commonSuffix xs ys) xs ++ commonSuffix xs ys = xs := by
  have h := congrArg List.reverse (commonPrefix_append_left xs.reverse ys.reverse)
  simpa [commonSuffix, afterPrefix, beforeSuffix, List.reverse_drop] using h

theorem append_commonSuffix_right (xs ys : List α) :
    beforeSuffix (commonSuffix xs ys) ys ++ commonSuffix xs ys = ys := by
  rw [commonSuffix_comm]
  exact append_commonSuffix_left ys xs

end HelperImports
