import HelperImports.EditScript.Frontier
import HelperImports.EditScript.Tidy

/-! The edit script between two sequences. What they share at their ends is kept; the rest is
either settled at once or divided at a shared stretch and compared in two parts; the result is
tidied. -/

namespace HelperImports.EditScript

variable [DecidableEq α]

/-- The script where the shorter of two sequences occurs in the longer one: its first occurrence is
kept, and what stands around it is deleted or inserted. -/
def containment? (xs ys : List α) : Option (EditScript α) :=
  if ys.length < xs.length then
    (occurrences ys xs).head?.map fun i =>
      [⟨.delete, xs.take i⟩, ⟨.equal, ys⟩, ⟨.delete, xs.drop (i + ys.length)⟩]
  else
    (occurrences xs ys).head?.map fun i =>
      [⟨.insert, ys.take i⟩, ⟨.equal, xs⟩, ⟨.insert, ys.drop (i + xs.length)⟩]

/-- Where to divide two sequences: at a shared half of the longer one, or else in the middle of a
shortest script. -/
def division? (xs ys : List α) : Option (Division xs ys) :=
  let half :=
    if ys.length < xs.length then Division.half? xs ys
    else (Division.half? ys xs).map Division.swap
  half <|> Division.middle? xs ys

/-- How two sequences that differ at both ends are compared: by a script at hand, or in two
parts. -/
def plan (xs ys : List α) : EditScript α ⊕ Division xs ys :=
  if xs.isEmpty then .inl [⟨.insert, ys⟩]
  else if ys.isEmpty then .inl [⟨.delete, xs⟩]
  else
    match containment? xs ys with
    | some cs => .inl cs
    | none =>
      let replaced := [⟨.delete, xs⟩, ⟨.insert, ys⟩]
      if xs.length = 1 ∨ ys.length = 1 then .inl replaced
      else
        match division? xs ys with
        | some d => .inr d
        | none => .inl replaced

/-- Two sequences without what they share at their ends. -/
structure Ends (xs ys : List α) where
  front : List α
  mid₁ : List α
  mid₂ : List α
  back : List α
  eq₁ : front ++ mid₁ ++ back = xs
  eq₂ : front ++ mid₂ ++ back = ys

/-- Takes off the longest common beginning, and then the longest common end. -/
def Ends.of (xs ys : List α) : Ends xs ys :=
  let front := commonPrefix xs ys
  let xs' := afterPrefix front xs
  let ys' := afterPrefix front ys
  let back := commonSuffix xs' ys'
  { front
    mid₁ := beforeSuffix back xs'
    mid₂ := beforeSuffix back ys'
    back
    eq₁ := by
      rw [List.append_assoc, append_commonSuffix_left xs' ys', commonPrefix_append_left]
    eq₂ := by
      rw [List.append_assoc, append_commonSuffix_right xs' ys', commonPrefix_append_right] }

omit [DecidableEq α] in
theorem Ends.length_le {xs ys : List α} (e : Ends xs ys) :
    e.mid₁.length + e.mid₂.length ≤ xs.length + ys.length := by
  have h₁ := congrArg List.length e.eq₁
  have h₂ := congrArg List.length e.eq₂
  simp only [List.length_append] at h₁ h₂
  omega

/-- The edit script that leads from `xs` to `ys`. -/
def between (xs ys : List α) : EditScript α :=
  if xs = ys then kept xs
  else
    let e := Ends.of xs ys
    let mid :=
      match plan e.mid₁ e.mid₂ with
      | .inl cs => cs
      | .inr d => between d.front₁ d.front₂ ++ kept d.shared ++ between d.back₁ d.back₂
    tidy (kept e.front ++ mid ++ kept e.back)
termination_by xs.length + ys.length
decreasing_by
  · have := d.front_lt; have := e.length_le; omega
  · have := d.back_lt; have := e.length_le; omega

end HelperImports.EditScript
