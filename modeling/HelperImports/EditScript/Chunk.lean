/-! Edit scripts. A script is a list of chunks; what it keeps and deletes is the old sequence, and
what it keeps and inserts is the new one. -/

namespace HelperImports

/-- What a chunk does with its items. -/
inductive Op where
  | equal
  | insert
  | delete
  deriving DecidableEq, Repr

/-- Items that a script treats alike. -/
structure Chunk (α : Type u) where
  op : Op
  items : List α
  deriving DecidableEq, Repr

namespace Chunk

/-- What the chunk contributes to the old sequence. -/
def old (c : Chunk α) : List α :=
  match c.op with
  | .insert => []
  | _ => c.items

/-- What the chunk contributes to the new sequence. -/
def new (c : Chunk α) : List α :=
  match c.op with
  | .delete => []
  | _ => c.items

@[simp] theorem old_equal (xs : List α) : (Chunk.mk .equal xs).old = xs := rfl
@[simp] theorem old_delete (xs : List α) : (Chunk.mk .delete xs).old = xs := rfl
@[simp] theorem old_insert (xs : List α) : (Chunk.mk .insert xs).old = [] := rfl
@[simp] theorem new_equal (xs : List α) : (Chunk.mk .equal xs).new = xs := rfl
@[simp] theorem new_delete (xs : List α) : (Chunk.mk .delete xs).new = [] := rfl
@[simp] theorem new_insert (xs : List α) : (Chunk.mk .insert xs).new = xs := rfl

end Chunk

/-- Chunks in order. -/
abbrev EditScript (α : Type u) := List (Chunk α)

namespace EditScript

/-- The sequence that the script starts from. -/
def old (cs : EditScript α) : List α := cs.flatMap Chunk.old

/-- The sequence that the script leads to. -/
def new (cs : EditScript α) : List α := cs.flatMap Chunk.new

/-- A kept stretch as a script: no chunk if it is empty. -/
def kept (xs : List α) : EditScript α := if xs.isEmpty then [] else [⟨.equal, xs⟩]

@[simp] theorem old_nil : old ([] : EditScript α) = [] := rfl
@[simp] theorem new_nil : new ([] : EditScript α) = [] := rfl
@[simp] theorem old_cons (c : Chunk α) (cs : EditScript α) : old (c :: cs) = c.old ++ old cs := rfl
@[simp] theorem new_cons (c : Chunk α) (cs : EditScript α) : new (c :: cs) = c.new ++ new cs := rfl

@[simp] theorem old_append (cs ds : EditScript α) : old (cs ++ ds) = old cs ++ old ds := by
  simp [old]

@[simp] theorem new_append (cs ds : EditScript α) : new (cs ++ ds) = new cs ++ new ds := by
  simp [new]

@[simp] theorem old_kept (xs : List α) : old (kept xs) = xs := by
  cases xs <;> simp [kept]

@[simp] theorem new_kept (xs : List α) : new (kept xs) = xs := by
  cases xs <;> simp [kept]

end EditScript

end HelperImports
