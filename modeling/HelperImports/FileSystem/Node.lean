import HelperImports.Path.Lexical

/-! Files, links and directories as a tree. In a well-formed tree every directory has its entries
in the order of their names, each name once. -/

namespace HelperImports

/-- What stands under a name. -/
inductive Node where
  | file (content : Bytes)
  | link (target : Bytes)
  | dir (entries : List (Bytes × Node))

/-- A text that can name an entry of a directory. -/
def isEntryName (name : Bytes) : Bool :=
  !name.isEmpty && name != Path.dot && name != Path.dotDot && !name.contains Path.slash

/-- The entries with `node` under `name`, in place of what stood there. -/
def putEntry (name : Bytes) (node : Node) : List (Bytes × Node) → List (Bytes × Node)
  | [] => [(name, node)]
  | (n, x) :: es =>
    if name = n then (name, node) :: es
    else if name < n then (name, node) :: (n, x) :: es
    else (n, x) :: putEntry name node es

namespace Node

/-- The entries of a directory; nothing else has any. -/
def entries : Node → List (Bytes × Node)
  | dir es => es
  | _ => []

def isDir : Node → Bool
  | dir _ => true
  | _ => false

/-- What stands under `name` in a directory. -/
def child? (n : Node) (name : Bytes) : Option Node := n.entries.lookup name

/-- What stands at the end of the given names. -/
def get? (n : Node) : List Bytes → Option Node
  | [] => some n
  | name :: rest =>
    match n.child? name with
    | some c => c.get? rest
    | none => none

/-- Puts `new` at the end of the given names, and makes the directories that are missing on the way.
Below a file or a link, and under what is no name, nothing can be put. -/
def put (n new : Node) : List Bytes → Node
  | [] => new
  | name :: rest =>
    match n with
    | dir es =>
      if isEntryName name then
        dir (putEntry name (put ((n.child? name).getD (dir [])) new rest) es)
      else n
    | _ => n

/-- Takes away what stands at the end of the given names. -/
def erase (n : Node) : List Bytes → Node
  | [] => n
  | name :: rest =>
    match n, n.child? name with
    | dir es, some c =>
      if rest.isEmpty then dir (es.filter (·.1 != name))
      else if isEntryName name then dir (putEntry name (c.erase rest) es)
      else n
    | _, _ => n

/-- Entries in order, with proper names, in every directory. -/
inductive WellFormed : Node → Prop
  | file (content : Bytes) : WellFormed (file content)
  | link (target : Bytes) : WellFormed (link target)
  | dir {es : List (Bytes × Node)} (ordered : es.Pairwise (·.1 < ·.1))
      (named : ∀ e ∈ es, isEntryName e.1 = true) (below : ∀ e ∈ es, WellFormed e.2) :
      WellFormed (dir es)

end Node

theorem mem_putEntry {name : Bytes} {node : Node} {es : List (Bytes × Node)} {e : Bytes × Node}
    (h : e ∈ putEntry name node es) : e = (name, node) ∨ e ∈ es := by
  fun_induction putEntry name node es <;> grind

theorem pairwise_putEntry {name : Bytes} {node : Node} {es : List (Bytes × Node)}
    (h : es.Pairwise (·.1 < ·.1)) : (putEntry name node es).Pairwise (·.1 < ·.1) := by
  fun_induction putEntry name node es with
  | case1 => simp
  | case2 => simpa using h
  | case3 n x es _ hlt =>
    rw [List.pairwise_cons]
    refine ⟨fun e he => ?_, h⟩
    rcases List.mem_cons.1 he with rfl | he
    · exact hlt
    · exact List.lt_trans hlt ((List.pairwise_cons.1 h).1 e he)
  | case4 n x es hne hlt ih =>
    rw [List.pairwise_cons] at h ⊢
    refine ⟨fun e he => ?_, ih h.2⟩
    rcases mem_putEntry he with rfl | he
    · grind
    · exact h.1 e he

namespace Node

theorem wellFormed_putEntry {name : Bytes} {node : Node} {es : List (Bytes × Node)}
    (hes : WellFormed (dir es)) (hname : isEntryName name = true) (hnode : WellFormed node) :
    WellFormed (dir (putEntry name node es)) := by
  cases hes with
  | dir ordered named below =>
    refine .dir (pairwise_putEntry ordered) (fun e he => ?_) (fun e he => ?_)
    · rcases mem_putEntry he with rfl | he
      · exact hname
      · exact named e he
    · rcases mem_putEntry he with rfl | he
      · exact hnode
      · exact below e he

theorem mem_of_lookup {name : Bytes} {node : Node} {es : List (Bytes × Node)}
    (h : es.lookup name = some node) : (name, node) ∈ es := by
  induction es with
  | nil => simp at h
  | cons e es ih =>
    obtain ⟨n, x⟩ := e
    rw [List.lookup_cons] at h
    split at h <;> simp_all

theorem WellFormed.child? {n c : Node} {name : Bytes} (hn : WellFormed n)
    (h : n.child? name = some c) : WellFormed c := by
  cases hn with
  | file => simp [Node.child?, entries] at h
  | link => simp [Node.child?, entries] at h
  | dir _ _ below => exact below _ (mem_of_lookup h)

theorem wellFormed_empty : WellFormed (dir []) := .dir .nil (by simp) (by simp)

theorem WellFormed.put {new n : Node} (hnew : WellFormed new) (hn : WellFormed n)
    (names : List Bytes) : WellFormed (n.put new names) := by
  induction names generalizing n with
  | nil => exact hnew
  | cons name rest ih =>
    cases n with
    | file => exact hn
    | link => exact hn
    | dir es =>
      simp only [Node.put]
      split
      · rename_i hname
        refine wellFormed_putEntry hn hname (ih ?_)
        cases hc : (Node.dir es).child? name with
        | none => exact wellFormed_empty
        | some c => exact hn.child? hc
      · exact hn

theorem WellFormed.erase {n : Node} (hn : WellFormed n) (names : List Bytes) :
    WellFormed (n.erase names) := by
  induction names generalizing n with
  | nil => exact hn
  | cons name rest ih =>
    cases n with
    | file => exact hn
    | link => exact hn
    | dir es =>
      simp only [Node.erase]
      cases hc : (Node.dir es).child? name with
      | none => exact hn
      | some c =>
        simp only
        split
        · cases hn with
          | dir ordered named below =>
            exact .dir (ordered.filter _) (fun e he => named e (List.mem_filter.1 he).1)
              (fun e he => below e (List.mem_filter.1 he).1)
        · split
          · rename_i hname
            exact wellFormed_putEntry hn hname (ih (hn.child? hc))
          · exact hn

end Node

end HelperImports
