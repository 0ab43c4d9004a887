import HelperImports.Proofs.Files

/-! A file system is known by its outline, its working directory, its limit and what its files hold:
two that agree in these are equal. So a write is described by the one file that it changes, and
writes to different files can be compared file by file. -/

namespace HelperImports

namespace Node

theorem content?_dir_cons (es : List (Bytes × Node)) (name : Bytes) (rest : List Bytes) :
    (dir es).content? (name :: rest) = (es.lookup name).bind (·.content? rest) := by
  simp only [content?, get?, child?, entries]
  cases es.lookup name <;> rfl

theorem WellFormed.tail {e : Bytes × Node} {es : List (Bytes × Node)}
    (h : WellFormed (Node.dir (e :: es))) : WellFormed (Node.dir es) := by
  cases h with
  | dir ordered named below =>
    exact .dir (List.pairwise_cons.1 ordered).2 (fun x hx => named x (List.mem_cons_of_mem e hx))
      fun x hx => below x (List.mem_cons_of_mem e hx)

theorem WellFormed.head {name : Bytes} {x : Node} {es : List (Bytes × Node)}
    (h : WellFormed (Node.dir ((name, x) :: es))) : WellFormed x ∧ es.lookup name = none := by
  cases h with
  | dir ordered _ below =>
    refine ⟨below _ List.mem_cons_self, ?_⟩
    cases hlookup : es.lookup name with
    | none => rfl
    | some y =>
      have hlt : name < name := (List.pairwise_cons.1 ordered).1 _ (mem_of_lookup hlookup)
      exact absurd hlt (List.lt_irrefl name)

end Node

mutual

/-- Trees with one outline, whose files hold the same, are equal. -/
theorem Node.eq_of_content? {n n' : Node} (hn : n.WellFormed) (hn' : n'.WellFormed)
    (houtline : n'.outline = n.outline) (h : ∀ names, n'.content? names = n.content? names) :
    n' = n := by
  cases n with
  | file c =>
    cases n' with
    | file c' =>
      have hroot : some c' = some c := h []
      rw [Option.some.inj hroot]
    | _ => simp [Node.outline] at houtline
  | link target => cases n' <;> simp_all [Node.outline]
  | dir es =>
    cases n' with
    | dir es' =>
      have hentries : es' = es := entries_eq_of_content? hn hn' (Node.dir.inj houtline)
        fun name rest => h (name :: rest)
      rw [hentries]
    | _ => simp [Node.outline] at houtline

theorem entries_eq_of_content? {es es' : List (Bytes × Node)} (hn : (Node.dir es).WellFormed)
    (hn' : (Node.dir es').WellFormed) (houtline : outlineEntries es' = outlineEntries es)
    (h : ∀ name rest, (Node.dir es').content? (name :: rest) =
      (Node.dir es).content? (name :: rest)) :
    es' = es := by
  cases es with
  | nil =>
    cases es' with
    | nil => rfl
    | cons e' es' => simp [outlineEntries] at houtline
  | cons e es =>
    obtain ⟨name, x⟩ := e
    cases es' with
    | nil => simp [outlineEntries] at houtline
    | cons e' es' =>
      obtain ⟨name', x'⟩ := e'
      simp only [outlineEntries, List.cons.injEq, Prod.mk.injEq] at houtline
      obtain ⟨⟨rfl, hx⟩, hes⟩ := houtline
      simp only [Node.content?_dir_cons, lookup_cons_eq_ite] at h
      have hfirst : x' = x := Node.eq_of_content? hn.head.1 hn'.head.1 hx fun rest => by
        simpa using h name' rest
      have hrest : es' = es := by
        refine entries_eq_of_content? hn.tail hn'.tail hes fun name rest => ?_
        rw [Node.content?_dir_cons, Node.content?_dir_cons]
        -- The name of the first entry does not come back, so under it the rest holds nothing.
        by_cases hname : name = name'
        · rw [hname, hn.head.2, hn'.head.2]
        · simpa [hname] using h name rest
      rw [hfirst, hrest]

end

namespace FileSystem

theorem Alike.symm {fs fs' : FileSystem} (h : Alike fs fs') : Alike fs' fs :=
  ⟨h.outline.symm, h.here.symm⟩

/-- File systems that are alike, with one limit and the same in every file, are equal. -/
theorem Alike.eq_of_content? {fs fs' : FileSystem} (h : Alike fs fs')
    (hlimit : fs'.limit = fs.limit) (hc : ∀ names, fs'.content? names = fs.content? names) :
    fs' = fs := by
  have htree : fs'.tree = fs.tree :=
    Node.eq_of_content? fs.wellFormed fs'.wellFormed h.outline hc
  have hhere := h.here
  cases fs
  cases fs'
  simp_all [tree]

/-- `fs'` is `fs` with `text` in the file at `names`. -/
structure Rewritten (fs : FileSystem) (names : List Bytes) (text : Bytes) (fs' : FileSystem) :
    Prop where
  alike : Alike fs fs'
  limit : fs'.limit = fs.limit
  content : ∀ names', fs'.content? names' =
    if names' = names then some text else fs.content? names'

theorem rewritten_put {fs : FileSystem} {names : List Bytes} {c : Bytes}
    (h : fs.content? names = some c) (text : Bytes) :
    Rewritten fs names text (fs.put names (.file text) (.file text)) :=
  ⟨alike_put h text, put_limit fs names _ _, content?_put h text⟩

end FileSystem

end HelperImports
