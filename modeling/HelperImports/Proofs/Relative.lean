import Mathlib
import HelperImports.Proofs.Route

/-! Specifiers as a resolver of modules reads them. A specifier holds no backslash, and it is
relative unless the module lies below the importing file's directory and the first name on the way
down begins with a dot: that dot is taken for the one that would be put in front. -/

namespace HelperImports

theorem Path.exists_clean_of_absolute {here : Except ε Bytes} {path whole : Bytes}
    (hhere : ∀ wd, here = .ok wd → isRooted wd = true) (h : absolute here path = .ok whole) :
    ∃ p, isRooted p = true ∧ whole = clean p := by
  by_cases hpath : isRooted path = true
  · rw [absolute, if_pos hpath] at h
    exact ⟨path, hpath, (Except.ok.inj h).symm⟩
  · cases here with
    | error f => simp [absolute, hpath, bind, Except.bind] at h
    | ok wd =>
      have hwd := hhere wd rfl
      rw [absolute_of_not_rooted hwd (by simpa using hpath)] at h
      exact ⟨wd ++ slash :: path, isRooted_append hwd _, (Except.ok.inj h).symm⟩

namespace Specifier

open HelperImports.Path

/-! ### Relative specifiers -/

/-- A specifier that is looked up from the importing file's directory, and not as the name of a
package. -/
def IsRelative (specifier : Bytes) : Prop :=
  specifier = dot ∨ specifier = dotDot ∨ bytes "./" <+: specifier ∨ bytes "../" <+: specifier

instance (specifier : Bytes) : Decidable (IsRelative specifier) :=
  inferInstanceAs (Decidable (_ ∨ _ ∨ _ ∨ _))

/-- A name that begins with a dot and reads as a name in a specifier. Where a backslash follows the
first dot, or two dots, it does not: the backslash is written as a slash. -/
def IsHidden (name : Bytes) : Prop :=
  dot <+: name ∧ ¬ bytes ".\\" <+: name ∧ ¬ bytes "..\\" <+: name

instance (name : Bytes) : Decidable (IsHidden name) :=
  inferInstanceAs (Decidable (_ ∧ _ ∧ _))

/-- The path with a slash for every backslash. -/
def slashed (path : Bytes) : Bytes := path.map fun b => if b = 0x5C then slash else b

theorem ofPath_eq (path : Bytes) :
    ofPath path = if (slashed path).head? = some 0x2E then slashed path
      else bytes "./" ++ slashed path := rfl

theorem backslash_notMem_ofPath (path : Bytes) : 0x5C ∉ ofPath path := by
  have hslashed : 0x5C ∉ slashed path := by
    intro hmem
    obtain ⟨b, -, hb⟩ := List.mem_map.1 hmem
    split at hb
    · exact absurd hb (by decide)
    · contradiction
  have hfront : 0x5C ∉ bytes "./" := by decide
  rw [ofPath_eq]
  split
  · exact hslashed
  · simp [hfront, hslashed]

theorem isRelative_cons_cons (a b : UInt8) (text : Bytes) :
    IsRelative (a :: b :: text) ↔
      a = 0x2E ∧ (b = slash ∨ b = 0x2E ∧ (text = [] ∨ text.head? = some slash)) := by
  have hdot : dot = [0x2E] := by decide
  have hup : dotDot = [0x2E, 0x2E] := by decide
  have hhere : bytes "./" = [0x2E, slash] := by decide
  have habove : bytes "../" = [0x2E, 0x2E, slash] := by decide
  rw [IsRelative, hdot, hup, hhere, habove]
  cases text <;> simp [List.cons_prefix_cons, eq_comm] <;> tauto

theorem isHidden_cons_cons (a b : UInt8) (name : Bytes) :
    IsHidden (a :: b :: name) ↔
      a = 0x2E ∧ b ≠ 0x5C ∧ ¬ (b = 0x2E ∧ name.head? = some 0x5C) := by
  have hdot : dot = [0x2E] := by decide
  have hhere : bytes ".\\" = [0x2E, 0x5C] := by decide
  have habove : bytes "..\\" = [0x2E, 0x2E, 0x5C] := by decide
  rw [IsHidden, hdot, hhere, habove]
  cases name <;> simp [List.cons_prefix_cons, eq_comm] <;> tauto

theorem head?_slashed_append {name : Bytes} (hne : name ≠ []) (hslash : slash ∉ name)
    (rest : Bytes) :
    (slashed (name ++ rest)).head? = some slash ↔ name.head? = some 0x5C := by
  obtain ⟨b, name, rfl⟩ := List.exists_cons_of_ne_nil hne
  have hb : b ≠ slash := fun heq => hslash (by simp [heq])
  by_cases hback : b = 0x5C <;> simp [slashed, hback, hb]

theorem isRelative_ofPath_of_ne {a : UInt8} (ha : a ≠ 0x2E) (rest : Bytes) :
    IsRelative (ofPath (a :: rest)) := by
  have hfront : (slashed (a :: rest)).head? ≠ some 0x2E := by
    simp only [slashed, List.map_cons, List.head?_cons, ne_eq, Option.some.injEq]
    split
    · decide
    · exact ha
  rw [ofPath_eq, if_neg hfront]
  exact .inr (.inr (.inl (List.prefix_append _ _)))

theorem ofPath_dot_cons (b : UInt8) (rest : Bytes) :
    ofPath (0x2E :: b :: rest) = 0x2E :: (if b = 0x5C then slash else b) :: slashed rest := by
  rw [ofPath_eq]
  rfl

/-- A name leads on a relative way unless it is hidden, whatever follows it. -/
theorem isRelative_ofPath_iff {name : Bytes} (hname : isEntryName name = true) (rest : Bytes) :
    IsRelative (ofPath (name ++ rest)) ↔ ¬ IsHidden name := by
  obtain ⟨⟨hne, hdot, hslash⟩, hup⟩ := isEntryName_iff.1 hname
  obtain ⟨a, name, rfl⟩ := List.exists_cons_of_ne_nil hne
  by_cases ha : a = 0x2E
  · subst ha
    -- The name goes on behind its dot, since it is not the name of the directory itself.
    obtain ⟨b, name, rfl⟩ : ∃ b more, name = b :: more := by
      apply List.exists_cons_of_ne_nil
      rintro rfl
      exact hdot (by decide)
    simp only [List.mem_cons, not_or] at hslash
    rw [List.cons_append, List.cons_append, ofPath_dot_cons, isRelative_cons_cons,
      isHidden_cons_cons]
    by_cases hback : b = 0x5C
    · simp [hback]
    · by_cases hdots : b = 0x2E
      · -- It goes on behind two dots as well, since it is not the name of the directory above.
        subst hdots
        have hmore : name ≠ [] := by
          rintro rfl
          exact hup (by decide)
        have hlong : slashed (name ++ rest) ≠ [] := by simp [slashed, hmore]
        have hhead := head?_slashed_append hmore hslash.2.2 rest
        have hplain : (0x2E : UInt8) ≠ slash := by decide
        simp [hlong, hhead, hplain]
      · simp [hback, hdots, Ne.symm hslash.2.1]
  · have hshown : ¬ IsHidden (a :: name) := by
      rintro ⟨hstart, -⟩
      exact ha (List.cons_prefix_cons.1 hstart).1.symm
    exact iff_of_true (isRelative_ofPath_of_ne ha (name ++ rest)) hshown

theorem exists_joinWith_cons (n : Bytes) (ns : List Bytes) :
    ∃ rest, Bytes.joinWith slash (n :: ns) = n ++ rest ∧
      (rest = [] ∨ rest.head? = some slash) := by
  cases ns with
  | nil => exact ⟨[], by simp [Bytes.joinWith], .inl rfl⟩
  | cons m ns => exact ⟨_, Bytes.joinWith_cons slash n (by simp), .inr rfl⟩

theorem isRelative_ofPath_dotDot (ns : List Bytes) :
    IsRelative (ofPath (Bytes.joinWith slash (dotDot :: ns))) := by
  obtain ⟨rest, hjoin, hends⟩ := exists_joinWith_cons dotDot ns
  have htext : ofPath (dotDot ++ rest) = 0x2E :: 0x2E :: slashed rest := ofPath_dot_cons 0x2E rest
  rw [hjoin, htext, isRelative_cons_cons]
  refine ⟨rfl, .inr ⟨rfl, ?_⟩⟩
  rcases hends with rfl | hslash
  · exact .inl rfl
  · obtain ⟨rest, rfl⟩ := List.head?_eq_some_iff.1 hslash
    exact .inr (by simp [slashed])

/-- The specifier of a route is relative unless the route only goes down and the first name on it is
hidden. -/
theorem isRelative_route_iff {bs ts : List Bytes} (hts : ∀ n ∈ ts, isEntryName n = true) :
    IsRelative (ofPath (spell false (route bs ts))) ↔
      ¬ ∃ name rest, ts = bs ++ name :: rest ∧ IsHidden name := by
  obtain ⟨common, up, down, hparting, hroute⟩ := exists_parting bs ts
  rw [hroute]
  cases up with
  | cons u up =>
    -- Were the first path the beginning of the second, they would part only behind it.
    have hnotBelow : ¬ ∃ name rest, ts = bs ++ name :: rest ∧ IsHidden name := by
      rintro ⟨name, rest, hbelow, -⟩
      have hlonger := (hparting.longest bs List.prefix_rfl
        (hbelow ▸ List.prefix_append bs _)).length_le
      rw [hparting.left, List.length_append, List.length_cons] at hlonger
      omega
    have hrelative := isRelative_ofPath_dotDot (List.replicate up.length dotDot ++ down)
    exact iff_of_true (by simpa [spell, List.replicate_succ] using hrelative) hnotBelow
  | nil =>
    obtain rfl : bs = common := by simpa using hparting.left
    rw [hparting.right]
    cases down with
    | nil =>
      refine iff_of_true (by decide) ?_
      rintro ⟨name, rest, hbelow, -⟩
      simp at hbelow
    | cons name down =>
      have hname : isEntryName name = true := hts name (by simp [hparting.right])
      obtain ⟨rest, hjoin, -⟩ := exists_joinWith_cons name down
      have htext : spell false (name :: down) = name ++ rest := by simpa [spell] using hjoin
      rw [List.length_nil, List.replicate_zero, List.nil_append, htext,
        isRelative_ofPath_iff hname]
      constructor
      · rintro hshown ⟨name', rest', hsame, hhidden⟩
        obtain ⟨rfl, -⟩ := List.cons.inj (List.append_cancel_left hsame)
        exact hshown hhidden
      · exact fun hno hhidden => hno ⟨name, down, rfl, hhidden⟩

/-- A specifier holds no backslash. It is relative unless the module's path goes on from the
directory's with a hidden name, and in that case it is not. -/
theorem between_isRelative_iff {here : Except ε Bytes} {dir module specifier : Bytes}
    (hhere : ∀ wd, here = .ok wd → isRooted wd = true)
    (h : between here dir module = .ok specifier) :
    0x5C ∉ specifier ∧
      ∃ base target, absolute here dir = .ok base ∧ absolute here module = .ok target ∧
        (IsRelative specifier ↔
          ¬ ∃ name rest, names target = names base ++ name :: rest ∧ IsHidden name) := by
  obtain ⟨base, target, hbase, htarget, rfl⟩ := exists_absolute_of_between h
  obtain ⟨p, hp, rfl⟩ := exists_clean_of_absolute hhere hbase
  obtain ⟨q, hq, rfl⟩ := exists_clean_of_absolute hhere htarget
  refine ⟨backslash_notMem_ofPath _, clean p, clean q, hbase, htarget, ?_⟩
  rw [relative_clean hp hq]
  exact isRelative_route_iff fun n => isEntryName_of_mem_clean hq

/-- Both paths lead through a hidden directory, and the name of the module begins with a dot that a
backslash follows. -/
theorem between_isRelative_backslash :
    let here : Except Fault Bytes := .ok (bytes "/w/.git")
    between here (bytes "./.x") (bytes ".x/.\\.y") = .ok (bytes "./.y") ∧
      0x5C ∉ bytes "./.y" ∧ IsRelative (bytes "./.y") := by
  intro here
  have hway : between here (bytes "./.x") (bytes ".x/.\\.y") = .ok (bytes "./.y") := by cbv
  have hdir : absolute here (bytes "./.x") = .ok (bytes "/w/.git/.x") := by cbv
  have hmodule : absolute here (bytes ".x/.\\.y") = .ok (bytes "/w/.git/.x/.\\.y") := by cbv
  have hhere : ∀ wd, here = .ok wd → isRooted wd = true := by
    rintro wd hwd
    obtain rfl := Except.ok.inj hwd
    decide
  obtain ⟨hplain, base, target, hbase, htarget, hrelative⟩ := between_isRelative_iff hhere hway
  obtain rfl := Except.ok.inj (hdir.symm.trans hbase)
  obtain rfl := Except.ok.inj (hmodule.symm.trans htarget)
  refine ⟨hway, hplain, hrelative.2 ?_⟩
  rintro ⟨name, rest, hnames, hhidden⟩
  have hbelow : names (bytes "/w/.git/.x/.\\.y") =
      names (bytes "/w/.git/.x") ++ [bytes ".\\.y"] := by decide
  obtain ⟨rfl, -⟩ := List.cons.inj (List.append_cancel_left (hbelow.symm.trans hnames))
  exact absurd hhidden (by decide)

/-- A hidden directory below the importing file's own: its dot is taken for the dot in front, and
what comes out reads as the name of a package. -/
theorem between_hiddenModule :
    between (.ok (bytes "/") : Except Fault Bytes) dot (bytes ".hidden/mod") =
        .ok (bytes ".hidden/mod") ∧
      ¬ IsRelative (bytes ".hidden/mod") :=
  ⟨by cbv, by decide⟩

end Specifier

end HelperImports
