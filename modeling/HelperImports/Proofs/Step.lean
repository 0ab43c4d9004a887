import HelperImports.Run.Job
import HelperImports.Proofs.Ensure
import HelperImports.Proofs.Files
import HelperImports.Proofs.PathBytes

/-! One file of a run. The edit of a file depends on the outline of the tree, on the working
directory and on what the file holds; what is done with it, in each mode, is said here once. No mode
changes a path, a directory or a link, even where a write fails. -/

namespace HelperImports

/-- The world with its log forgotten. -/
def World.quiet (w : World) : World := { w with log := [] }

@[simp] theorem World.quiet_note (w : World) (job : Job) (r : Log.Record) :
    (w.note job r).quiet = w.quiet := by
  unfold World.note
  split <;> rfl

@[simp] theorem World.quiet_files (w : World) : w.quiet.files = w.files := rfl

@[simp] theorem World.quiet_out (w : World) : w.quiet.out = w.out := rfl

theorem World.quiet_inj {w w' : World} :
    w.quiet = w'.quiet ↔ w.files = w'.files ∧ w.out = w'.out := by
  cases w
  cases w'
  simp [World.quiet]

namespace Job

/-! ### The edit of a file -/

theorem edit_of_readFile_error {fs : FileSystem} {path : Bytes} {f : Fault} (job : Job)
    (h : fs.readFile path = .error f) : job.edit fs path = .error (.reading path f) := by
  simp only [edit, FileSystem.readLines, h]
  rfl

theorem edit_of_content? {fs : FileSystem} {path c : Bytes} {names : List Bytes} (job : Job)
    (hnames : fs.fileNames? path = some names) (hc : fs.content? names = some c) :
    job.edit fs path =
      if Import.mentions job.settings.helper (lines c) then
        match job.ensure fs (Path.parent path) (lines c) with
        | .error f => .error (.resolving path f)
        | .ok e => .ok (some ⟨lines c, e.lines, e.inserted⟩)
      else .ok none := by
  have hread : fs.readFile path = .ok c := FileSystem.readFile_eq_ok_iff.2 ⟨names, hnames, hc⟩
  simp only [edit, FileSystem.readLines, hread]
  rfl

/-- A file that is edited can be read. -/
theorem exists_content?_of_edit {job : Job} {fs : FileSystem} {path : Bytes} {o : Option Edit}
    (h : job.edit fs path = .ok o) :
    ∃ names c, fs.fileNames? path = some names ∧ fs.content? names = some c := by
  cases hread : fs.readFile path with
  | error f => simp [edit_of_readFile_error job hread] at h
  | ok c =>
    obtain ⟨names, hnames, hc⟩ := FileSystem.readFile_eq_ok_iff.1 hread
    exact ⟨names, c, hnames, hc⟩

/-- Where there is an edit, the helper is mentioned and its import was ensured. -/
theorem exists_ensure_of_edit {job : Job} {fs : FileSystem} {path : Bytes} {e : Edit}
    (h : job.edit fs path = .ok (some e)) :
    ∃ names c ens, fs.fileNames? path = some names ∧ fs.content? names = some c ∧
      Import.mentions job.settings.helper (lines c) = true ∧
      job.ensure fs (Path.parent path) (lines c) = .ok ens ∧
      e = ⟨lines c, ens.lines, ens.inserted⟩ := by
  obtain ⟨names, c, hnames, hc⟩ := exists_content?_of_edit h
  rw [edit_of_content? job hnames hc] at h
  split at h
  · rename_i hment
    cases hens : job.ensure fs (Path.parent path) (lines c) with
    | error f => simp [hens] at h
    | ok ens =>
      refine ⟨names, c, ens, hnames, hc, hment, hens, ?_⟩
      simpa [hens] using h.symm
  · cases h

/-- Editing fails because a file cannot be read or its module not be resolved. -/
theorem edit_error_cases {job : Job} {fs : FileSystem} {path : Bytes} {f : Failure}
    (h : job.edit fs path = .error f) :
    (∃ fault, fs.readFile path = .error fault ∧ f = .reading path fault) ∨
      ∃ c fault, fs.readFile path = .ok c ∧
        Import.mentions job.settings.helper (lines c) = true ∧
        job.ensure fs (Path.parent path) (lines c) = .error fault ∧ f = .resolving path fault := by
  cases hread : fs.readFile path with
  | error fault =>
    rw [edit_of_readFile_error job hread] at h
    cases h
    exact .inl ⟨fault, rfl, rfl⟩
  | ok c =>
    obtain ⟨names, hnames, hc⟩ := FileSystem.readFile_eq_ok_iff.1 hread
    rw [edit_of_content? job hnames hc] at h
    split at h
    · rename_i hment
      cases hens : job.ensure fs (Path.parent path) (lines c) with
      | error fault =>
        simp only [hens] at h
        cases h
        exact .inr ⟨c, fault, rfl, hment, hens, rfl⟩
      | ok ens => simp [hens] at h
    · cases h

/-- The edit of a file is the same in file systems that are alike and hold the same in it. -/
theorem edit_eq_of_alike {fs fs' : FileSystem} (job : Job) (h : FileSystem.Alike fs fs')
    {path : Bytes}
    (hc : ∀ names, fs.fileNames? path = some names → fs'.content? names = fs.content? names) :
    job.edit fs' path = job.edit fs path := by
  simp only [edit, ensure, FileSystem.readLines, h.readFile_eq hc, h.workingDirectory_eq]

theorem newline_notMem_of_mentions {helper : Bytes} {ls : List Bytes}
    (h : Import.mentions helper ls = true) (hls : ∀ l ∈ ls, newline ∉ l) : newline ∉ helper := by
  obtain ⟨l, hl, hin⟩ := List.any_eq_true.1 h
  intro hmem
  exact hls l hl ((Bytes.occursIn_iff.1 hin).subset hmem)

/-- Where neither the working directory nor the bindings module has a newline in it, the lines of
an edited text are those that were put together: the helper stands in a line, and the bytes of the
importing file's path do not get into the specifier. -/
theorem lines_newText {job : Job} {fs : FileSystem} {path : Bytes} {e : Edit}
    (hhere : ∀ dir, fs.workingDirectory = .ok dir → newline ∉ dir)
    (hbindings : newline ∉ job.settings.bindings) (h : job.edit fs path = .ok (some e)) :
    lines e.newText = e.after := by
  obtain ⟨names, c, ens, -, -, hment, hens, rfl⟩ := exists_ensure_of_edit h
  have hls : ∀ l ∈ lines c, newline ∉ l := fun l hl => newline_notMem_of_mem_lines hl
  have hspecifier : ∀ s, Specifier.between fs.workingDirectory (Path.parent path)
      job.settings.bindings = .ok s → newline ∉ s := by
    intro s hs hmem
    have hbytes := Specifier.forall_mem_between (P := (· ≠ newline)) (by decide) (by decide)
      (fun dir hdir b hb heq => hhere dir hdir (heq ▸ hb))
      (fun b hb heq => hbindings (heq ▸ hb)) hs
    exact hbytes newline hmem rfl
  refine lines_unlines (Import.ensure_lines_ne_nil hens (lines_ne_nil c)) ?_
  exact Import.newline_notMem_of_mem_ensure hens hls (newline_notMem_of_mentions hment hls)
    hspecifier

/-! ### What is done with an edit -/

/-- The result of a file before anything is done with its edit. -/
def plainResult (path : Bytes) : Option Edit → Result
  | none => { path }
  | some e => e.result path

/-- What a preview writes for a file. -/
def shown (job : Job) (path : Bytes) : Option Edit → List Write
  | none => []
  | some e => Rendering.writes job.palette path e.oldText e.newText

section

variable {job : Job} {path : Bytes} {w : World}

theorem processFile_of_error {f : Failure} (h : job.edit w.files path = .error f) :
    ∃ r, job.processFile path w = (w, r, some f) := by
  unfold processFile
  rcases edit_error_cases h with ⟨fault, -, rfl⟩ | ⟨c, fault, -, -, -, rfl⟩
  · exact ⟨_, by rw [h]⟩
  · exact ⟨_, by rw [h]⟩

theorem processFile_of_none (h : job.edit w.files path = .ok none) :
    job.processFile path w = (w.note job (skipped path), { path }, none) := by
  unfold processFile
  rw [h]

theorem processFile_of_some {e : Edit} (h : job.edit w.files path = .ok (some e)) :
    job.processFile path w = job.apply path e w := by
  unfold processFile
  rw [h]

/-- A check changes nothing. -/
theorem processFile_check {o : Option Edit} (hm : job.mode = .check)
    (h : job.edit w.files path = .ok o) :
    (job.processFile path w).1.quiet = w.quiet ∧
      (job.processFile path w).2 = (plainResult path o, none) := by
  cases o with
  | none =>
    rw [processFile_of_none h]
    exact ⟨World.quiet_note .., rfl⟩
  | some e =>
    rw [processFile_of_some h, apply, hm]
    refine ⟨?_, rfl⟩
    dsimp only
    split <;> simp only [World.quiet_note]

/-- A preview changes the output only. -/
theorem processFile_preview {o : Option Edit} (hm : job.mode = .preview)
    (h : job.edit w.files path = .ok o) :
    (job.processFile path w).1.quiet =
        { w.quiet with out := (w.out.writeAll (job.shown path o)).1 } ∧
      (job.processFile path w).2 =
        (plainResult path o, if (w.out.writeAll (job.shown path o)).2 then none
          else some .rendering) := by
  cases o with
  | none =>
    rw [processFile_of_none h]
    exact ⟨World.quiet_note .., rfl⟩
  | some e =>
    rw [processFile_of_some h, apply, hm]
    by_cases hok : (w.out.writeAll (job.shown path (some e))).2 = true
    · rw [if_pos hok]
      simp only [shown] at hok ⊢
      simp only [hok, if_true]
      exact ⟨World.quiet_note .., rfl⟩
    · rw [if_neg hok]
      simp only [shown] at hok ⊢
      simp only [hok]
      exact ⟨rfl, rfl⟩

theorem files_processFile_preview {o : Option Edit} (hm : job.mode = .preview)
    (h : job.edit w.files path = .ok o) : (job.processFile path w).1.files = w.files := by
  rw [← World.quiet_files (job.processFile path w).1, (processFile_preview hm h).1]
  rfl

theorem out_processFile_preview {o : Option Edit} (hm : job.mode = .preview)
    (h : job.edit w.files path = .ok o) :
    (job.processFile path w).1.out = (w.out.writeAll (job.shown path o)).1 := by
  rw [← World.quiet_out (job.processFile path w).1, (processFile_preview hm h).1]

/-- A file without an edit is not written. -/
theorem processFile_write_none (h : job.edit w.files path = .ok none) :
    (job.processFile path w).1.quiet = w.quiet ∧
      (job.processFile path w).2 = ({ path }, none) := by
  rw [processFile_of_none h]
  exact ⟨World.quiet_note .., rfl⟩

/-- A write puts the edited text at the names of the file. -/
theorem processFile_write_some {e : Edit} {names : List Bytes} (hm : job.mode = .write)
    (h : job.edit w.files path = .ok (some e)) (hnames : w.files.fileNames? path = some names) :
    (job.processFile path w).1.quiet =
        { w.quiet with
          files := w.files.put names (.file (w.files.stored e.newText)) (.file _) } ∧
      (job.processFile path w).2 =
        if (w.files.stored e.newText).length = e.newText.length then
          ({ e.result path with written := true }, none)
        else (e.result path, some (.writing path (.access .writing path .fileTooLarge))) := by
  rw [processFile_of_some h, apply, hm]
  simp only [FileSystem.writeLines]
  rw [show unlines e.after = e.newText from rfl, FileSystem.writeFile_eq hnames]
  by_cases hfit : (w.files.stored e.newText).length = e.newText.length
  · simp only [hfit, if_true]
    exact ⟨World.quiet_note .., trivial⟩
  · simp only [hfit, if_false]
    exact ⟨rfl, trivial⟩

theorem failure_processFile_write {o : Option Edit} (hm : job.mode = .write)
    (h : job.edit w.files path = .ok o) :
    (job.processFile path w).2.2 = none ∨
      ∃ fault, (job.processFile path w).2.2 = some (.writing path fault) := by
  cases o with
  | none => exact .inl (by rw [(processFile_write_none h).2])
  | some e =>
    obtain ⟨names, c, -, hnames, -⟩ := exists_ensure_of_edit h
    rw [(processFile_write_some hm h hnames).2]
    split
    · exact .inl rfl
    · exact .inr ⟨_, rfl⟩

/-- Dealing with a file leaves the files as they are, or puts the edited text, or what can be
stored of it, at the names of the file. -/
theorem processFile_files_cases (job : Job) (path : Bytes) (w : World) :
    (job.processFile path w).1.files = w.files ∨
      ∃ e names c, job.mode = .write ∧ job.edit w.files path = .ok (some e) ∧
        w.files.fileNames? path = some names ∧ w.files.content? names = some c ∧
        (job.processFile path w).1.files =
          w.files.put names (.file (w.files.stored e.newText)) (.file _) := by
  cases h : job.edit w.files path with
  | error f =>
    obtain ⟨r, hr⟩ := processFile_of_error h
    rw [hr]
    exact .inl rfl
  | ok o =>
    cases hm : job.mode with
    | check => exact .inl (World.quiet_inj.1 (processFile_check hm h).1).1
    | preview => exact .inl (files_processFile_preview hm h)
    | write =>
      cases o with
      | none => exact .inl (World.quiet_inj.1 (processFile_write_none h).1).1
      | some e =>
        obtain ⟨names, c, -, hnames, hc, -⟩ := exists_ensure_of_edit h
        refine .inr ⟨e, names, c, rfl, rfl, hnames, hc, ?_⟩
        rw [← World.quiet_files (job.processFile path w).1, (processFile_write_some hm h hnames).1]

/-- Dealing with a file changes no path, no directory and no link. -/
theorem alike_processFile (job : Job) (path : Bytes) (w : World) :
    FileSystem.Alike w.files (job.processFile path w).1.files := by
  rcases processFile_files_cases job path w with hsame | ⟨e, names, c, -, -, -, hc, hput⟩
  · rw [hsame]
    exact FileSystem.Alike.refl w.files
  · rw [hput]
    exact FileSystem.alike_put hc _

/-- After a write that succeeds the file holds the edited text, and all others what they held. -/
theorem content?_processFile_write {e : Edit} {names : List Bytes} (hm : job.mode = .write)
    (h : job.edit w.files path = .ok (some e)) (hnames : w.files.fileNames? path = some names)
    (hok : (job.processFile path w).2.2 = none) (names' : List Bytes) :
    (job.processFile path w).1.files.content? names' =
      if names' = names then some e.newText else w.files.content? names' := by
  obtain ⟨hworld, hanswer⟩ := processFile_write_some hm h hnames
  have hfit : (w.files.stored e.newText).length = e.newText.length := by
    by_contra hlong
    rw [hanswer, if_neg hlong] at hok
    cases hok
  obtain ⟨_, c, _, hnames', hc, _⟩ := exists_ensure_of_edit h
  obtain rfl := Option.some.inj (hnames.symm.trans hnames')
  rw [← World.quiet_files, hworld]
  show (w.files.put names (.file (w.files.stored e.newText)) (.file _)).content? names' = _
  rw [FileSystem.content?_put hc, FileSystem.stored_eq_of_length hfit]

/-- After a write that succeeds, the paths that lead to the file read as the edited lines, and all
others as they did. -/
theorem readLines_processFile_write {e : Edit} {names : List Bytes} (hm : job.mode = .write)
    (h : job.edit w.files path = .ok (some e)) (hnames : w.files.fileNames? path = some names)
    (hok : (job.processFile path w).2.2 = none) (p : Bytes) :
    (job.processFile path w).1.files.readLines p =
      if w.files.fileNames? p = some names then .ok (lines e.newText)
      else w.files.readLines p := by
  have halike := alike_processFile job path w
  have hcontent := content?_processFile_write hm h hnames hok
  unfold FileSystem.readLines
  split
  · rename_i hp
    have hread : (job.processFile path w).1.files.readFile p = .ok e.newText := by
      refine FileSystem.readFile_eq_ok_iff.2 ⟨names, (halike.fileNames?_eq p).trans hp, ?_⟩
      rw [hcontent, if_pos rfl]
    rw [hread]
    rfl
  · rename_i hp
    have hsame : (job.processFile path w).1.files.readFile p = w.files.readFile p := by
      refine halike.readFile_eq fun names' hnames' => ?_
      have hne : names' ≠ names := fun heq => hp (heq ▸ hnames')
      rw [hcontent, if_neg hne]
    rw [hsame]

end

/-- What is done with a file does not depend on the log. -/
theorem processFile_quiet (job : Job) (path : Bytes) {w w' : World} (h : w.quiet = w'.quiet) :
    (job.processFile path w).1.quiet = (job.processFile path w').1.quiet ∧
      (job.processFile path w).2 = (job.processFile path w').2 := by
  obtain ⟨hfiles, hout⟩ := World.quiet_inj.1 h
  cases he : job.edit w.files path with
  | error f =>
    simp only [processFile, ← hfiles, he]
    split <;> simp_all
  | ok o =>
    have he' := hfiles ▸ he
    cases hm : job.mode with
    | check =>
      obtain ⟨h₁, h₂⟩ := processFile_check hm he
      obtain ⟨h₁', h₂'⟩ := processFile_check hm he'
      exact ⟨by rw [h₁, h₁', h], by rw [h₂, h₂']⟩
    | preview =>
      obtain ⟨h₁, h₂⟩ := processFile_preview hm he
      obtain ⟨h₁', h₂'⟩ := processFile_preview hm he'
      exact ⟨by rw [h₁, h₁', h, hout], by rw [h₂, h₂', hout]⟩
    | write =>
      cases o with
      | none =>
        obtain ⟨h₁, h₂⟩ := processFile_write_none he
        obtain ⟨h₁', h₂'⟩ := processFile_write_none he'
        exact ⟨by rw [h₁, h₁', h], by rw [h₂, h₂']⟩
      | some e =>
        obtain ⟨names, c, -, hnames, -⟩ := exists_ensure_of_edit he
        obtain ⟨h₁, h₂⟩ := processFile_write_some hm he hnames
        obtain ⟨h₁', h₂'⟩ := processFile_write_some hm he' (hfiles ▸ hnames)
        exact ⟨by simp only [h₁, h₁', h, hfiles], by rw [h₂, h₂', hfiles]⟩

end Job

end HelperImports
