import Mathlib
import HelperImports.Proofs.Commuting
import HelperImports.Proofs.Sources

/-! Arguments that are directories. The files that such an argument stands for are those below the
directory that it leads to, if the argument is no link and leads to the same place once it is
cleaned. A link to a directory is not searched: it stands for no file below the directory, and a run
over it ends well. -/

namespace HelperImports

/-- The path of a place from the root, with no links in it. -/
def Place.path (p : Place) : Bytes := Path.spell true p.names

namespace FileSystem

/-- Where `f` leads, `q` leads too. If a link stands at `f` there may be too many links to follow
along `q`, which is not so along `f`. -/
def LeadsAlike (fs : FileSystem) (q f : Bytes) : Prop :=
  ∀ r, fs.locate .destination f = .ok r →
    fs.locate .destination q = .ok r ∨
      fs.locate .destination q = .error .tooManyLinks ∧
        ∃ target, fs.tree.get? (Path.names f) = some (.link target)

section

variable {fs : FileSystem} {p : Place} {es : List (Bytes × Node)} (hstands : p.removed = 0)
  (hdir : fs.node? p = some (.dir es))
include hstands hdir

theorem steps_path : Path.steps p.path = p.names ∧ ∀ s ∈ p.names, Path.IsStep s := by
  have hnames := (wellFormed_of_node? hstands hdir).2
  have hstep : ∀ s ∈ p.names, Path.IsStep s := fun s hs => (Path.isEntryName_iff.1 (hnames s hs)).1
  have hup : Path.dotDot ∉ p.names := fun hmem => (Path.isEntryName_iff.1 (hnames _ hmem)).2 rfl
  rw [Place.path, Path.steps_spell true hstep, Path.resolved_of_notMem hup]
  exact ⟨rfl, hstep⟩

theorem under_path {rel : List Bytes} (hrel : ∀ s ∈ rel, isEntryName s = true) :
    Path.under p.path rel = Path.spell true (p.names ++ rel) ∧
      ∀ s ∈ p.names ++ rel, Path.IsStep s := by
  obtain ⟨hsteps, hstep⟩ := steps_path hstands hdir
  have hpath : p.path ≠ [] := Path.spell_ne_nil true hstep
  have hall := Path.isStep_of_mem_under p.path hrel
  rw [Path.under_eq_spell hpath hrel]
  rw [hsteps] at hall ⊢
  rw [Place.path, Path.isRooted_spell true hstep]
  exact ⟨rfl, hall⟩

/-- A path below that of a directory leads on from there, with no link taken before. -/
theorem exists_way_under_path {rel : List Bytes} {r : Place}
    (hrel : ∀ s ∈ rel, isEntryName s = true)
    (h : fs.locate .destination (Path.under p.path rel) = .ok r) :
    ∃ m, Way fs maxLinks rel p m r := by
  obtain ⟨hpath, hsteps⟩ := under_path hstands hdir hrel
  rw [hpath] at h
  obtain ⟨-, -, -, hfollow⟩ := locate_eq_ok_iff.1 h
  rw [pathSteps_spell true hsteps (.inl rfl), startOf, Path.isRooted_spell true hsteps,
    if_pos rfl] at hfollow
  obtain ⟨m, hway⟩ := exists_way hfollow (by simp) (.inl rfl)
  obtain ⟨k, q, hfront, hback⟩ := hway.split
  have hroot : fs.node? ⟨[], 0⟩ = some fs.tree := rfl
  have hget : fs.tree.get? p.names = some (.dir es) := by rw [← node?_of_stands hstands, hdir]
  have hnames := (wellFormed_of_node? hstands hdir).2
  obtain ⟨rfl, hq⟩ := hfront.eq_of_get? rfl hroot hnames hget (by simp)
  have hqp : q = p := by
    rw [hq, ← hstands]
    rfl
  exact ⟨m, hqp ▸ hback⟩

/-- What stands below a directory is reached below a path that leads there as it is reached below
the directory's own path. -/
theorem leadsAlike_under {arg : Bytes} {rel : List Bytes} {x : Node} (harg : arg ≠ [])
    (hzero : 0 ∉ arg) (hlead : fs.locate .destination (Path.clean arg) = .ok p) (hne : rel ≠ [])
    (hget : (Node.dir es).get? rel = some x)
    (hshort : (Path.under arg rel).length < maxPathLength) :
    fs.LeadsAlike (Path.under arg rel) (Path.under p.path rel) := by
  intro r hr
  have hrel := ((wellFormed_of_node? hstands hdir).1.get? hget).2
  obtain ⟨hpath, hsteps⟩ := under_path hstands hdir hrel
  have hnames : Path.names (Path.under p.path rel) = p.names ++ rel := by
    rw [hpath, Path.names_spell true hsteps]
  have hplain : 0 ∉ Path.under arg rel := by
    -- The names below the directory are in its own path too, which is a path that can be followed.
    have hf : ∀ b ∈ Path.under p.path rel, b ≠ 0 :=
      fun b hb heq => (locate_eq_ok_iff.1 hr).1 (heq ▸ hb)
    have hnonzero := Path.forall_mem_names hf
    rw [hnames] at hnonzero
    have hjoined : ∀ b ∈ Bytes.joinWith Path.slash rel, b ≠ 0 :=
      forall_mem_joinWith (by decide) fun s hs => hnonzero s (List.mem_append_right _ hs)
    intro hmem
    refine Path.forall_mem_join (P := (· ≠ 0)) (by decide) (by decide) ?_ 0 hmem rfl
    intro part hpart b hb heq
    simp only [List.mem_cons, List.not_mem_nil, or_false] at hpart
    rcases hpart with rfl | rfl
    · exact hzero (heq ▸ hb)
    · exact hjoined b hb heq
  obtain ⟨left, hunder⟩ := exists_locate_under harg hlead
  obtain ⟨m, hway⟩ := exists_way_under_path hstands hdir hrel hr
  rw [hunder .destination (by simp) rel hne hrel hplain hshort]
  by_cases hlink : ∃ target, x = .link target
  · obtain ⟨target, rfl⟩ := hlink
    have hstanding : fs.tree.get? (Path.names (Path.under p.path rel)) = some (.link target) := by
      rw [hnames, Node.get?_append, ← node?_of_stands hstands, hdir]
      exact hget
    rcases hway.follow_cases left with hsame | hmany
    · exact .inl hsame
    · exact .inr ⟨hmany, target, hstanding⟩
  · -- Nothing on the way down is a link, so it does not matter how many were taken before.
    have hfree := (hway.eq_of_get? hstands hdir hrel hget (by simpa using hlink)).1
    exact .inl (hway.of_free hfree left).follow_eq

theorem eq_of_locate_path {purpose : Purpose} {r : Place} (hpurpose : purpose ≠ .creation)
    (h : fs.locate purpose p.path = .ok r) : r = p := by
  obtain ⟨-, hstep⟩ := steps_path hstands hdir
  obtain ⟨-, -, -, hfollow⟩ := locate_eq_ok_iff.1 h
  rw [Place.path, pathSteps_spell true hstep (.inl rfl), startOf, Path.isRooted_spell true hstep,
    if_pos rfl] at hfollow
  have hroot : fs.node? ⟨[], 0⟩ = some fs.tree := rfl
  have hget : fs.tree.get? p.names = some (.dir es) := by rw [← node?_of_stands hstands, hdir]
  rw [follow_down hpurpose rfl hroot (wellFormed_of_node? hstands hdir).2 hget (.inr (by simp))
    hfollow, ← hstands]
  rfl

/-- A search at the path of a directory goes along what is below the directory, unless the path
itself cannot be looked at. -/
theorem findSources_path :
    (∃ fault, fs.findSources p.path = { fault := some fault }) ∨
      fs.Finds p.path (Node.visitsAll es) (fs.findSources p.path) := by
  cases hlocate : fs.locate .itself p.path with
  | error c => exact .inl ⟨_, by rw [findSources, hlocate]⟩
  | ok r =>
    obtain rfl := eq_of_locate_path hstands hdir (by simp) hlocate
    obtain ⟨hsteps, hstep⟩ := steps_path hstands hdir
    have hclean : fs.CleansTo r.path r :=
      .inl (hsteps.trans (Path.names_spell true hstep).symm)
    exact .inr (finds_findSources hlocate hdir hclean hstands)

end

/-- The sources that are found below a path are reached as they are below the path of the directory
that it leads to. -/
theorem leadsAlike_sources {fs : FileSystem} {arg : Bytes} {p : Place} {es : List (Bytes × Node)}
    (hroot : fs.locate .itself arg = .ok p) (hdir : fs.node? p = some (.dir es))
    (hclean : fs.CleansTo arg p) (hstands : p.removed = 0)
    (hfault : (fs.findSources arg).fault = none) :
    (fs.findSources arg).found = (Node.sources (Node.visitsAll es)).map (Path.under arg) ∧
      ∀ rel ∈ Node.sources (Node.visitsAll es),
        fs.LeadsAlike (Path.under arg rel) (Path.under p.path rel) := by
  have hfinds := finds_findSources hroot hdir hclean hstands
  have hfound := hfinds.all hfault
  refine ⟨hfound, fun rel hrel => ?_⟩
  have hlead := locate_clean hroot (by simp [isDirAt, hdir, Node.isDir]) hclean
  have hwf := (wellFormed_of_node? hstands hdir).1
  obtain ⟨hzero, hne, -, -⟩ := locate_eq_ok_iff.1 hroot
  obtain ⟨⟨x, hget, -⟩, ⟨name, hname, -⟩, -⟩ := (Node.mem_sources_visitsAll hwf).1 hrel
  have hbelow : rel ≠ [] := by
    rintro rfl
    cases hname
  have hshort : (Path.under arg rel).length < maxPathLength := by
    apply hfinds.short
    rw [hfound]
    exact List.mem_map_of_mem hrel
  exact leadsAlike_under hstands hdir hne hzero hlead hbelow hget hshort

theorem exists_leadsAlike_of_found {fs : FileSystem} {arg f : Bytes} {p : Place}
    {es : List (Bytes × Node)} (hroot : fs.locate .itself arg = .ok p)
    (hdir : fs.node? p = some (.dir es)) (hclean : fs.CleansTo arg p) (hstands : p.removed = 0)
    (hfault : (fs.findSources arg).fault = none) (hf : f ∈ (fs.findSources p.path).found) :
    ∃ q ∈ (fs.findSources arg).found, fs.LeadsAlike q f := by
  obtain ⟨hfound, halike⟩ := leadsAlike_sources hroot hdir hclean hstands hfault
  rcases findSources_path hstands hdir with ⟨fault, hnothing⟩ | hfinds
  · rw [hnothing] at hf
    cases hf
  · obtain ⟨rel, hrel, rfl⟩ := List.mem_map.1 (hfinds.among.subset hf)
    refine ⟨Path.under arg rel, ?_, halike rel hrel⟩
    rw [hfound]
    exact List.mem_map_of_mem hrel

theorem LeadsAlike.fileNames?_eq {fs : FileSystem} {q f : Bytes} {names names' : List Bytes}
    (h : fs.LeadsAlike q f) (hq : fs.fileNames? q = some names)
    (hf : fs.fileNames? f = some names') : fs.fileNames? q = fs.fileNames? f := by
  unfold fileNames? at hq hf ⊢
  cases hlocate : fs.locate .destination f with
  | error c => simp [hlocate] at hf
  | ok r =>
    rcases h r hlocate with hsame | ⟨hmany, -⟩
    · rw [hsame]
    · simp [hmany] at hq

/-- A link to a directory is not searched. -/
theorem found_of_link {fs : FileSystem} {path : Bytes} {p : Place}
    (hlead : fs.locate .destination path = .ok p) (hlink : fs.locate .itself path ≠ .ok p) :
    fs.findSources path = Search.single path := by
  obtain ⟨hzero, hne, hshort, hfollow⟩ := locate_eq_ok_iff.1 hlead
  obtain ⟨m, hway⟩ := exists_way hfollow (by simp) (.inl rfl)
  rcases hway.follow_itself with hsame | ⟨r, target, hr, hnode⟩
  · exact absurd (locate_eq_ok_iff.2 ⟨hzero, hne, hshort, hsame⟩) hlink
  · rw [findSources, locate_eq_ok_iff.2 ⟨hzero, hne, hshort, hr⟩]
    simp only [hnode]

end FileSystem

/-! ### Runs -/

/-- No file ended the run: it ends without a failure, or with the verdict of a check. -/
def Outcome.EndsWell (o : Outcome) : Prop := o.failure = none ∨ ∃ n, o.failure = some (.pending n)

namespace Job

theorem path_processFile {job : Job} {path : Bytes} {w : World}
    (h : (job.processFile path w).2.2 = none) :
    (job.processFile path w).2.1.path = path ∧ ∃ names, w.files.fileNames? path = some names := by
  cases hedit : job.edit w.files path with
  | error f =>
    obtain ⟨r, hr⟩ := processFile_of_error hedit
    rw [hr] at h
    cases h
  | ok o =>
    obtain ⟨names, -, hnames, -⟩ := exists_content?_of_edit hedit
    refine ⟨?_, names, hnames⟩
    cases o with
    | none => rw [processFile_of_none hedit]
    | some e =>
      rw [processFile_of_some hedit, apply]
      cases job.mode with
      | preview =>
        dsimp only
        split <;> rfl
      | check => rfl
      | write =>
        dsimp only
        split <;> rfl

/-- What a run that completes tells is about its paths, and each of them leads to a file. -/
theorem Completes.paths {job : Job} {w w' : World} {paths : List Bytes} {rs : List Result}
    (h : job.Completes w paths rs w') :
    rs.map (·.path) = paths ∧ ∀ path ∈ paths, ∃ names, w.files.fileNames? path = some names := by
  induction h with
  | done w => exact ⟨rfl, by simp⟩
  | @next w w₁ w₂ path paths r rs first rest ih =>
    obtain ⟨hpaths, hleads⟩ := ih
    have hsuccess : (job.processFile path w).2.2 = none := by rw [first]
    obtain ⟨hpath, hnames⟩ := path_processFile hsuccess
    have halike := alike_processFile job path w
    rw [first] at hpath halike
    refine ⟨by rw [List.map_cons, hpath, hpaths], List.forall_mem_cons.2 ⟨hnames, ?_⟩⟩
    intro q hq
    obtain ⟨names, hq⟩ := hleads q hq
    exact ⟨names, (halike.fileNames?_eq q).symm.trans hq⟩

theorem completes_of_endsWell {job : Job} {arg : Bytes} {w : World}
    (h : (job.processPaths [arg] w).EndsWell) :
    ∃ paths w', w.files.expansion arg = .ok paths ∧
      job.Completes w paths (job.processPaths [arg] w).results w' := by
  obtain ⟨-, hresults, hfailure⟩ := processPaths_eq job [arg] w
  cases hexpand : w.files.expansion arg with
  | error f =>
    have hreached : w.files.reached [arg] = ([], some f) := by simp [FileSystem.reached, hexpand]
    rw [hreached, verdict_of_failure job rfl] at hfailure
    obtain ⟨fault, rfl⟩ : ∃ fault, f = .searching arg fault := by
      unfold FileSystem.expansion at hexpand
      split at hexpand
      · split at hexpand
        · exact ⟨_, (Except.error.inj hexpand).symm⟩
        · cases hexpand
      · cases hexpand
    rcases h with hnone | ⟨n, hpending⟩
    · rw [hnone] at hfailure
      cases hfailure
    · rw [hpending] at hfailure
      cases hfailure
  | ok paths =>
    have hreached : w.files.reached [arg] = (paths, none) := by
      simp [FileSystem.reached, hexpand]
    rw [hreached] at hresults
    cases hf : (job.processEach paths w).failure with
    | none =>
      rw [hresults]
      exact ⟨paths, _, rfl, completes_processEach hf⟩
    | some f =>
      have hfails : (job.processPaths [arg] w).failure = some f :=
        failure_processPaths (by rw [hreached, hf])
      rcases h with hnone | ⟨n, hpending⟩
      · rw [hnone] at hfails
        cases hfails
      · rw [hpending] at hfails
        rw [← hfails] at hf
        exact absurd hf (failure_processEach_ne_pending job paths w n)

/-- The path of a directory that a run deals with is searched. -/
theorem expansion_path_of_completes {job : Job} {p : Place} {es : List (Bytes × Node)}
    {paths : List Bytes} {rs : List Result} {w w' : World} (hstands : p.removed = 0)
    (hdir : w.files.node? p = some (.dir es)) (hexpand : w.files.expansion p.path = .ok paths)
    (h : job.Completes w paths rs w') :
    (w.files.findSources p.path).fault = none ∧ paths = (w.files.findSources p.path).found := by
  unfold FileSystem.expansion at hexpand
  split at hexpand
  · split at hexpand
    · cases hexpand
    · rename_i hfault
      exact ⟨hfault, (Except.ok.inj hexpand).symm⟩
  · -- A path that is not searched is read, and a directory cannot be read.
    obtain rfl := Except.ok.inj hexpand
    obtain ⟨names, hnames⟩ := h.paths.2 p.path List.mem_cons_self
    unfold FileSystem.fileNames? at hnames
    cases hlocate : w.files.locate .destination p.path with
    | error c => simp [hlocate] at hnames
    | ok r =>
      rw [FileSystem.eq_of_locate_path hstands hdir (by simp) hlocate] at hlocate
      simp [hlocate, hdir] at hnames

theorem map_fileNames?_of_completes {job : Job} {paths : List Bytes} {rs : List Result}
    {w w' : World} (h : job.Completes w paths rs w') :
    rs.map (fun r => w.files.fileNames? r.path) = paths.map w.files.fileNames? := by
  rw [← h.paths.1, List.map_map]
  rfl

/-- Runs over a path that leads to a directory and over the directory's own path, if both end well,
deal with the same files in the same order. -/
theorem map_fileNames?_processPaths {job : Job} {arg : Bytes} {p : Place} {es : List (Bytes × Node)}
    {w : World} (hroot : w.files.locate .itself arg = .ok p)
    (hdir : w.files.node? p = some (.dir es)) (hclean : w.files.CleansTo arg p)
    (hstands : p.removed = 0)
    (hexpand : w.files.expansion arg = .ok (w.files.findSources arg).found)
    (hfault : (w.files.findSources arg).fault = none)
    (hwell : (job.processPaths [arg] w).EndsWell)
    (hwell' : (job.processPaths [p.path] w).EndsWell) :
    (job.processPaths [arg] w).results.map (fun r => w.files.fileNames? r.path) =
      (job.processPaths [p.path] w).results.map fun r => w.files.fileNames? r.path := by
  obtain ⟨paths, _, hpaths, hcompletes⟩ := completes_of_endsWell hwell
  obtain ⟨paths', _, hpaths', hcompletes'⟩ := completes_of_endsWell hwell'
  obtain ⟨hclear, rfl⟩ := expansion_path_of_completes hstands hdir hpaths' hcompletes'
  obtain rfl : (w.files.findSources arg).found = paths := Except.ok.inj (hexpand.symm.trans hpaths)
  rw [map_fileNames?_of_completes hcompletes, map_fileNames?_of_completes hcompletes']
  obtain ⟨hfound, halike⟩ := FileSystem.leadsAlike_sources hroot hdir hclean hstands hfault
  have hfound' : (w.files.findSources p.path).found =
      (Node.sources (Node.visitsAll es)).map (Path.under p.path) := by
    rcases FileSystem.findSources_path hstands hdir with ⟨fault, hnothing⟩ | hfinds
    · rw [hnothing] at hclear
      cases hclear
    · exact hfinds.all hclear
  have hleads := hcompletes.paths.2
  have hleads' := hcompletes'.paths.2
  rw [hfound] at hleads ⊢
  rw [hfound'] at hleads' ⊢
  rw [List.map_map, List.map_map]
  refine List.map_congr_left fun rel hrel => ?_
  obtain ⟨names, hnames⟩ := hleads _ (List.mem_map_of_mem hrel)
  obtain ⟨names', hnames'⟩ := hleads' _ (List.mem_map_of_mem hrel)
  exact (halike rel hrel).fileNames?_eq hnames hnames'

/-- The files that a directory argument stands for. If the argument is the directory itself, and
leads there once it is cleaned, then every source that is found below the directory is reached from
the argument, and runs over the two that end well deal with the same files in the same order. If it
is a link to the directory, it stands for nothing but itself. -/
theorem expand_directory (job : Job) {arg : Bytes} {p : Place} {paths : List Bytes} {w : World}
    (hdirectory : w.files.isDirectory arg = .ok true)
    (hlead : w.files.locate .destination arg = .ok p) (hok : (job.expand arg w).2 = .ok paths) :
    (w.files.locate .itself arg = .ok p → w.files.CleansTo arg p →
      (∀ f ∈ (w.files.findSources p.path).found, ∃ q ∈ paths, w.files.LeadsAlike q f) ∧
      ((job.processPaths [arg] w).EndsWell → (job.processPaths [p.path] w).EndsWell →
        (job.processPaths [arg] w).results.map (fun r => w.files.fileNames? r.path) =
          (job.processPaths [p.path] w).results.map fun r => w.files.fileNames? r.path)) ∧
    (w.files.locate .itself arg ≠ .ok p → ∀ q ∈ paths, q = arg) := by
  obtain ⟨p', es, hlead', hdir⟩ := FileSystem.exists_dir_of_isDirectory hdirectory
  obtain rfl := Except.ok.inj (hlead.symm.trans hlead')
  rw [(expand_eq job arg w).2] at hok
  have hsearched : (w.files.findSources arg).fault = none ∧
      (w.files.findSources arg).found = paths := by
    simp only [FileSystem.expansion, hdirectory] at hok
    split at hok
    · cases hok
    · rename_i hfault
      exact ⟨hfault, Except.ok.inj hok⟩
  obtain ⟨hfault, rfl⟩ := hsearched
  refine ⟨fun hitself hclean => ?_, fun hlink q hq => ?_⟩
  · have hstands : p.removed = 0 := by
      by_contra hremoved
      simp [FileSystem.findSources, hitself, hdir, hremoved] at hfault
    refine ⟨fun f hf => ?_, fun hwell hwell' => ?_⟩
    · exact FileSystem.exists_leadsAlike_of_found hitself hdir hclean hstands hfault hf
    · exact map_fileNames?_processPaths hitself hdir hclean hstands hok hfault hwell hwell'
  · rw [FileSystem.found_of_link hlead hlink, Search.single] at hq
    split at hq
    · exact List.mem_singleton.1 hq
    · cases hq

/-- A directory with a source and a link to it, and a link to the directory above. -/
def sharedSources : FileSystem :=
  ((({} : FileSystem).put
    [bytes "d", bytes "s", bytes "a.ts"] (.file (bytes "use(a);")) (.file _)).put
    [bytes "d", bytes "s", bytes "b.js"] (.link (bytes "./a.ts")) (.link _)).put
    [bytes "l"] (.link (bytes "d")) (.link _)

def checkUse : Job := { settings := ⟨bytes "use", bytes "lib"⟩, mode := .check }

/-- The directory is reached through a link, which does not hide what is in it. -/
theorem expand_directory_sharedSources :
    let w : World := { files := sharedSources }
    let arg := bytes "l/s"
    let p : Place := ⟨[bytes "d", bytes "s"], 0⟩
    let paths := [bytes "l/s/a.ts", bytes "l/s/b.js"]
    (w.files.isDirectory arg = .ok true ∧ w.files.locate .destination arg = .ok p ∧
      (checkUse.expand arg w).2 = .ok paths ∧ w.files.locate .itself arg = .ok p ∧
      w.files.CleansTo arg p) ∧
    (w.files.findSources p.path).found = [bytes "/d/s/a.ts", bytes "/d/s/b.js"] ∧
      (∀ f ∈ (w.files.findSources p.path).found, ∃ q ∈ paths, w.files.LeadsAlike q f) ∧
      (checkUse.processPaths [arg] w).results.map (fun r => w.files.fileNames? r.path) =
        (checkUse.processPaths [p.path] w).results.map fun r => w.files.fileNames? r.path := by
  have hdirectory : sharedSources.isDirectory (bytes "l/s") = .ok true := by cbv
  have hlead : sharedSources.locate .destination (bytes "l/s") =
      .ok ⟨[bytes "d", bytes "s"], 0⟩ := by cbv
  have hok : (checkUse.expand (bytes "l/s") { files := sharedSources }).2 =
      .ok [bytes "l/s/a.ts", bytes "l/s/b.js"] := by cbv
  have hitself : sharedSources.locate .itself (bytes "l/s") = .ok ⟨[bytes "d", bytes "s"], 0⟩ := by
    cbv
  have hclean : sharedSources.CleansTo (bytes "l/s") ⟨[bytes "d", bytes "s"], 0⟩ := .inl (by cbv)
  have hfound : (sharedSources.findSources (Place.path ⟨[bytes "d", bytes "s"], 0⟩)).found =
      [bytes "/d/s/a.ts", bytes "/d/s/b.js"] := by cbv
  have hwell : (checkUse.processPaths [bytes "l/s"] { files := sharedSources }).failure =
      some (.pending 2) := by cbv
  have hwell' : (checkUse.processPaths [Place.path ⟨[bytes "d", bytes "s"], 0⟩]
      { files := sharedSources }).failure = some (.pending 2) := by cbv
  intro w arg p paths
  obtain ⟨hreached, hsame⟩ := (expand_directory checkUse hdirectory hlead hok).1 hitself hclean
  exact ⟨⟨hdirectory, hlead, hok, hitself, hclean⟩, hfound, hreached,
    hsame (.inr ⟨2, hwell⟩) (.inr ⟨2, hwell'⟩)⟩

/-- A link to a directory with a source that has to be changed. -/
def linkedDirectory : FileSystem :=
  (({} : FileSystem).put [bytes "d", bytes "a.ts"] (.file (bytes "use(a);")) (.file _)).put
    [bytes "l"] (.link (bytes "d")) (.link _)

/-- The link is a directory to the run, but nothing in the directory is looked at: a check ends
without a failure where a check of the directory itself fails. -/
theorem expand_linkedDirectory :
    let w : World := { files := linkedDirectory }
    let arg := bytes "l"
    let p : Place := ⟨[bytes "d"], 0⟩
    w.files.isDirectory arg = .ok true ∧ w.files.locate .destination arg = .ok p ∧
      (w.files.findSources p.path).found = [bytes "/d/a.ts"] ∧
      (checkUse.expand arg w).2 = .ok [] ∧ (checkUse.processPaths [arg] w).failure = none ∧
      (checkUse.processPaths [p.path] w).failure = some (.pending 1) := by
  refine ⟨?_, ?_, ?_, ?_, ?_, ?_⟩ <;> cbv

end Job

end HelperImports
