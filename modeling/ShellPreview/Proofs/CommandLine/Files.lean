import ShellPreview.Proofs.CommandLine.Status
import ShellPreview.Proofs.FileTree.Directories
/-!
# What runs do to the files

A run leaves the files alone, or it creates a configuration, which may add
directories and writes one file. A file that is there keeps its bytes in
any sequence of runs, unless one of them is to create a configuration in
its place. It must be forced to do so, but for one kind of path: one that
does not exist because a directory on the way is missing, and that exists
once the directory has been made (`created_over_file`).
-/

namespace ShellPreview.CommandLine

variable {m : Machine} {arguments : List String} {i : Invocation} {force : Bool}
variable {place : List String} {bytes : ByteArray}

/-! ## Creating a configuration -/

/-- The path at which a configuration is to be created. -/
def Machine.creationPath (m : Machine) (i : Invocation) : String :=
  i.config.getD m.usualPath

/-- The path leads to the place, once the directory in which it lies has
been made. -/
def Machine.CreatesAt (m : Machine) (i : Invocation) (place : List String) : Prop :=
  ∃ found, (m.files.makeParent m.working (m.creationPath i)).1.find m.working (m.creationPath i) =
    .ok (place, found)

/-- A configuration has been created at a place, and nothing else has
changed but that directories were added. -/
structure Machine.Created (m : Machine) (i : Invocation) (force : Bool) (place : List String)
    (o : Outcome) : Prop where
  status : o.status = 0
  at_path : m.CreatesAt i place
  /-- It was forced, or nothing stood at the path. -/
  allowed : force = true ∨ m.files.contains m.working (m.creationPath i) = false
  written : o.files.get? place = some (.file Configuration.default.text.toUTF8)
  others : ∀ other, other ≠ place → o.files.get? other = m.files.get? other ∨
    (m.files.get? other = none ∧ o.files.get? other = some .directory)
  /-- It is loaded from the same path. -/
  loads : Configuration.loadFrom o.files m.working (m.creationPath i) = .ok .default
  rooted : o.files.Rooted

/-- Nothing is created where something stands, unless that is forced. -/
theorem createConfiguration_of_contains
    (h : m.files.contains m.working (m.creationPath i) = true) :
    m.createConfiguration i false =
      m.fail (m.creationPath i ++ " already exists (use --force to overwrite)") none := by
  unfold Machine.creationPath at h ⊢
  rw [Machine.createConfiguration, h]
  rfl

/-- Saving makes the directory and writes the file in it. -/
theorem write_of_saveTo {c : Configuration} {tree tree' : FileTree} {working : List String}
    {path : String} (h : c.saveTo tree working path = .ok tree') :
    (tree.makeParent working path).1.write working path c.text.toUTF8 = .ok tree' := by
  unfold Configuration.saveTo at h
  split at h
  · cases h
  · next hparent =>
    split at h
    · cases h
    · next hwrite =>
      cases h
      rw [FileTree.makeParent_of_createParent hparent]
      exact hwrite

/-- A configuration that was saved has been created. -/
theorem created_of_saveTo {o : Outcome} (hrooted : m.files.Rooted)
    (hworking : m.files.get? m.working = some .directory)
    (hallowed : force = true ∨ m.files.contains m.working (m.creationPath i) = false)
    (hsave : Configuration.default.saveTo m.files m.working (m.creationPath i) = .ok o.files)
    (hstatus : o.status = 0) : ∃ place, m.Created i force place o := by
  obtain ⟨hgrows, hmade⟩ := FileTree.grows_makeParent hrooted hworking (m.creationPath i)
  have horigin := FileTree.get?_origin (hgrows.get? hworking) (m.creationPath i)
  obtain ⟨place, hlocate, hplace, hends, hfiles⟩ := FileTree.put_of_write (write_of_saveTo hsave)
  refine ⟨place, hstatus, ⟨_, FileTree.find_of_locate hlocate hends⟩, hallowed, ?_,
    fun other hother => ?_, Configuration.loadFrom_of_saveTo Configuration.fits_default hsave, ?_⟩
  · rw [hfiles, FileTree.get?_put_self _ _ (FileTree.ne_nil_of_get? hplace)]
  · rw [hfiles, FileTree.get?_put_ne _ _ hother]
    exact hgrows other
  · rw [hfiles]
    exact hmade.put (hmade.parent_of_locate horigin hlocate hplace) hplace _

/-- What a run that creates a configuration does to the files. -/
theorem createConfiguration_cases (hrooted : m.files.Rooted)
    (hworking : m.files.get? m.working = some .directory) (i : Invocation) (force : Bool) :
    ((m.createConfiguration i force).status ≠ 0 ∧
        m.files.Grows (m.createConfiguration i force).files ∧
        (m.createConfiguration i force).files.Rooted) ∨
      ∃ place, m.Created i force place (m.createConfiguration i force) := by
  have hmade := FileTree.grows_makeParent hrooted hworking (m.creationPath i)
  unfold Machine.createConfiguration
  dsimp only
  split
  · exact .inl ⟨Nat.one_ne_zero, .refl _, hrooted⟩
  · next hguard =>
    have hallowed : force = true ∨
        m.files.contains m.working (m.creationPath i) = false := by
      cases force
      · exact .inr (by simpa [Machine.creationPath] using hguard)
      · exact .inl rfl
    split
    · exact .inl ⟨Nat.one_ne_zero, hmade⟩
    · next hsave => exact .inr (created_of_saveTo hrooted hworking hallowed hsave rfl)

/-! ## Runs one after the other -/

/-- A call of the program: all that a machine is but its files, and the
arguments. -/
structure Launch where
  working : List String
  environment : List (String × String)
  input : ByteArray
  network : Fetch.Transport
  arguments : List String

/-- The machine on which the call is made. -/
def Launch.machine (l : Launch) (files : FileTree) : Machine :=
  ⟨files, l.working, l.environment, l.input, l.network⟩

/-- The calls take the files from the first tree to the second one. Each is
made in a directory that is there. -/
inductive Session : FileTree → List Launch → FileTree → Prop
  | nil (t : FileTree) : Session t [] t
  | cons {t t' : FileTree} {l : Launch} {ls : List Launch} :
      t.get? l.working = some .directory → Session (run (l.machine t) l.arguments).files ls t' →
        Session t (l :: ls) t'

/-- The run may replace the file at a place: it is to create a configuration
there, and either this is forced, or the path does not exist although the
file does. Such a path takes a step up. -/
def Machine.MayReplace (m : Machine) (arguments : List String) (place : List String) : Prop :=
  ∃ i force, readArguments arguments = .run i ∧ i.task = .createConfiguration force ∧
    m.CreatesAt i place ∧
      (force = true ∨
        (m.files.contains m.working (m.creationPath i) = false ∧
          ".." ∈ FileTree.names (m.creationPath i)))

/-- What a run has done to the files: nothing; or it was to create a
configuration and failed, and there are more directories; or it has created
one. -/
inductive Machine.Leaves (m : Machine) (arguments : List String) (o : Outcome) : Prop
  | same : o.files = m.files → m.Leaves arguments o
  | failed {i : Invocation} {force : Bool} : readArguments arguments = .run i →
      i.task = .createConfiguration force → o.status ≠ 0 → m.files.Grows o.files →
        m.Leaves arguments o
  | created {i : Invocation} {force : Bool} {place : List String} :
      readArguments arguments = .run i → i.task = .createConfiguration force →
        m.Created i force place o → m.Leaves arguments o

/-- **A run writes no file but the configuration that it creates**, and
leaves the tree rooted. -/
theorem leaves_run (hrooted : m.files.Rooted)
    (hworking : m.files.get? m.working = some .directory) (arguments : List String) :
    m.Leaves arguments (run m arguments) ∧ (run m arguments).files.Rooted := by
  rcases spares_or_creates m arguments with hspares | ⟨i, force, hread, htask, hrun⟩
  · exact ⟨.same hspares.files, hspares.files ▸ hrooted⟩
  · rw [hrun]
    rcases createConfiguration_cases hrooted hworking i force with
      ⟨hstatus, hgrows, hrooted'⟩ | ⟨place, hcreated⟩
    · exact ⟨.failed hread htask hstatus hgrows, hrooted'⟩
    · -- leaving out reports changes nothing of this
      have hquieted : m.Created i force place
          ((m.createConfiguration i force).quieted i.verbose) := { hcreated with }
      exact ⟨.created hread htask hquieted, hcreated.rooted⟩

/-- **Without being forced a run replaces a file only by a step up.** What
stands in a rooted tree is located by the names that lead to it, so that
it is seen before anything is created. -/
theorem file_kept_or_mayReplace (hrooted : m.files.Rooted)
    (hworking : m.files.get? m.working = some .directory) (arguments : List String)
    (hfile : m.files.get? place = some (.file bytes)) :
    (run m arguments).files.get? place = some (.file bytes) ∨ m.MayReplace arguments place := by
  cases (leaves_run hrooted hworking arguments).1 with
  | same hsame =>
    rw [hsame]
    exact .inl hfile
  | failed _ _ _ hgrows => exact .inl (hgrows.get? hfile)
  | @created i force target hread htask hcreated =>
    by_cases heq : place = target
    · subst heq
      refine .inr ⟨i, force, hread, htask, hcreated.at_path, ?_⟩
      refine hcreated.allowed.imp_right fun hnot => ⟨hnot, ?_⟩
      by_contra hup
      obtain ⟨found, hfind⟩ := hcreated.at_path
      obtain ⟨hlocate, hends⟩ := FileTree.locate_of_find hfind
      obtain rfl := FileTree.locate_of_not_up hup hlocate
      -- the file was there before its directory was made
      have hbefore := FileTree.locate_of_rooted hrooted hup hfile
      have hafter := (FileTree.grows_makeParent hrooted hworking (m.creationPath i)).1.get? hfile
      rw [← FileTree.get?_of_locate hlocate] at hafter
      have hfound := FileTree.find_of_locate hbefore (hends bytes hafter)
      rw [FileTree.contains, hfound] at hnot
      cases hnot
    · rcases hcreated.others place heq with hsame | ⟨hnone, -⟩
      · exact .inl (hsame.trans hfile)
      · rw [hfile] at hnone
        cases hnone

/-- The induction is on the session; what is replaced at some time was there
until then. -/
theorem session_file_kept {t t' : FileTree} {launches : List Launch}
    (hsession : Session t launches t') (hrooted : t.Rooted)
    (hfile : t.get? place = some (.file bytes)) :
    t'.get? place = some (.file bytes) ∨
      ∃ front l back s, launches = front ++ l :: back ∧ Session t front s ∧
        (l.machine s).MayReplace l.arguments place := by
  induction hsession with
  | nil t => exact .inl hfile
  | @cons t t' l ls hworking _ ih =>
    have hstep := leaves_run (m := l.machine t) hrooted hworking l.arguments
    have hcases := file_kept_or_mayReplace (m := l.machine t) hrooted hworking l.arguments hfile
    rcases hcases with hkept | hreplace
    · rcases ih hstep.2 hkept with hend | ⟨front, k, back, s, rfl, hfront, hreplace⟩
      · exact .inl hend
      · exact .inr ⟨l :: front, k, back, s, rfl, .cons hworking hfront, hreplace⟩
    · exact .inr ⟨[], l, ls, t, rfl, .nil t, hreplace⟩

/-- A run that is refused for what stands at the path prints nothing and
changes nothing. -/
theorem run_of_contains (hread : readArguments arguments = .run i)
    (htask : i.task = .createConfiguration false)
    (hthere : m.files.contains m.working (m.creationPath i) = true) :
    (run m arguments).status ≠ 0 ∧ (run m arguments).output = "" ∧
      (run m arguments).files = m.files := by
  have hrun : run m arguments = (m.createConfiguration i false).quieted i.verbose := by
    rw [run_of_readArguments hread, Machine.perform, htask]
  rw [hrun, createConfiguration_of_contains hthere]
  exact ⟨Nat.one_ne_zero, rfl, rfl⟩

/-- A run whose effect on the files is accounted for: what it may have
written, that the tree is still rooted, and that it changes nothing if it
is refused. -/
structure Machine.Accounts (m : Machine) (arguments : List String) : Prop where
  leaves : m.Leaves arguments (run m arguments)
  rooted : (run m arguments).files.Rooted
  refused : ∀ i, readArguments arguments = .run i → i.task = .createConfiguration false →
    m.files.contains m.working (m.creationPath i) = true →
      (run m arguments).status ≠ 0 ∧ (run m arguments).output = "" ∧
        (run m arguments).files = m.files

/-- The induction is on the runs in front, which keep the tree rooted. -/
theorem accounts_of_session {t t' : FileTree} {front back : List Launch} {l : Launch}
    (hrooted : t.Rooted) (hsession : Session t (front ++ l :: back) t') :
    ∃ s, Session t front s ∧ (l.machine s).Accounts l.arguments := by
  induction front generalizing t with
  | nil =>
    cases hsession with
    | cons hworking hrest =>
      obtain ⟨hleaves, hrooted'⟩ := leaves_run (m := l.machine t) hrooted hworking l.arguments
      exact ⟨t, .nil t, hleaves, hrooted', fun i => run_of_contains⟩
  | cons k front ih =>
    cases hsession with
    | cons hworking hrest =>
      have hstep := leaves_run (m := k.machine t) hrooted hworking k.arguments
      obtain ⟨s, hfront, haccounts⟩ := ih hstep.2 hrest
      exact ⟨s, .cons hworking hfront, haccounts⟩

/-- **No run damages a file but one that may replace it.** In any sequence
of runs on a rooted tree a file keeps its bytes up to such a run. A run
writes no file but a configuration that it creates, which holds the
built-in one and is loaded as that; and it is refused, without a change,
if something stands at the path and it is not forced. -/
theorem session_writes_only_created_configurations {t t' : FileTree} {launches : List Launch}
    (hrooted : t.Rooted) (hsession : Session t launches t') :
    (∀ place bytes, t.get? place = some (.file bytes) →
      t'.get? place = some (.file bytes) ∨
        ∃ front l back s, launches = front ++ l :: back ∧ Session t front s ∧
          (l.machine s).MayReplace l.arguments place) ∧
      ∀ front l back, launches = front ++ l :: back →
        ∃ s, Session t front s ∧ (l.machine s).Accounts l.arguments := by
  refine ⟨fun place bytes hfile => session_file_kept hsession hrooted hfile,
    fun front l back hlaunches => ?_⟩
  subst hlaunches
  exact accounts_of_session hrooted hsession

/-- A call on the machine with one configuration in a file. -/
def bareLaunch (arguments : List String) : Launch :=
  ⟨bareMachine.working, bareMachine.environment, bareMachine.input, bareMachine.network,
    arguments⟩

theorem rooted_bareMachine : bareMachine.files.Rooted := by
  intro place e hplace hthere
  have hfile : place = ["c.json"] := by
    by_contra hother
    have hnone : bareMachine.files.get? place = none := by
      cases place with
      | nil => exact absurd rfl hplace
      | cons name rest =>
        rw [FileTree.get?, bareMachine, List.lookup_cons, beq_false_of_ne hother]
        · rfl
        · exact hplace
    rw [hthere] at hnone
    cases hnone
  rw [hfile]
  rfl

/-- The file is kept when a configuration is to be created in its place, and
when one is created beside it. -/
theorem session_writes_only_created_configurations_bare :
    (run (bareLaunch ["--config", "/d/e.json", "config", "init"]
        |>.machine (run bareMachine ["--config", "/c.json", "config", "init"]).files)
        ["--config", "/d/e.json", "config", "init"]).files.get? ["c.json"] =
      some (.file bareConfiguration.text.toUTF8) := by
  have hsession : Session bareMachine.files
      [bareLaunch ["--config", "/c.json", "config", "init"],
        bareLaunch ["--config", "/d/e.json", "config", "init"]] _ :=
    .cons (by rfl) (.cons (by rfl) (.nil _))
  have hkept := (session_writes_only_created_configurations rooted_bareMachine hsession).1
    ["c.json"] bareConfiguration.text.toUTF8 (by rfl)
  refine hkept.resolve_right ?_
  rintro ⟨front, l, back, s, hlaunches, -, i, force, hread, htask, -, hforced⟩
  -- neither call is forced or takes a step up
  have hl : l ∈ [bareLaunch ["--config", "/c.json", "config", "init"],
      bareLaunch ["--config", "/d/e.json", "config", "init"]] := by
    rw [hlaunches]
    exact List.mem_append_right _ List.mem_cons_self
  rcases List.mem_pair.mp hl with rfl | rfl
  · cases hread
    cases htask
    have hup : ".." ∉ FileTree.names "/c.json" := by decide
    exact hforced.elim nofun fun h => hup h.2
  · cases hread
    cases htask
    have hup : ".." ∉ FileTree.names "/d/e.json" := by decide
    exact hforced.elim nofun fun h => hup h.2

/-- **A configuration is created over a file, without being forced**, on a
path that exists only when its directory has been made. -/
theorem created_over_file :
    readArguments ["--config", "/x/../c.json", "config", "init"] =
        .run ⟨false, some "/x/../c.json", none, .createConfiguration false⟩ ∧
      bareMachine.files.get? ["c.json"] = some (.file bareConfiguration.text.toUTF8) ∧
      (run bareMachine ["--config", "/x/../c.json", "config", "init"]).status = 0 ∧
      (run bareMachine ["--config", "/x/../c.json", "config", "init"]).files.get? ["c.json"] ≠
        some (.file bareConfiguration.text.toUTF8) := by
  refine ⟨by rfl, by rfl, by rfl, fun hkept => ?_⟩
  have hwritten : (run bareMachine ["--config", "/x/../c.json", "config", "init"]).files.get?
      ["c.json"] = some (.file Configuration.default.text.toUTF8) := by rfl
  rw [hwritten] at hkept
  injection hkept with hfile
  injection hfile with hbytes
  -- the two texts spell different configurations
  have htext := Text.decode_toUTF8 Configuration.default.text
  rw [hbytes, Text.decode_toUTF8, Option.some.injEq] at htext
  have hparse : Configuration.parse bareConfiguration.text = .ok bareConfiguration :=
    Configuration.parse_text ⟨by decide, by decide⟩
  rw [htext, Configuration.parse_text Configuration.fits_default] at hparse
  cases hparse

end ShellPreview.CommandLine
