import ShellPreview.Proofs.Configuration.Loading
import ShellPreview.Proofs.Json.Schema
import ShellPreview.Proofs.Registry.Selection
import ShellPreview.Proofs.Registry.Usage
import ShellPreview.Proofs.Text.Words
/-!
# The built-in tables in use

Tables in use have the managers of the configuration, each with its own
pattern (`managers_of_tables`). All built-in patterns can be read
(`exists_builtin`), the words of the built-in managers are words of a
command wherever they stand alone, and no two are the same.
-/

namespace ShellPreview

namespace Configuration

variable {c : Configuration} {r : Registry}

theorem toManager_of_compile {m : Manager} {i : Installer} (h : m.compile = .ok i) :
    i.toManager = m := by
  unfold Manager.compile at h
  split at h
  · cases h
  · cases h
    rfl

theorem managers_of_compiled {managers : List Manager} {installers : List Installer}
    (h : List.Forall₂ (fun m i => Manager.compile m = .ok i) managers installers) :
    installers.map Installer.toManager = managers ∧
      ∀ i ∈ installers, i.toManager.compile = .ok i := by
  induction h with
  | nil => exact ⟨rfl, List.forall_mem_nil _⟩
  | cons hi _ ih =>
    obtain rfl := toManager_of_compile hi
    exact ⟨by rw [List.map_cons, ih.1], List.forall_mem_cons.mpr ⟨hi, ih.2⟩⟩

/-- **Tables in use have the managers of the configuration**, with their
patterns read. -/
theorem managers_of_tables (h : c.tables = .ok r) :
    r.managers.map Installer.toManager = c.managers ∧
      ∀ i ∈ r.managers, i.toManager.compile = .ok i := by
  unfold tables registry Registry.compile at h
  cases hmap : c.managers.mapM Manager.compile with
  | error bad =>
    rw [hmap] at h
    cases h
  | ok installers =>
    rw [hmap] at h
    cases h
    exact managers_of_compiled (Json.forall₂_of_mapM hmap)

/-- And they have its tools. -/
theorem tools_of_tables (h : c.tables = .ok r) : r.tools = c.tools := by
  unfold tables registry Registry.compile at h
  cases hmap : c.managers.mapM Manager.compile with
  | error bad =>
    rw [hmap] at h
    cases h
  | ok installers =>
    rw [hmap] at h
    cases h
    rfl

end Configuration

namespace Registry

/-- **The built-in tables can be used.** -/
theorem exists_builtin : ∃ r, Configuration.default.tables = .ok r := by
  refine Configuration.exists_tables_iff.mpr fun m hm => ?_
  obtain ⟨u, -, -, pattern, hparse, -⟩ := exists_usage hm
  exact ⟨pattern, hparse⟩

variable {r : Registry} {i : Installer} {m : Manager} {command : String}

/-- The word of a built-in manager is a word of a command if it stands
alone. -/
theorem isWord_token : ∀ m ∈ defaultManagers, Text.IsWord m.token.toList := by
  decide

theorem mem_default_of_mem (h : Configuration.default.tables = .ok r) (hi : i ∈ r.managers) :
    i.toManager ∈ defaultManagers := by
  have hmem : i.toManager ∈ r.managers.map Installer.toManager := List.mem_map_of_mem hi
  rwa [(Configuration.managers_of_tables h).1] at hmem

theorem exists_installer (h : Configuration.default.tables = .ok r) (hm : m ∈ defaultManagers) :
    ∃ i ∈ r.managers, i.toManager = m := by
  have hmem : m ∈ r.managers.map Installer.toManager := by
    rwa [(Configuration.managers_of_tables h).1]
  exact List.mem_map.mp hmem

theorem spaceless_builtin (h : Configuration.default.tables = .ok r) : r.Spaceless := by
  intro i hi hspace
  have hblank := (isWord_token _ (mem_default_of_mem h hi)).2 ' ' hspace
  cases hblank

theorem nodup_builtin (h : Configuration.default.tables = .ok r) :
    (r.managers.map fun m => m.token).Nodup := by
  have hdefault : (defaultManagers.map Manager.token).Nodup := by decide
  have hmanagers : r.managers.map Installer.toManager = defaultManagers :=
    (Configuration.managers_of_tables h).1
  rwa [← hmanagers, List.map_map] at hdefault

/-- A built-in manager finds the package that is asked for first. -/
theorem packageName_builtin (h : Configuration.default.tables = .ok r) (hi : i ∈ r.managers)
    {u : Usage} (hu : u ∈ usages) (hword : u.word = i.token) {name : String} :
    i.packageName command = some name ↔
      ∃ k token rest, u.CitesFirst (Text.words command.toList) k token rest name.toList :=
  packageName_eq_some_iff (mem_default_of_mem h hi) ((Configuration.managers_of_tables h).2 i hi)
    hu hword

/-- What it finds is what its pattern finds. -/
theorem packageName_eq_firstText (h : Configuration.default.tables = .ok r) (hi : i ∈ r.managers)
    (command : String) : i.packageName command =
      (Pattern.parse i.installPattern).toOption.bind fun pattern => pattern.firstText command := by
  have hcompile := (Configuration.managers_of_tables h).2 i hi
  unfold Manager.compile at hcompile
  split at hcompile
  · cases hcompile
  · next pattern hparse =>
    obtain rfl := congrArg Installer.pattern (Except.ok.inj hcompile)
    rw [hparse]
    rfl

/-- **The word of the manager of a command is one of its words.** -/
theorem token_mem_words (h : Configuration.default.tables = .ok r)
    (hselects : r.managerFor command = some i) : i.token.toList ∈ Text.words command.toList := by
  obtain ⟨hi, hserves⟩ := serves_of_managerFor hselects
  have hword := isWord_token _ (mem_default_of_mem h hi)
  rcases Manager.serves_iff_stands.mp hserves with hfront | hpart
  · exact hword.mem_words_of_front hfront
  · exact hword.mem_words_of_part hpart

end Registry

end ShellPreview
