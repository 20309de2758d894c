import ShellPreview.Configuration.Store
import ShellPreview.Proofs.FileTree
/-!
# Which configuration is in force

`InForce` says where a configuration comes from, without regard to how it
is loaded: the file that was asked for, else the usual one if anything
stands there, else the built-in configuration. Loading gives the
configuration that is in force (`load_eq_ok_iff`), and its tables can be
used if all of its patterns can be read (`exists_tables_iff`).
-/

namespace ShellPreview

/-- The bytes that are read as a text are those that spell it. -/
theorem Text.decode_eq_some_iff {bytes : ByteArray} {s : String} :
    Text.decode bytes = some s ↔ bytes = s.toUTF8 := by
  constructor
  · intro h
    unfold Text.decode String.fromUTF8? at h
    split at h
    · cases h
      rfl
    · cases h
  · rintro rfl
    exact Text.decode_toUTF8 s

namespace FileTree

variable {t : FileTree} {working : List String} {path : String}

/-- Something stands where a file can be read. -/
theorem contains_of_read {bytes : ByteArray} (h : t.read working path = .ok bytes) :
    t.contains working path = true := by
  unfold read at h
  unfold contains
  split at h
  · cases h
  · cases h
  · cases h
  · next hfind => rw [hfind]

end FileTree

namespace Configuration

variable {tree : FileTree} {working : List String} {path usual : String}
variable {asked : Option String} {c : Configuration}

/-- At the path stands a file with a text that spells the configuration. -/
def KeptAt (c : Configuration) (tree : FileTree) (working : List String) (path : String) : Prop :=
  ∃ text : String, tree.read working path = .ok text.toUTF8 ∧ parse text = .ok c

/-- The configuration that counts when one path may have been asked for and
another one is usual. -/
inductive InForce (tree : FileTree) (working : List String) (usual : String) :
    Option String → Configuration → Prop
  | asked {path : String} {c : Configuration} :
      c.KeptAt tree working path → InForce tree working usual (some path) c
  | usual {c : Configuration} :
      c.KeptAt tree working usual → InForce tree working usual none c
  | builtIn :
      tree.contains working usual = false → InForce tree working usual none .default

theorem loadFrom_eq_ok_iff : loadFrom tree working path = .ok c ↔ c.KeptAt tree working path := by
  constructor
  · intro h
    unfold loadFrom at h
    split at h
    · cases h
    split at h
    · cases h
    next bytes hread =>
    split at h
    · cases h
    next text hdecode =>
    split at h
    · cases h
    next hparse =>
    cases h
    obtain rfl := (Text.decode_eq_some_iff).mp hdecode
    exact ⟨text, hread, hparse⟩
  · rintro ⟨text, hread, hparse⟩
    rw [loadFrom, FileTree.contains_of_read hread, hread]
    simp only [Bool.not_true, Bool.false_eq_true, if_false, Text.decode_toUTF8, hparse]

/-- All install patterns of the configuration are patterns. -/
def Compiles (c : Configuration) : Prop :=
  ∀ m ∈ c.managers, ∃ pattern, Pattern.parse m.installPattern = .ok pattern

theorem exists_compile_iff {m : Manager} :
    (∃ i, m.compile = .ok i) ↔ ∃ pattern, Pattern.parse m.installPattern = .ok pattern := by
  unfold Manager.compile
  cases Pattern.parse m.installPattern <;> simp

/-- **The tables of a configuration can be used if its patterns compile.** -/
theorem exists_tables_iff : (∃ r, c.tables = .ok r) ↔ c.Compiles := by
  have hall : ∀ managers : List Manager, (∃ is, managers.mapM Manager.compile = .ok is) ↔
      ∀ m ∈ managers, ∃ pattern, Pattern.parse m.installPattern = .ok pattern := by
    intro managers
    induction managers with
    | nil => simp [pure, Except.pure]
    | cons m managers ih =>
      rw [List.forall_mem_cons, ← exists_compile_iff, ← ih, List.mapM_cons]
      cases m.compile with
      | error bad => simp [bind, Except.bind]
      | ok i => cases managers.mapM Manager.compile <;> simp [bind, Except.bind, pure, Except.pure]
  rw [Compiles, ← hall]
  unfold tables registry Registry.compile
  cases c.managers.mapM Manager.compile <;> simp [Except.map]

end Configuration

end ShellPreview
