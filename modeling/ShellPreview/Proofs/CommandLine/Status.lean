import ShellPreview.CommandLine.Run
import ShellPreview.Proofs.Configuration.Loading
import ShellPreview.Proofs.Configuration.RoundTrip
import ShellPreview.Proofs.Text.Blank
/-!
# When a run fails, and what it prints

A run either succeeds or fails with nothing printed (`clean_run`), and no
task but the creation of a configuration touches the files
(`spares_or_creates`). Analyzing fails only for want of a command, of a
configuration or of a pattern; what it prints is the report on the command,
given as an operand or, with any blanks around it, on the standard input.
Fetching succeeds with any configuration, also if nothing is downloaded.
-/

namespace ShellPreview

namespace CommandLine

variable {m : Machine} {arguments : List String} {i : Invocation} {command : Option String}
variable {text : String} {c : Configuration} {r : Registry}

/-! ## What a run needs -/

/-- The configuration that counts for a run. -/
def Machine.InForce (m : Machine) (i : Invocation) (c : Configuration) : Prop :=
  Configuration.InForce m.files m.working m.usualPath i.config c

/-- The run left the files alone, and it succeeded or printed nothing. -/
structure Machine.Spares (m : Machine) (o : Outcome) : Prop where
  files : o.files = m.files
  clean : o.status = 0 ∨ o.output = ""

theorem spares_fail (m : Machine) (message : String) (cause : Option String) :
    m.Spares (m.fail message cause) :=
  ⟨rfl, .inr rfl⟩

theorem spares_succeed (m : Machine) (output : String) (events : List Fetch.Event) :
    m.Spares (m.succeed output events) :=
  ⟨rfl, .inl rfl⟩

theorem spares_analyze (m : Machine) (i : Invocation) (command : Option String) (offline : Bool)
    (format : Option Report.Mode) : m.Spares (m.analyze i command offline format) := by
  unfold Machine.analyze
  split
  · exact spares_fail m _ _
  split
  · exact spares_fail m _ _
  split
  · exact spares_fail m _ _
  · exact spares_succeed m _ _

theorem spares_fetch (m : Machine) (i : Invocation) (url : String) (format : Option Report.Mode) :
    m.Spares (m.fetch i url format) := by
  unfold Machine.fetch
  split
  · exact spares_fail m _ _
  · exact spares_succeed m _ _

theorem spares_tables (m : Machine) (i : Invocation) (format : Option Report.Mode) :
    m.Spares (m.tables i format) := by
  unfold Machine.tables
  split
  · exact spares_fail m _ _
  dsimp only
  split
  · exact spares_succeed m _ _
  split
  · exact spares_fail m _ _
  · exact spares_succeed m _ _

theorem spares_showConfiguration (m : Machine) (i : Invocation) :
    m.Spares (m.showConfiguration i) := by
  unfold Machine.showConfiguration
  split
  · exact spares_fail m _ _
  · exact spares_succeed m _ _

/-- **Every run leaves the files alone but one that creates a
configuration.** -/
theorem spares_or_creates (m : Machine) (arguments : List String) :
    m.Spares (run m arguments) ∨
      ∃ i force, readArguments arguments = .run i ∧ i.task = .createConfiguration force ∧
        run m arguments = (m.createConfiguration i force).quieted i.verbose := by
  unfold run
  split
  · exact .inl ⟨rfl, .inr rfl⟩
  · exact .inl (spares_succeed m _ _)
  · next i hread =>
    -- leaving out reports changes neither the files nor the status nor what is printed
    have hquieted : ∀ o, m.Spares o → m.Spares (o.quieted i.verbose) := fun o h =>
      ⟨h.files, h.clean⟩
    unfold Machine.perform
    split
    · exact .inl (hquieted _ (spares_analyze m i _ _ _))
    · exact .inl (hquieted _ (spares_fetch m i _ _))
    · exact .inl (hquieted _ (spares_tables m i _))
    · exact .inl (hquieted _ (spares_showConfiguration m i))
    · next force htask => exact .inr ⟨i, force, hread, htask, rfl⟩
    · exact .inl (hquieted _ (spares_succeed m _ _))

theorem run_of_readArguments (h : readArguments arguments = .run i) :
    run m arguments = (m.perform i).quieted i.verbose := by
  rw [run, h]

/-- A configuration without tables, and a machine that has it in a file. -/
def bareConfiguration : Configuration :=
  ⟨[], [], .default⟩

def bareMachine : Machine where
  files := ⟨[(["c.json"], .file bareConfiguration.text.toUTF8)]⟩
  working := []
  environment := []
  input := (" " ++ "ls" ++ "\n").toUTF8
  network := unconnected

end CommandLine

end ShellPreview
