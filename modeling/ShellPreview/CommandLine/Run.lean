import ShellPreview.Classify
import ShellPreview.CommandLine.Arguments
import ShellPreview.Configuration.Store
import ShellPreview.Report
/-!
# Running the program

`run` is one run of the program as a function: from the files, the
environment and the standard input to what is printed and to the files
afterwards. Nothing is printed before everything that can fail has
succeeded, and files change only when a configuration is to be created.
-/

namespace ShellPreview.CommandLine

/-- What a run starts from. -/
structure Machine where
  files : FileTree
  working : List String
  environment : List (String × String)
  input : ByteArray
  /-- The network, unless it must not be used. -/
  network : Fetch.Transport

/-- What a run comes to: the status with which it ends, what it prints,
what it reports, the lines that say why it failed, and the files. -/
structure Outcome where
  status : Nat
  output : String
  events : List Fetch.Event
  errorLines : List String
  files : FileTree

/-- The lines for an error, and for what lies behind it. -/
def errorText (message : String) (cause : Option String) : List String :=
  ("Error: " ++ message) ::
    match cause with
    | none => []
    | some text => ["", "Caused by:", "    " ++ text]

/-- A run that fails and leaves the files alone. -/
def Machine.fail (m : Machine) (message : String) (cause : Option String) : Outcome :=
  ⟨1, "", [], errorText message cause, m.files⟩

/-- A run that fails for its configuration. -/
def Machine.failConfiguration (m : Machine) (e : Configuration.Error) : Outcome :=
  m.fail e.message e.cause?

/-- A run that succeeds and leaves the files alone. -/
def Machine.succeed (m : Machine) (output : String) (events : List Fetch.Event) : Outcome :=
  ⟨0, output, events, [], m.files⟩

/-- The mode of reports when none is asked for: for programs if the
environment says so, else plain. -/
def Machine.usualMode (m : Machine) : Report.Mode :=
  if (m.environment.lookup "CMDPEEK_JSON").isSome then .json else .plain

/-- How reports look. Colours are used only if the environment asks for
them. -/
def Machine.style (m : Machine) (format : Option Report.Mode) : Report.Style :=
  ⟨format.getD m.usualMode, (m.environment.lookup "CLICOLOR_FORCE").any fun v => v != "0"⟩

/-- The usual path of the configuration. -/
def Machine.usualPath (m : Machine) : String :=
  Configuration.usualPath m.environment

/-- The configuration in force. -/
def Machine.configuration (m : Machine) (i : Invocation) :
    Except Configuration.Error Configuration :=
  Configuration.load m.files m.working i.config m.usualPath

/-- How to fetch with a configuration. -/
def Machine.fetcher (m : Machine) (i : Invocation) (c : Configuration) (offline : Bool) :
    Fetch.Fetcher where
  transport := if offline then .offline else m.network
  settings := c.fetch
  timeout :=
    match i.timeout with
    | some seconds => seconds * 1000000000
    | none => c.fetch.timeout

/-- The command to be analyzed: an operand, or the standard input. -/
def Machine.commandText (m : Machine) : Option String → Option String
  | some command => some command
  | none => Text.decode m.input

/-- The analysis of a command, with the reports on the way to it. -/
def Machine.analysis (m : Machine) (i : Invocation) (c : Configuration) (r : Registry)
    (offline : Bool) (command : String) : Fetch.Traced Analysis := do
  if offline then Fetch.Traced.report .debug "Network access disabled"
  let classifier := Classifier.standard r (m.fetcher i c offline)
  .report .debug ("Detectors: " ++ String.intercalate ", " (classifier.families.map Family.name))
  classifier.classify command

/-- Analyzes a command. -/
def Machine.analyze (m : Machine) (i : Invocation) (command : Option String) (offline : Bool)
    (format : Option Report.Mode) : Outcome :=
  match m.commandText command with
  | none => m.fail "Failed to read command from stdin" (some FileFault.notText.message)
  | some text =>
    match m.configuration i with
    | .error e => m.failConfiguration e
    | .ok c =>
      match c.tables with
      | .error e => m.failConfiguration e
      | .ok r =>
        let a := m.analysis i c r offline text
        m.succeed (Report.ofAnalysis (m.style format) a.value) a.events

/-- Fetches a document. -/
def Machine.fetch (m : Machine) (i : Invocation) (url : String) (format : Option Report.Mode) :
    Outcome :=
  match m.configuration i with
  | .error e => m.failConfiguration e
  | .ok c =>
    let found := (m.fetcher i c false).fetch url
    let report :=
      match found.value with
      | .ok d => Report.ofDocument (m.style format) d
      | .error f => Report.ofFailure (m.style format) c.fetch f
    m.succeed report found.events

/-- The tables as a value. -/
def tablesJson (c : Configuration) : Json :=
  (Json.object [("packageManagers", .list (c.managers.map Manager.toJson)),
    ("programmingTools", .list (c.tools.map Tool.toJson))]).sorted

/-- Shows the tables. -/
def Machine.tables (m : Machine) (i : Invocation) (format : Option Report.Mode) : Outcome :=
  match m.configuration i with
  | .error e => m.failConfiguration e
  | .ok c =>
    let style := m.style format
    match style.mode with
    | .json => m.succeed (Report.print style [.whole (tablesJson c).pretty]) []
    | _ =>
      match c.tables with
      | .error e => m.failConfiguration e
      | .ok r => m.succeed (Report.ofRegistry style r) []

/-- Shows the configuration in force. -/
def Machine.showConfiguration (m : Machine) (i : Invocation) : Outcome :=
  match m.configuration i with
  | .error e => m.failConfiguration e
  | .ok c => m.succeed (c.text ++ "\n") []

/-- Writes the built-in configuration to a file. A file that is there is
written only if that is asked for. -/
def Machine.createConfiguration (m : Machine) (i : Invocation) (force : Bool) : Outcome :=
  let path := i.config.getD m.usualPath
  if m.files.contains m.working path && !force then
    m.fail (path ++ " already exists (use --force to overwrite)") none
  else
    match Configuration.default.saveTo m.files m.working path with
    -- the directories that were made for the file stay
    | .error e => { m.failConfiguration e with files := (m.files.makeParent m.working path).1 }
    | .ok files =>
      ⟨0, Report.print (m.style none) [.success ("Created " ++ path)],
        [⟨.info, "📝 Wrote default configuration to " ++ path⟩], [], files⟩

/-- Does what the program is called to do. -/
def Machine.perform (m : Machine) (i : Invocation) : Outcome :=
  match i.task with
  | .analyze command offline format => m.analyze i command offline format
  | .fetch url format => m.fetch i url format
  | .tables format => m.tables i format
  | .showConfiguration => m.showConfiguration i
  | .createConfiguration force => m.createConfiguration i force
  | .showPath => m.succeed (m.usualPath ++ "\n") []

/-- Keeps the reports that are asked for. -/
def Outcome.quieted (o : Outcome) (verbose : Bool) : Outcome :=
  { o with events := o.events.filter fun e => verbose || e.level != .debug }

/-- One run of the program. -/
def run (m : Machine) (arguments : List String) : Outcome :=
  match readArguments arguments with
  | .refuse => ⟨2, "", [], [], m.files⟩
  | .show text => m.succeed text []
  | .run i => (m.perform i).quieted i.verbose

/-- Whether a run reads the standard input. -/
def needsInput (arguments : List String) : Bool :=
  match readArguments arguments with
  | .run i =>
    match i.task with
    | .analyze none _ _ => true
    | _ => false
  | _ => false

/-- The network of a machine that has none: a URL that is no web address
cannot be asked for, and nobody answers for the others. -/
def unconnected : Fetch.Transport :=
  let answer (url : String) : Fetch.Answer :=
    let message :=
      match Url.parse url with
      | none => "builder error"
      | some u =>
        if u.hasHost && (u.scheme == "http" || u.scheme == "https") then
          "error sending request for url (" ++ url ++ ")"
        else "builder error for url (" ++ url ++ ")"
    ⟨.error (.transport message), some 0⟩
  ⟨answer, answer⟩

end ShellPreview.CommandLine
