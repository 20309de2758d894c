import ShellPreview.Report.Line
/-!
# Commands and options

The commands form a tree: some take operands, some have commands under
them. Each command has options of its own, and three options may stand
behind any command. `Settings` is what the options at one command say.
-/

namespace ShellPreview.CommandLine

/-- A command, or the program itself. -/
inductive Level
  | program
  | analyze
  | fetch
  | tables
  | config
  | configShow
  | configInit
  | configPath
deriving DecidableEq

/-- An option. -/
inductive OptionName
  | verbose
  | config
  | timeout
  | noFetch
  | format
  | force
  | help
  | version
deriving DecidableEq

/-- The word of a command. -/
def Level.word : Level → String
  | .program => "cmdpeek"
  | .analyze => "analyze"
  | .fetch => "fetch"
  | .tables => "tables"
  | .config => "config"
  | .configShow => "show"
  | .configInit => "init"
  | .configPath => "path"

/-- The commands under a command. -/
def Level.commands : Level → List Level
  | .program => [.analyze, .fetch, .tables, .config]
  | .config => [.configShow, .configInit, .configPath]
  | _ => []

/-- The command under a command that has the word. -/
def Level.command? (level : Level) (word : String) : Option Level :=
  level.commands.find? fun l => l.word == word

/-- The options that only this command has. -/
def Level.ownOptions : Level → List OptionName
  | .analyze => [.noFetch, .format]
  | .fetch => [.format]
  | .tables => [.format]
  | .configInit => [.force]
  | _ => []

/-- Whether a command takes an operand. -/
def Level.takesOperand (level : Level) : Bool :=
  level == .analyze || level == .fetch

/-- The letter of an option. -/
def OptionName.letter : OptionName → Option Char
  | .verbose => some 'v'
  | .format => some 'f'
  | .help => some 'h'
  | .version => some 'V'
  | _ => none

/-- The word of an option. -/
def OptionName.word : OptionName → String
  | .verbose => "verbose"
  | .config => "config"
  | .timeout => "timeout"
  | .noFetch => "no-fetch"
  | .format => "format"
  | .force => "force"
  | .help => "help"
  | .version => "version"

/-- What an option is sorted by: its letter, or else its word. -/
def OptionName.sortKey (o : OptionName) : String :=
  match o.letter with
  | some c => String.ofList [c]
  | none => o.word

/-- The options that may stand behind any command. -/
def sharedOptions : List OptionName := [.verbose, .config, .timeout]

/-- Two lists of options as one: the first of each, then the second of
each, and so on, the two sorted by letter or word. -/
def paired : List OptionName → List OptionName → List OptionName
  | a :: as, b :: bs => (if b.sortKey < a.sortKey then [b, a] else [a, b]) ++ paired as bs
  | as, [] => as
  | [], bs => bs

/-- The options at a command, in the order in which help lists them. -/
def Level.options (level : Level) : List OptionName :=
  paired level.ownOptions sharedOptions ++ [.help] ++
    (if level = .program then [.version] else [])

/-- What an option's value is called, if it takes one. -/
def OptionName.valueName : OptionName → Option String
  | .config => some "CONFIG"
  | .timeout => some "TIMEOUT"
  | .format => some "FORMAT"
  | _ => none

/-- What the options and operands at one command say. -/
structure Settings where
  verbose : Bool
  config : Option String
  timeout : Option Nat
  noFetch : Bool
  force : Bool
  format : Option Report.Mode
  operand : Option String

/-- Nothing has been said. -/
def Settings.nothing : Settings :=
  ⟨false, none, none, false, false, none, none⟩

/-- A number of seconds, as an option gives it. -/
def readSeconds (value : String) : Option Nat :=
  let digits := match value.toList with
    | '+' :: r => r
    | r => r
  let n := digits.foldl (fun n c => 10 * n + (c.toNat - '0'.toNat)) 0
  if !digits.isEmpty && digits.all Char.isDigit && n < UInt64.size then some n else none

/-- Sets an option that takes no value, which may be given once. -/
def Settings.turnOn (s : Settings) : OptionName → Option Settings
  | .verbose => if s.verbose then none else some { s with verbose := true }
  | .noFetch => if s.noFetch then none else some { s with noFetch := true }
  | .force => if s.force then none else some { s with force := true }
  | _ => none

/-- Sets an option to a value, which must be a value of the option and may
be given once. -/
def Settings.assign (s : Settings) (o : OptionName) (value : String) : Option Settings :=
  match o with
  | .config =>
    if s.config.isSome || value.isEmpty then none else some { s with config := some value }
  | .timeout =>
    match s.timeout, readSeconds value with
    | none, some n => some { s with timeout := some n }
    | _, _ => none
  | .format =>
    match s.format, Report.Mode.ofName? value with
    | none, some m => some { s with format := some m }
    | _, _ => none
  | _ => none

/-- What holds for a command when something was said at the command above
it: what is said later counts. -/
def Settings.over (inner outer : Settings) : Settings :=
  { inner with
    verbose := inner.verbose || outer.verbose
    config := inner.config.or outer.config
    timeout := inner.timeout.or outer.timeout }

end ShellPreview.CommandLine
