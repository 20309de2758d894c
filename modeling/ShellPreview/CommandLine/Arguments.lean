import ShellPreview.CommandLine.Help
/-!
# Reading the arguments

`Arguments.read` reads the words that the program is called with, from the
left: options, operands and the words of commands. Help and version are
answered as soon as they are met; the first thing that is not allowed ends
the reading.
-/

namespace ShellPreview.CommandLine

/-- What the program is called to do. -/
inductive Task
  | analyze (command : Option String) (noFetch : Bool) (format : Option Report.Mode)
  | fetch (url : String) (format : Option Report.Mode)
  | tables (format : Option Report.Mode)
  | showConfiguration
  | createConfiguration (force : Bool)
  | showPath

/-- A task, with what was said for any task. -/
structure Invocation where
  verbose : Bool
  config : Option String
  timeout : Option Nat
  task : Task

/-- What the arguments come to. -/
inductive Request
  | run (i : Invocation)
  /-- A text is asked for. -/
  | show (text : String)
  /-- The arguments are not allowed. -/
  | refuse

/-- The request at the end of the arguments of a command. -/
def Settings.request (s : Settings) : Level → Request
  | .analyze => .run ⟨s.verbose, s.config, s.timeout, .analyze s.operand s.noFetch s.format⟩
  | .fetch =>
    match s.operand with
    | some url => .run ⟨s.verbose, s.config, s.timeout, .fetch url s.format⟩
    | none => .refuse
  | .tables => .run ⟨s.verbose, s.config, s.timeout, .tables s.format⟩
  | .configShow => .run ⟨s.verbose, s.config, s.timeout, .showConfiguration⟩
  | .configInit => .run ⟨s.verbose, s.config, s.timeout, .createConfiguration s.force⟩
  | .configPath => .run ⟨s.verbose, s.config, s.timeout, .showPath⟩
  | .program => .refuse
  | .config => .refuse

/-- Help on what the words name. -/
def helpOn (level : Level) : List String → Request
  | [] => .show (level.help true)
  | word :: words =>
    match level.command? word with
    | some l => helpOn l words
    | none =>
      if word = "help" && !level.commands.isEmpty && words.isEmpty then .show (helpOnHelp level)
      else .refuse

/-- Where reading stands: what has been said at the commands so far, and
an option that waits for its value. A value that is an argument of its own
is looked at when the next option or operand comes, or at the end:
`spoiled` says that there is one that is not allowed, `spoiledAbove` that
there is one at a command above. -/
structure Progress where
  level : Level
  outer : Settings
  settings : Settings
  waiting : Option OptionName
  operandsOnly : Bool
  spoiled : Bool
  spoiledAbove : Bool

/-- What one argument comes to. -/
inductive Step
  | more (p : Progress)
  | done (r : Request)

/-- Goes on with new settings, if there are any. -/
def Progress.with (p : Progress) : Option Settings → Step
  | none => .done .refuse
  | some s => .more { p with settings := s, waiting := none }

/-- An option that takes no value. -/
def Progress.flag (p : Progress) (long : Bool) : OptionName → Step
  | .help => .done (.show (p.level.help long))
  | .version => .done (.show versionText)
  | o => p.with (p.settings.turnOn o)

/-- An option by its word. -/
def Progress.long (p : Progress) (text : List Char) : Step :=
  let word := String.ofList (text.takeWhile (· ≠ '='))
  let value? :=
    if '=' ∈ text then some (String.ofList ((text.dropWhile (· ≠ '=')).drop 1)) else none
  match p.level.options.find? fun o => o.word == word with
  | none => .done .refuse
  | some o =>
    match o.valueName, value? with
    | none, none => p.flag true o
    | none, some _ => .done .refuse
    | some _, some value => p.with (p.settings.assign o value)
    | some _, none => .more { p with waiting := some o }

/-- Options by their letters. -/
def Progress.letters (p : Progress) : List Char → Step
  | [] => .more p
  | c :: cs =>
    match p.level.options.find? fun o => o.letter == some c with
    | none => .done .refuse
    | some o =>
      match o.valueName, cs with
      | some _, [] => .more { p with waiting := some o }
      | some _, '=' :: value => p.with (p.settings.assign o (String.ofList value))
      | some _, value => p.with (p.settings.assign o (String.ofList value))
      | none, cs =>
        match p.flag false o with
        | .more p => p.letters cs
        | .done r => .done r

/-- An operand. -/
def Progress.operand (p : Progress) (text : String) : Step :=
  if p.level.takesOperand && p.settings.operand.isNone then
    .more { p with settings := { p.settings with operand := some text } }
  else .done .refuse

/-- A value that is an argument of its own. -/
def Progress.value (p : Progress) (o : OptionName) (argument : String) : Progress :=
  match p.settings.assign o argument with
  | none => { p with waiting := none, spoiled := true }
  | some s => { p with waiting := none, settings := s }

/-- The command under the one where reading stands. -/
def Progress.enter (p : Progress) (level : Level) : Progress :=
  ⟨level, p.settings.over p.outer, .nothing, none, false, false, p.spoiled || p.spoiledAbove⟩

/-- Goes on unless a value before is not allowed. -/
def Progress.unlessSpoiled (p : Progress) (next : Step) : Step :=
  if p.spoiled then .done .refuse else next

/-- One argument; those behind it are needed for help only. -/
def Progress.step (p : Progress) (argument : String) (rest : List String) : Step :=
  match p.operandsOnly, p.waiting with
  | true, some _ => .done .refuse
  | true, none => p.unlessSpoiled (p.operand argument)
  | false, some o =>
    match argument.toList with
    | '-' :: _ :: _ => .done .refuse
    | _ => .more (p.value o argument)
  | false, none =>
    match p.level.command? argument with
    | some l => .more (p.enter l)
    | none =>
      if argument = "help" && !p.level.commands.isEmpty then .done (helpOn p.level rest)
      else
        match argument.toList with
        | ['-', '-'] => .more { p with operandsOnly := true }
        | '-' :: '-' :: text => p.unlessSpoiled (p.long text)
        | '-' :: c :: cs => p.unlessSpoiled (p.letters (c :: cs))
        | _ => p.unlessSpoiled (p.operand argument)

/-- Whether the arguments must not end here. -/
def Progress.isUnfinished (p : Progress) : Bool :=
  p.waiting.isSome || p.spoiled || p.spoiledAbove

/-- Reads arguments from where reading stands. -/
def Progress.run (p : Progress) : List String → Request
  | [] => if p.isUnfinished then .refuse else (p.settings.over p.outer).request p.level
  | argument :: rest =>
    match p.step argument rest with
    | .done r => r
    | .more p => p.run rest

/-- Reads the arguments of the program. -/
def readArguments (arguments : List String) : Request :=
  Progress.run ⟨.program, .nothing, .nothing, none, false, false, false⟩ arguments

end ShellPreview.CommandLine
