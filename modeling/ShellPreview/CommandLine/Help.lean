import ShellPreview.CommandLine.Option
/-!
# Help

What the program says about its commands and options. Help has a short
and a long form; they differ for the commands that have an option with
named values, whose meaning only the long form tells.
-/

namespace ShellPreview.CommandLine

/-- What a command does. -/
def Level.about : Level → String
  | .program => "Explain what a pasted shell command does before you run it"
  | .analyze => "Classify a command and preview any remote script it would run"
  | .fetch => "Download a URL through the relay chain and print it"
  | .tables => "List configured package managers and programming tools"
  | .config => "Inspect or create the configuration file"
  | .configShow => "Print the effective configuration as JSON"
  | .configInit => "Write the built-in defaults to the configuration file"
  | .configPath => "Print the configuration file location"

/-- What the command for help does. -/
def helpCommandAbout : String := "Print this message or the help of the given subcommand(s)"

/-- The command with those above it. -/
def Level.fullWord : Level → String
  | .program => "cmdpeek"
  | .configShow => "cmdpeek config show"
  | .configInit => "cmdpeek config init"
  | .configPath => "cmdpeek config path"
  | level => "cmdpeek " ++ level.word

/-- How the operand of a command is written, and what it is. -/
def Level.operandHelp : Level → Option (String × String)
  | .analyze => some ("[COMMAND]", "Command text (read from stdin when omitted)")
  | .fetch => some ("<URL>", "")
  | _ => none

/-- How a command is called. -/
def Level.usage (level : Level) : String :=
  "Usage: " ++ level.fullWord ++ " [OPTIONS]" ++
    (if level.commands.isEmpty then "" else " <COMMAND>") ++
    (match level.operandHelp with
    | some (name, _) => " " ++ name
    | none => "")

/-- Whether help on a command has a long form. -/
def Level.hasLongHelp (level : Level) : Bool :=
  level.options.contains .format

/-- What an option does. -/
def OptionName.about (level : Level) (long : Bool) : OptionName → String
  | .verbose => "Enable debug logging"
  | .config => "Configuration file (default: <config dir>/cmdpeek/config.json)"
  | .timeout => "Per-attempt network timeout in seconds"
  | .noFetch => "Never touch the network; fetch-failure paths are used instead"
  | .format => if level = .analyze then "Output format (default: auto-detect)" else ""
  | .force => "Overwrite an existing file"
  | .help =>
    if !level.hasLongHelp then "Print help"
    else if long then "Print help (see a summary with '-h')"
    else "Print help (see more with '--help')"
  | .version => "Print version"

/-- What a mode is for. -/
def modeAbout : Report.Mode → String
  | .human => "Human-friendly output with colors and emojis"
  | .json => "Machine-readable JSON output"
  | .plain => "Plain text without colors (for pipes/logs)"

/-- How an option is written. -/
def OptionName.spelling (o : OptionName) : String :=
  (match o.letter with
  | some c => "-" ++ String.ofList [c] ++ ", "
  | none => "    ") ++ "--" ++ o.word ++
    (match o.valueName with
    | some name => " <" ++ name ++ ">"
    | none => "")

/-- A text, filled up to a width. -/
def filled (width : Nat) (s : String) : String :=
  s ++ Report.repeated (width - s.length) ' '

/-- Lines of two columns. -/
def columns (rows : List (String × String)) : List String :=
  let width := (rows.map fun r => r.1.length).foldl max 0
  rows.map fun r => "  " ++ filled width r.1 ++ "  " ++ r.2

/-- The values of an option that has named values, in a few words. -/
def valuesNote : String :=
  "[possible values: " ++ String.intercalate ", " (Report.Mode.all.map Report.Mode.name) ++ "]"

/-- What is said about an option on its line. -/
def OptionName.note (level : Level) (o : OptionName) : String :=
  let about := o.about level false
  if o = .format then (if about.isEmpty then valuesNote else about ++ " " ++ valuesNote) else about

/-- The blanks before what is said on a line of its own. -/
def indent : String := "          "

/-- The named values of an option, one to a line. -/
def valueLines : List String :=
  let width := (Report.Mode.all.map fun m => m.name.length).foldl max 0
  (indent ++ "Possible values:") :: Report.Mode.all.map fun m =>
    indent ++ "- " ++ filled (width + 2) (m.name ++ ":") ++ modeAbout m

/-- What is said about an option on lines of its own. -/
def OptionName.longLines (level : Level) (o : OptionName) : List String :=
  let about := o.about level true
  ("  " ++ o.spelling) ::
    (if o = .format then
      (if about.isEmpty then valueLines else [indent ++ about, ""] ++ valueLines)
    else [indent ++ about])

/-- The part of help on the commands under a command. -/
def commandLines (level : Level) : List String :=
  if level.commands.isEmpty then []
  else
    "" :: "Commands:" ::
      columns (level.commands.map (fun l => (l.word, l.about)) ++ [("help", helpCommandAbout)])

/-- The part of help on the operand of a command. -/
def operandLines (level : Level) (long : Bool) : List String :=
  match level.operandHelp with
  | none => []
  | some (name, about) =>
    "" :: "Arguments:" :: if long then ["  " ++ name, indent ++ about] else columns [(name, about)]

/-- The part of help on the options of a command. -/
def optionLines (level : Level) (long : Bool) : List String :=
  "" :: "Options:" ::
    if long then List.intercalate [""] (level.options.map (OptionName.longLines level))
    else columns (level.options.map fun o => (o.spelling, o.note level))

/-- Lines, each with its line break. -/
def ofLines (lines : List String) : String :=
  String.join (lines.map (· ++ "\n"))

/-- Help on a command. -/
def Level.help (level : Level) (long : Bool) : String :=
  let long := long && level.hasLongHelp
  ofLines ([level.about, "", level.usage] ++ commandLines level ++ operandLines level long ++
    optionLines level long)

/-- Help on the command for help. -/
def helpOnHelp (level : Level) : String :=
  ofLines [helpCommandAbout, "", "Usage: " ++ level.fullWord ++ " help [COMMAND]...", "",
    "Arguments:", "  [COMMAND]...  Print help for the subcommand(s)"]

/-- What the program says about its version. -/
def versionText : String := "cmdpeek 0.1.0\n"

end ShellPreview.CommandLine
