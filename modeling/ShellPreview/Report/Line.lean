import ShellPreview.Text.Blank
import ShellPreview.Text.Search
import ShellPreview.Text.Utf8
/-!
# Lines of a report

A report is a list of lines, each with its role: a title, the rule under
it, a warning, a row of a table. How a line looks is decided last, by the
style: for people, with signs and perhaps colours, or plainly, in ASCII.
A report for programs shows nothing but whole texts.
-/

namespace ShellPreview.Report

/-- For whom a report is. -/
inductive Mode
  | human
  | json
  | plain
deriving DecidableEq

/-- All modes, in the order in which help lists them. -/
def Mode.all : List Mode := [.human, .json, .plain]

/-- The name of a mode. -/
def Mode.name : Mode → String
  | .human => "human"
  | .json => "json"
  | .plain => "plain"

/-- The mode with a name. -/
def Mode.ofName? (s : String) : Option Mode :=
  all.find? fun m => m.name == s

/-- How lines look. -/
structure Style where
  mode : Mode
  color : Bool

/-- A line, or a text of several lines, by its role. -/
inductive Line
  | blank
  | title (text : String)
  | rule (length : Nat)
  | success (text : String)
  | warning (text : String)
  | plain (text : String)
  | row (key value : String)
  | fence (language : String)
  | code (text : String)
  | whole (text : String)
deriving DecidableEq

/-- The sequence that ends a colour. -/
def resetSequence : String := "\x1b[0m"

/-- A text in a colour, which is taken up again where the text ends one. -/
def paint (style : Style) (codes text : String) : String :=
  if style.color then
    let start := "\x1b[" ++ codes ++ "m"
    start ++ Text.replaceAll text resetSequence (resetSequence ++ start) ++ resetSequence
  else text

/-- A text of one character, many times. -/
def repeated (n : Nat) (c : Char) : String :=
  String.ofList (List.replicate n c)

/-- A line as people see it. -/
def Line.humanText (style : Style) : Line → String
  | blank => ""
  | title text => paint style "1;36" text
  | rule n => paint style "36" (repeated n '═')
  | success text => "  " ++ paint style "32" "✓" ++ " " ++ text
  | warning text => "  " ++ paint style "33" "⚠" ++ " " ++ text
  | plain text => "  " ++ text
  | row key value => "  " ++ paint style "33" key ++ " │ " ++ value
  | fence language => paint style "2" ("```" ++ language)
  | code text => text
  | whole text => text

/-- A line in ASCII. -/
def Line.plainText : Line → String
  | blank => ""
  | title text => text
  | rule n => repeated n '='
  | success text => "  [OK] " ++ text
  | warning text => "  [WARN] " ++ text
  | plain text => "  " ++ text
  | row key value => "  " ++ key ++ " : " ++ value
  | fence language => "```" ++ language
  | code text => text
  | whole text => text

/-- What is printed for a line, without the line break; nothing if the
line is not for the reader. -/
def Line.text? (style : Style) (line : Line) : Option String :=
  match style.mode with
  | .human => some (line.humanText style)
  | .plain => some line.plainText
  | .json =>
    match line with
    | whole text => some text
    | _ => none

/-- What is printed for lines. -/
def print (style : Style) (lines : List Line) : String :=
  String.join ((lines.filterMap (Line.text? style)).map (· ++ "\n"))

/-- The lines of a title. -/
def titled (title : String) : List Line :=
  [.blank, .title title, .rule title.length]

/-- A key, filled up to a width. -/
def paddedKey (width : Nat) (key : String) : String :=
  key ++ repeated (width - key.length) ' '

/-- The lines of a table of keys and values. All keys are filled up to the
number of bytes of the longest, which no key exceeds in characters. -/
def tableLines (rows : List (String × String)) : List Line :=
  let width := (rows.map fun r => Text.byteLength r.1.toList).foldl max 0
  rows.map fun r => .row (paddedKey width r.1) r.2

/-- The lines of a piece of code, of which blanks at the end are not
shown. -/
def codeLines (language code : String) : List Line :=
  [.fence language, .code (String.ofList (Text.trimEnd code.toList)), .fence ""]

end ShellPreview.Report
