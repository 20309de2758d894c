import ShellPreview.Text.Blank
import ShellPreview.Text.Search
/-!
# What can be read off a command line

Small questions about a command: which code is written in it, which flags
it has, where its output goes. A command is only ever looked at as text or
as words between blanks; quotes have no meaning but for inline code.
-/

namespace ShellPreview.Command

/-- A quote of either kind. -/
def isQuote (c : Char) : Bool :=
  c == '\x27' || c == '\x22'

/-- The code between quotes with which the text begins, behind blanks. It
is not empty, and any quote ends it. -/
def quotedArgument (cs : List Char) : Option (List Char) :=
  match Text.trimStart cs with
  | [] => none
  | q :: r =>
    let code := r.takeWhile fun c => !isQuote c
    if isQuote q && !code.isEmpty && code.length < r.length then some code else none

/-- The quoted argument of an option `-c` with which the text begins; at
least one blank must stand between them. -/
def inlineCodeAtFront : List Char → Option (List Char)
  | '-' :: 'c' :: b :: r => if Text.isBlank b then quotedArgument r else none
  | _ => none

/-- The quoted argument of the first option `-c` that has one. -/
def inlineCodeIn : List Char → Option (List Char)
  | [] => none
  | c :: cs =>
    match inlineCodeAtFront (c :: cs) with
    | some code => some code
    | none => inlineCodeIn cs

/-- The code that is written in a command. -/
def inlineCode (command : String) : Option String :=
  (inlineCodeIn command.toList).map String.ofList

/-- Whether a command names a library that uses the network. -/
def usesNetworkLibrary (command : String) : Bool :=
  Text.holds command "urllib" || Text.holds command "requests"

/-- Whether the output of a command goes to a shell. -/
def pipesToShell (command : String) : Bool :=
  Text.holds command "| bash" || Text.holds command "| sh"

/-- Whether a word is a cluster of short options that has the letter. -/
def isCluster (letter : Char) : List Char → Bool
  | '-' :: '-' :: _ => false
  | '-' :: letters => letters.contains letter
  | _ => false

/-- Whether a command has an option, as a letter or by its long name. -/
def hasFlag (command : String) (letter : Char) (long : String) : Bool :=
  (Text.words command.toList).any fun word => word == long.toList || isCluster letter word

/-- Whether a word, given the one behind it, sends a document to the
standard output. -/
def isOutputWord (word : List Char) (next : Option (List Char)) : Bool :=
  if word = "--output-document=-".toList then true
  else if word = "--output-document".toList then next == some ['-']
  else
    match word with
    | '-' :: '-' :: _ => false
    | '-' :: _ =>
      (['O', '-'].isSuffixOf word) || (['O'].isSuffixOf word && next == some ['-'])
    | _ => false

/-- Whether one of the words sends a document to the standard output. -/
def anyOutputWord : List (List Char) → Bool
  | [] => false
  | word :: words => isOutputWord word words.head? || anyOutputWord words

/-- Whether a command writes what it downloads to the standard output. -/
def writesToStdout (command : String) : Bool :=
  anyOutputWord (Text.words command.toList)

end ShellPreview.Command
