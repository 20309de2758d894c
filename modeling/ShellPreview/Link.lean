import ShellPreview.Text.Blank
import ShellPreview.Text.Ordered
/-!
# Links in a text

A link is `http://` or `https://` and all that follows up to the next
stop, which must be at least one character. In a command, blanks and
quotes are stops; in a document, brackets of two kinds are stops too.
Links do not overlap: the search goes on behind the stop that ends a link.
-/

namespace ShellPreview.Link

/-- What ends a link in a command. -/
def isCommandStop (c : Char) : Bool :=
  Text.isBlank c || c == '\x27' || c == '\x22'

/-- What ends a link in a document. -/
def isDocumentStop (c : Char) : Bool :=
  isCommandStop c || c == '<' || c == '>' || c == '(' || c == ')'

/-- What follows the scheme of a link, if the text begins with one. -/
def afterScheme : List Char → Option (List Char)
  | 'h' :: 't' :: 't' :: 'p' :: ':' :: '/' :: '/' :: r => some r
  | 'h' :: 't' :: 't' :: 'p' :: 's' :: ':' :: '/' :: '/' :: r => some r
  | _ => none

/-- The link with which the text begins. -/
def atFront (stop : Char → Bool) (cs : List Char) : Option (List Char) :=
  match afterScheme cs with
  | some (c :: _) => if stop c then none else some (cs.takeWhile fun c => !stop c)
  | _ => none

/-- The first link of a text. -/
def first (stop : Char → Bool) : List Char → Option (List Char)
  | [] => none
  | c :: cs =>
    match atFront stop (c :: cs) with
    | some link => some link
    | none => first stop cs

/-- All links of a text, from the left; `inside` says that a link has
begun whose stop is still to come. -/
def every (stop : Char → Bool) : Bool → List Char → List (List Char)
  | _, [] => []
  | true, c :: cs => every stop (!stop c) cs
  | false, c :: cs =>
    match atFront stop (c :: cs) with
    | some link => link :: every stop true cs
    | none => every stop false cs

/-- The first link of a command. -/
def ofCommand (command : String) : Option String :=
  (first isCommandStop command.toList).map String.ofList

/-- The set of the links of a document. -/
def ofDocument (text : String) : List String :=
  Text.Ordered.ofList ((every isDocumentStop false text.toList).map String.ofList)

end ShellPreview.Link
