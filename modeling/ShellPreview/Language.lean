import ShellPreview.Text.Search
/-!
# Languages of code

The language of a piece of code is guessed from markers: the languages are
tried in a fixed order, and the first one with a marker in the code is
taken. Code without any marker is plain text.
-/

namespace ShellPreview

/-- A language that code is said to be in. -/
inductive Language
  | bash
  | powerShell
  | python
  | javaScript
  | c
  | java
  | text
deriving DecidableEq, Inhabited

namespace Language

/-- All languages, in the order in which messages list them. -/
def all : List Language :=
  [.bash, .powerShell, .python, .javaScript, .c, .java, .text]

/-- The name of a language. -/
def name : Language → String
  | .bash => "bash"
  | .powerShell => "powershell"
  | .python => "python"
  | .javaScript => "javascript"
  | .c => "c"
  | .java => "java"
  | .text => "text"

/-- The language with a name. -/
def ofName? (s : String) : Option Language :=
  all.find? (fun l => l.name == s)

/-- Every language is found by its name. -/
theorem ofName?_name (l : Language) : ofName? l.name = some l := by
  cases l <;> rfl

/-- The pieces of text that mark code as being in a language. -/
def markers : Language → List String
  | .bash => ["#!/bin/bash", "#!/bin/sh"]
  | .powerShell => ["function ", "$", "param("]
  | .python => ["import ", "def ", "python"]
  | .javaScript => ["const ", "let ", "var "]
  | .c => ["#include", "int main"]
  | .java => ["public class", "import java"]
  | .text => []

/-- Whether the code holds a marker of the language. -/
def marks (l : Language) (code : String) : Bool :=
  l.markers.any (Text.holds code)

/-- The first language with a marker in the code. -/
def detect (code : String) : Language :=
  (all.find? (fun l => l.marks code)).getD .text

end Language

end ShellPreview
