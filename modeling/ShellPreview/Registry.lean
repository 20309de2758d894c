import ShellPreview.Pattern.Parser
import ShellPreview.Text.Search
/-!
# Package managers and programming tools

Two tables say which commands belong to a package manager and which to a
programming tool. An entry of the first table has a pattern that finds the
package in a command; `Registry.compile` reads all patterns and refuses
the tables if one of them is no pattern.
-/

namespace ShellPreview

/-- An entry of the table of package managers. -/
structure Manager where
  /-- The word by which a command names the manager. -/
  token : String
  name : String
  description : String
  /-- A URL with a mark where the package goes; empty if there is none. -/
  searchTemplate : String
  /-- A pattern with groups, of which the first that matches some text is
  the package. -/
  installPattern : String
deriving DecidableEq

/-- An entry of the table of programming tools. -/
structure Tool where
  token : String
  name : String
  description : String
deriving DecidableEq

/-- A package manager whose pattern has been read. -/
structure Installer extends Manager where
  pattern : Pattern
deriving DecidableEq

/-- The tables in use. -/
structure Registry where
  managers : List Installer
  tools : List Tool

/-- The pattern of a package manager is refused. -/
structure BadPattern where
  token : String
  refusal : Pattern.Refusal
deriving DecidableEq

namespace Manager

/-- Whether the command begins with the manager's word. -/
def leads (m : Manager) (command : String) : Bool :=
  Text.begins command (m.token ++ " ")

/-- Whether the manager's word stands in the command between blanks. -/
def serves (m : Manager) (command : String) : Bool :=
  m.leads command || Text.holds command (" " ++ m.token ++ " ")

/-- Where to look for a package. -/
def searchUrl (m : Manager) (package : String) : Option String :=
  if m.searchTemplate.isEmpty then none
  else some (Text.replaceAll m.searchTemplate "\x7bpackage\x7d" package)

/-- Reads the pattern of a package manager. -/
def compile (m : Manager) : Except BadPattern Installer :=
  match Pattern.parse m.installPattern with
  | .error refusal => .error ⟨m.token, refusal⟩
  | .ok pattern => .ok { m with pattern }

end Manager

/-- The package that a command would install. -/
def Installer.packageName (i : Installer) (command : String) : Option String :=
  i.pattern.firstText command

namespace Tool

/-- Whether the command is the tool's word, or begins with it. -/
def serves (t : Tool) (command : String) : Bool :=
  command == t.token || Text.begins command (t.token ++ " ")

/-- Whether the tool runs Python. -/
def isPython (t : Tool) : Bool :=
  t.token == "python" || t.token == "python3"

end Tool

namespace Registry

/-- Reads all patterns of the table of package managers. -/
def compile (managers : List Manager) (tools : List Tool) : Except BadPattern Registry :=
  (managers.mapM Manager.compile).map fun managers => ⟨managers, tools⟩

/-- The package manager of a command: the first one whose word leads the
command, else the first one whose word stands in it. -/
def managerFor (r : Registry) (command : String) : Option Installer :=
  (r.managers.find? fun m => m.leads command).or (r.managers.find? fun m => m.serves command)

/-- The programming tool of a command. -/
def toolFor (r : Registry) (command : String) : Option Tool :=
  r.tools.find? fun t => t.serves command

end Registry

end ShellPreview
