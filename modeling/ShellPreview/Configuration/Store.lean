import ShellPreview.Configuration
import ShellPreview.FileTree
/-!
# Keeping the configuration in a file

The configuration is read from a path that was asked for, which must
exist, or from its usual path, which need not: without a file the built-in
configuration is in force.
-/

namespace ShellPreview

namespace Configuration

/-- Why there is no configuration. -/
inductive Error
  | notFound (path : String)
  | unreadable (path : String) (fault : FileFault)
  | unparsable (path : String) (fault : Json.Fault)
  | badPattern (bad : BadPattern)

/-- What lies behind an error, if it is not the whole of it. -/
def Error.cause? : Error → Option String
  | .notFound _ => none
  | .unreadable _ fault => some fault.message
  | .unparsable _ fault => some fault.message
  | .badPattern bad => some bad.refusal.message

/-- The wording of an error. -/
def Error.message : Error → String
  | .notFound path => "Config file not found: " ++ path
  | .unreadable path fault => "Could not read " ++ path ++ ": " ++ fault.message
  | .unparsable path fault => "Could not parse " ++ path ++ ": " ++ fault.message
  | .badPattern bad =>
    "Invalid install pattern for `" ++ bad.token ++ "`: " ++ bad.refusal.message

/-- Reads the configuration at a path, which must exist. -/
def loadFrom (tree : FileTree) (working : List String) (path : String) :
    Except Error Configuration :=
  if !tree.contains working path then .error (.notFound path)
  else
    match tree.read working path with
    | .error fault => .error (.unreadable path fault)
    | .ok bytes =>
      match Text.decode bytes with
      | none => .error (.unreadable path .notText)
      | some text =>
        match parse text with
        | .error fault => .error (.unparsable path fault)
        | .ok c => .ok c

/-- Reads the configuration at the path that was asked for, or at the usual
one. -/
def load (tree : FileTree) (working : List String) (asked : Option String) (usual : String) :
    Except Error Configuration :=
  match asked with
  | some path => loadFrom tree working path
  | none => if tree.contains working usual then loadFrom tree working usual else .ok .default

/-- Writes the configuration to a path. -/
def saveTo (c : Configuration) (tree : FileTree) (working : List String) (path : String) :
    Except Error FileTree :=
  match tree.createParent working path with
  | .error fault => .error (.unreadable path fault)
  | .ok tree =>
    match tree.write working path c.text.toUTF8 with
    | .error fault => .error (.unreadable path fault)
    | .ok tree => .ok tree

/-- The tables of a configuration, with their patterns read. -/
def tables (c : Configuration) : Except Error Registry :=
  match c.registry with
  | .error bad => .error (.badPattern bad)
  | .ok r => .ok r

/-- A name behind a path. -/
def join (path name : String) : String :=
  if path.isEmpty || path.toList.getLast? == some '/' then path ++ name else path ++ "/" ++ name

/-- The usual path: in the directory for configurations, if that is given
as a path from the root, and else in the home directory. -/
def usualPath (environment : List (String × String)) : String :=
  let home := (environment.lookup "HOME").getD ""
  let directory :=
    match environment.lookup "XDG_CONFIG_HOME" with
    | some path => if FileTree.isAbsolute path then path else join home ".config"
    | none => join home ".config"
  join (join directory "cmdpeek") "config.json"

end Configuration

end ShellPreview
