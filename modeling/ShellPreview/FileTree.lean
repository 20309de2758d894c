/-!
# Trees of files

A tree of regular files and directories, as a value. A path is followed
name by name from the root or from a working directory; every name but
the last must be that of a directory. `FileTree.read`, `FileTree.write`
and `FileTree.createParent` are what a program needs that keeps one file.
-/

namespace ShellPreview

/-- Why a path cannot be used. -/
inductive FileFault
  | missing
  | alreadyThere
  | notDirectory
  | isDirectory
  | notText
deriving DecidableEq

/-- The wording of a fault. -/
def FileFault.message : FileFault → String
  | .missing => "No such file or directory (os error 2)"
  | .alreadyThere => "File exists (os error 17)"
  | .notDirectory => "Not a directory (os error 20)"
  | .isDirectory => "Is a directory (os error 21)"
  | .notText => "stream did not contain valid UTF-8"

/-- What a name stands for. -/
inductive FileTree.Entry
  | file (bytes : ByteArray)
  | directory

/-- Files are the same if their bytes are. -/
instance : DecidableEq FileTree.Entry
  | .file a, .file b => decidable_of_iff (a.data = b.data)
      ⟨fun h => congrArg _ (ByteArray.ext h), fun h => congrArg _ (FileTree.Entry.file.inj h)⟩
  | .directory, .directory => isTrue rfl
  | .file _, .directory => isFalse nofun
  | .directory, .file _ => isFalse nofun

/-- A tree of files: what stands at the places that are in use, given by
the names from the root. The root is always a directory. -/
structure FileTree where
  entries : List (List String × FileTree.Entry)

namespace FileTree

/-- What stands at a place. -/
def get? (t : FileTree) : List String → Option Entry
  | [] => some .directory
  | place => t.entries.lookup place

/-- Puts an entry at a place. -/
def put (t : FileTree) (place : List String) (e : Entry) : FileTree :=
  ⟨(place, e) :: t.entries.filter fun x => x.1 ≠ place⟩

/-- The names in a path; empty names and single dots do not count. -/
def names (path : String) : List String :=
  ((path.toList.splitOn '/').map String.ofList).filter fun n => n ≠ "" ∧ n ≠ "."

/-- Whether a path starts at the root. -/
def isAbsolute (path : String) : Bool :=
  path.toList.head? == some '/'

/-- Whether a path can only be that of a directory. -/
def endsInDirectory (path : String) : Bool :=
  match (path.toList.splitOn '/').getLast? with
  | some [] => true
  | some ['.'] => true
  | _ => false

/-- The place of a directory, from the place of another one. -/
def walk (t : FileTree) : List String → List String → Except FileFault (List String)
  | place, [] => .ok place
  | place, name :: rest =>
    if name = ".." then t.walk place.dropLast rest
    else
      match t.get? (place ++ [name]) with
      | some .directory => t.walk (place ++ [name]) rest
      | some (.file _) => .error .notDirectory
      | none => .error .missing

/-- The place that names lead to from a directory, and what stands
there. -/
def locate (t : FileTree) (start : List String) (names : List String) :
    Except FileFault (List String × Option Entry) :=
  match names.getLast? with
  | none => .ok (start, t.get? start)
  | some name =>
    match t.walk start names.dropLast with
    | .error fault => .error fault
    | .ok place =>
      let target := if name = ".." then place.dropLast else place ++ [name]
      .ok (target, t.get? target)

/-- Where a path starts. -/
def origin (working : List String) (path : String) : List String :=
  if isAbsolute path then [] else working

/-- The place of a path and what stands there. -/
def find (t : FileTree) (working : List String) (path : String) :
    Except FileFault (List String × Option Entry) :=
  match t.locate (origin working path) (names path) with
  | .error fault => .error fault
  | .ok (place, some (.file bytes)) =>
    if endsInDirectory path then .error .notDirectory else .ok (place, some (.file bytes))
  | .ok found => .ok found

/-- Whether anything stands at a path. -/
def contains (t : FileTree) (working : List String) (path : String) : Bool :=
  match t.find working path with
  | .ok (_, some _) => true
  | _ => false

/-- The bytes of the file at a path. -/
def read (t : FileTree) (working : List String) (path : String) : Except FileFault ByteArray :=
  match t.find working path with
  | .error fault => .error fault
  | .ok (_, none) => .error .missing
  | .ok (_, some .directory) => .error .isDirectory
  | .ok (_, some (.file bytes)) => .ok bytes

/-- Makes one directory. -/
def createDirectory (t : FileTree) (start names : List String) : Except FileFault FileTree :=
  match t.locate start names with
  | .error fault => .error fault
  | .ok (_, some _) => .error .alreadyThere
  | .ok (place, none) => .ok (t.put place .directory)

/-- Whether a directory stands where names lead. -/
def isDirectory (t : FileTree) (start names : List String) : Bool :=
  match t.locate start names with
  | .ok (_, some .directory) => true
  | _ => false

/-- Makes a directory, and those above it that are missing. The names come
in reverse. What has been made stays, also if the rest cannot be made. -/
def createUpward (t : FileTree) (start : List String) : List String → FileTree × Option FileFault
  | [] => (t, none)
  | name :: above =>
    let names := (name :: above).reverse
    match t.createDirectory start names with
    | .ok t' => (t', none)
    | .error .missing =>
      match t.createUpward start above with
      | (t', some fault) => (t', some fault)
      | (t', none) =>
        match t'.createDirectory start names with
        | .ok t'' => (t'', none)
        | .error fault => (t', if t'.isDirectory start names then none else some fault)
    | .error fault => (t, if t.isDirectory start names then none else some fault)

/-- Makes the directory in which a path lies, as far as that is possible:
the tree afterwards, and why it could not be made. -/
def makeParent (t : FileTree) (working : List String) (path : String) :
    FileTree × Option FileFault :=
  t.createUpward (origin working path) ((names path).reverse.drop 1)

/-- Makes the directory in which a path lies. -/
def createParent (t : FileTree) (working : List String) (path : String) :
    Except FileFault FileTree :=
  match t.makeParent working path with
  | (t', none) => .ok t'
  | (_, some fault) => .error fault

/-- Whether the last name of a path is a dot, behind which slashes may
stand. -/
def endsInDot (path : String) : Bool :=
  ((path.toList.splitOn '/').filter (· ≠ [])).getLast? == some ['.']

/-- Writes a file. -/
def write (t : FileTree) (working : List String) (path : String) (bytes : ByteArray) :
    Except FileFault FileTree :=
  match t.locate (origin working path) (names path) with
  | .error fault => .error fault
  | .ok (_, some .directory) => .error .isDirectory
  | .ok (place, found) =>
    if endsInDot path then .error (if found.isSome then .notDirectory else .missing)
    else if endsInDirectory path then .error .isDirectory
    else .ok (t.put place (.file bytes))

end FileTree

end ShellPreview
