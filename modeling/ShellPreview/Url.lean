import ShellPreview.Text.Search
import ShellPreview.Url.Host
/-!
# URLs

A URL has a scheme, perhaps a host, and a path, which is a list of
segments or, where a scheme has no paths of its own, some other text.
`Url.parse` reads one the way browsers do: control characters and blanks
around it and line breaks in it do not count; segments that are one or two
dots are carried out; characters that a path may not hold are escaped.
What stands behind the path is not kept.
-/

namespace ShellPreview

/-- A URL without its query and fragment. -/
structure Url where
  scheme : String
  hasHost : Bool
  /-- The segments of the path, if it has segments. -/
  segments : List (List Char)

namespace Url

/-- Schemes that know about hosts and paths: in them a backslash is a
slash and a path is never empty. -/
def isSpecial (scheme : String) : Bool :=
  ["http", "https", "ws", "wss", "ftp", "file"].contains scheme

/-- The scheme in small letters, and what stands behind its colon. -/
def splitScheme (cs : List Char) : Option (String × List Char) :=
  let isSchemeChar (c : Char) : Bool := c.isAlphanum || c == '+' || c == '-' || c == '.'
  match cs.dropWhile isSchemeChar with
  | ':' :: r =>
    if cs.head?.any Char.isAlpha then
      some (String.ofList ((cs.takeWhile isSchemeChar).map Char.toLower), r)
    else none
  | _ => none

/-- Whether a character is a slash of a path. -/
def isSlash (special : Bool) (c : Char) : Bool :=
  c == '/' || (special && c == '\\')

/-- What ends a host, and the names before and the number behind it. -/
def isAuthorityEnd (special : Bool) (c : Char) : Bool :=
  isSlash special c || c == '?' || c == '#'

/-- One dot, as it may be spelled. -/
def isDot (segment : List Char) : Bool :=
  [".", "%2e"].contains (String.ofList segment).toLower

/-- Two dots, as they may be spelled. -/
def isTwoDots (segment : List Char) : Bool :=
  ["..", ".%2e", "%2e.", "%2e%2e"].contains (String.ofList segment).toLower

/-- The letter of a drive, with a colon or a bar. -/
def isDrive : List Char → Bool
  | [a, b] => a.isAlpha && (b == ':' || b == '|')
  | _ => false

/-- Carries out one piece of a path. The segments so far stand in reverse;
`isLast` says that no slash follows the piece. The drive of a file is
never left. -/
def addSegment (file isLast : Bool) (done : List (List Char)) (piece : List Char) :
    List (List Char) :=
  let closed (done : List (List Char)) : List (List Char) := if isLast then [] :: done else done
  if isTwoDots piece then
    closed (match done with
      | [] => []
      | [d] => if file && isDrive d then [d] else []
      | _ :: done => done)
  else if isDot piece then closed done
  else if file && done.isEmpty && isDrive piece then [piece.take 1 ++ [':']]
  else Percent.encode Percent.isPathChar piece :: done

/-- Carries out all pieces of a path. -/
def addSegments (file : Bool) : List (List Char) → List (List Char) → List (List Char)
  | done, [] => done
  | done, [piece] => addSegment file true done piece
  | done, piece :: pieces => addSegments file (addSegment file false done piece) pieces

/-- The segments of what stands behind the first slash of a path. -/
def pathSegments (special file : Bool) (cs : List Char) : List (List Char) :=
  let path := cs.takeWhile fun c => c != '?' && c != '#'
  (addSegments file [] (path.splitOnP (isSlash special))).reverse

/-- What stands behind the last at sign, and whether something stands
before it. -/
def dropUser (cs : List Char) : List Char × Option Bool :=
  if '@' ∈ cs then
    let user := (cs.reverse.dropWhile (· ≠ '@')).drop 1
    ((cs.reverse.takeWhile (· ≠ '@')).reverse, some !user.isEmpty)
  else (cs, none)

/-- The host in front of a colon and a number; colons in square brackets do
not count. -/
def splitHost : Bool → List Char → List Char × List Char
  | _, [] => ([], [])
  | bracket, c :: cs =>
    if c = ':' ∧ !bracket then ([], c :: cs)
    else
      let bracket := if c = '[' then true else if c = ']' then false else bracket
      let (host, rest) := splitHost bracket cs
      (c :: host, rest)

/-- What stands behind the number of a service, if there is one and it is
small enough. -/
def dropService : List Char → Option (List Char)
  | ':' :: cs =>
    let number := (cs.takeWhile Char.isDigit).foldl (fun n c => 10 * n + (c.toNat - '0'.toNat)) 0
    match cs.dropWhile Char.isDigit with
    | [] => if number < 65536 then some [] else none
    | '\\' :: r => if number < 65536 then some ('\\' :: r) else none
    | _ => none
  | cs => some cs

/-- Reads what stands behind two slashes in a URL that is no file. -/
def parseAuthority (scheme : String) (cs : List Char) : Option Url :=
  let special := isSpecial scheme
  let front := cs.takeWhile fun c => !isAuthorityEnd special c
  let rest := cs.dropWhile fun c => !isAuthorityEnd special c
  let (address, user) := dropUser front
  if user == some false && address.isEmpty && !rest.isEmpty then none
  else
    let (host, service) := splitHost false address
    let bad :=
      if host.isEmpty then special || user == some true || !service.isEmpty
      else if special then !Host.isKnown host
      else !Host.isOpaque host
    match bad, dropService service with
    | true, _ => none
    | _, none => none
    | false, some behind =>
      let path := behind ++ rest
      let segments :=
        match path with
        | [] => if special then [[]] else []
        | c :: r =>
          if isSlash special c then pathSegments special false r
          else if !special && (c == '?' || c == '#') then []
          else pathSegments special false (c :: r)
      some ⟨scheme, !host.isEmpty, segments⟩

/-- The segments of a file's path. A slash in front does not count. -/
def fileSegments : List Char → List (List Char)
  | [] => pathSegments true true []
  | c :: cs => pathSegments true true (if isSlash true c then cs else c :: cs)

/-- Reads what stands behind the two slashes of a file. A drive is no
host. -/
def parseFileHost (cs : List Char) : Option Url :=
  let isEnd (c : Char) : Bool := isAuthorityEnd true c
  let host := cs.takeWhile fun c => !isEnd c
  if isDrive host then some ⟨"file", false, pathSegments true true cs⟩
  else if host.isEmpty || Host.isKnown host then
    some ⟨"file", !host.isEmpty, fileSegments (cs.dropWhile fun c => !isEnd c)⟩
  else none

/-- Reads what stands behind the colon of a file. -/
def parseFile (cs : List Char) : Option Url :=
  match cs with
  | a :: b :: r =>
    if isSlash true a && isSlash true b then parseFileHost r
    else some ⟨"file", false, fileSegments (a :: b :: r)⟩
  | cs => some ⟨"file", false, fileSegments cs⟩

/-- The characters that count: no control characters and blanks around
them, no line breaks and tabs between them. -/
def cleaned (s : String) : List Char :=
  let outer (c : Char) : Bool := c.toNat ≤ 0x20
  let cs := ((s.toList.dropWhile outer).reverse.dropWhile outer).reverse
  cs.filter fun c => c != '\t' && c != '\n' && c != '\r'

/-- Reads a URL. -/
def parse (s : String) : Option Url :=
  match splitScheme (cleaned s) with
  | none => none
  | some (scheme, r) =>
    if scheme = "file" then parseFile r
    else if isSpecial scheme then parseAuthority scheme (r.dropWhile (isSlash true))
    else
      match r with
      | '/' :: '/' :: r => parseAuthority scheme r
      | '/' :: r => some ⟨scheme, false, pathSegments false false r⟩
      | _ => some ⟨scheme, false, []⟩

/-- The last segment of the path, if it names a file. -/
def fileName (s : String) : Option String :=
  match parse s with
  | none => none
  | some url =>
    match url.segments.getLast? with
    | none => none
    | some segment => if segment.isEmpty then none else some (String.ofList segment)

/-- The file name from its last point on, if it has one. -/
def fileExtension (s : String) : Option String :=
  match fileName s with
  | none => none
  | some name => (Text.fromLast '.' name.toList).map String.ofList

end Url

end ShellPreview
