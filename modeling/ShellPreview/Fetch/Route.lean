import ShellPreview.Fetch.Failure
import ShellPreview.Json.Reader
import ShellPreview.Url.Percent
/-!
# Ways to a document

A document is asked for directly or through a relay. A relay is asked by
putting the URL, escaped or as it is, behind a fixed text; its answer is
the document, or a JSON object that holds it.
-/

namespace ShellPreview.Fetch

/-- How a relay answers. -/
inductive RelayFormat
  | raw
  | jsonContents
deriving DecidableEq

/-- The name of a format. -/
def RelayFormat.name : RelayFormat → String
  | .raw => "raw"
  | .jsonContents => "jsonContents"

/-- All formats. -/
def RelayFormat.all : List RelayFormat := [.raw, .jsonContents]

/-- The format with a name. -/
def RelayFormat.ofName? (s : String) : Option RelayFormat :=
  all.find? fun f => f.name == s

/-- A way to a document. -/
inductive Route
  | relay (name base : String) (format : RelayFormat) (encodeTarget : Bool)
  | direct
deriving DecidableEq

namespace Route

/-- What a way is called. -/
def name : Route → String
  | relay name _ _ _ => name
  | direct => "direct"

/-- The URL that is asked for a target. -/
def requestUrl : Route → String → String
  | relay _ base _ true, target => base ++ Url.Percent.component target
  | relay _ base _ false, target => base ++ target
  | direct, target => target

/-- The document in the JSON text of a relay. -/
def contentsOf (body : String) : Except Error String :=
  match Json.parse body with
  | .error fault => .error (.invalidJson fault.message)
  | .ok v =>
    match v.get? "contents" with
    | some (.text s) => .ok s
    | _ => .error .missingContents

/-- The document in an answer. -/
def unwrap : Route → String → Except Error String
  | relay _ _ .jsonContents _, body => contentsOf body
  | _, body => .ok body

end Route

end ShellPreview.Fetch
