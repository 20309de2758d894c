import ShellPreview.Number.Duration
/-!
# Why a download fails

Each way to a document can fail for a reason of its own; a download fails
when all ways have. `Error.message` is the wording of a reason, `Failure.text`
and `Failure.summary` say that a download failed, without and with the
reasons.
-/

namespace ShellPreview.Fetch

/-- Why one way to a document failed. -/
inductive Error
  /-- No answer could be had. -/
  | transport (message : String)
  /-- The answer was a code other than success. -/
  | status (code : Nat)
  /-- No answer came in so many nanoseconds. -/
  | timeout (ns : Nat)
  /-- The document holds nothing but blanks. -/
  | empty
  /-- The document does not have more characters than it must. -/
  | tooShort (length least : Nat)
  /-- A relay's answer is no JSON. -/
  | invalidJson (message : String)
  /-- A relay's answer does not hold a document. -/
  | missingContents
  /-- The network must not be used. -/
  | offline
deriving DecidableEq

/-- The wording of a reason. -/
def Error.message : Error → String
  | .transport message => "request failed: " ++ message
  | .status code => "server returned HTTP " ++ Nat.repr code
  | .timeout ns => "timed out after " ++ Number.durationText ns
  | .empty => "response body was empty"
  | .tooShort length least =>
    "response too short (" ++ Nat.repr length ++ " chars, need more than " ++ Nat.repr least ++ ")"
  | .invalidJson message => "relay response was not valid JSON: " ++ message
  | .missingContents => "relay response had no `contents` field"
  | .offline => "network access is disabled"

/-- A way that was tried, and why it failed. -/
structure Attempt where
  route : String
  error : Error
deriving DecidableEq

/-- An attempt on one line. -/
def Attempt.text (a : Attempt) : String :=
  a.route ++ ": " ++ a.error.message

/-- All ways to a document failed. -/
structure Failure where
  requestedUrl : String
  resolvedUrl : String
  attempts : List Attempt
deriving DecidableEq

/-- That a download failed. -/
def Failure.text (f : Failure) : String :=
  "all fetch routes failed for " ++ f.requestedUrl ++ " (" ++ Nat.repr f.attempts.length ++
    " attempts)"

/-- That a download failed, and why. -/
def Failure.summary (f : Failure) : String :=
  let details := String.intercalate "; " (f.attempts.map Attempt.text)
  if details.isEmpty then f.text else f.text ++ " [" ++ details ++ "]"

end ShellPreview.Fetch
