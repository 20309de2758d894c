import ShellPreview.Json.Printer
import ShellPreview.Text.Quoted
import ShellPreview.Text.Utf8
/-!
# Why a JSON text or value is refused

A `Cause` says what is wrong: the text is no JSON (the first group of
constructors), or the value is not of the form that was asked for (the
second group). `Cause.message` is the wording. A fault found in a text has
a `Place`, a line and a number of bytes into that line; a fault found in a
value has none.

While a text is read, a fault of the second group may be noticed before it
is known where to report it: it is reported behind the bracket that closes
the enclosing list or object. Such a `Stop` is `loose` and holds the text
that is still unread; all others are `fixed` at a number of unread bytes.
-/

namespace ShellPreview.Json

/-- What was met in place of what was expected. -/
inductive Found
  | null
  | flag (b : Bool)
  | number (n : Numeral)
  | text (s : String)
  | list
  | map

/-- The description of what was met. -/
def Found.describe : Found → String
  | .null => "null"
  | .flag b => "boolean `" ++ (if b then "true" else "false") ++ "`"
  | .number (.whole i) => "integer `" ++ String.ofList (wholeText i) ++ "`"
  | .number (.real x) => "floating point `" ++ x.text ++ "`"
  | .text s => "string " ++ Text.quoted s
  | .list => "sequence"
  | .map => "map"

/-- What a value is, seen from outside. -/
def found : Json → Found
  | .null => .null
  | .flag b => .flag b
  | .number n => .number n
  | .text s => .text s
  | .list _ => .list
  | .object _ => .map

/-- What is wrong with a text or a value. -/
inductive Cause
  | eofValue
  | eofList
  | eofObject
  | eofText
  | expectedColon
  | expectedListEnd
  | expectedObjectEnd
  | expectedWord
  | expectedValue
  | invalidEscape
  | invalidNumber
  | numberRange
  | keyNotText
  | controlCharacter
  | loneSurrogate
  | unendedEscape
  | trailingComma
  | trailingCharacters
  | tooDeep
  | wrongType (met : Found) (expected : String)
  | wrongValue (met : Found) (expected : String)
  | wrongLength (length : Nat) (expected : String)
  | unknownVariant (name : String) (known : List String)
  | missingField (key : String)
  | duplicateField (key : String)

/-- The known names, as a message lists them. -/
def oneOf : List String → String
  | [] => "there are no variants"
  | [a] => "expected `" ++ a ++ "`"
  | [a, b] => "expected `" ++ a ++ "` or `" ++ b ++ "`"
  | names => "expected one of " ++ String.intercalate ", " (names.map fun n => "`" ++ n ++ "`")

/-- The wording of a cause. -/
def Cause.message : Cause → String
  | .eofValue => "EOF while parsing a value"
  | .eofList => "EOF while parsing a list"
  | .eofObject => "EOF while parsing an object"
  | .eofText => "EOF while parsing a string"
  | .expectedColon => "expected `:`"
  | .expectedListEnd => "expected `,` or `]`"
  | .expectedObjectEnd => "expected `,` or `\x7d`"
  | .expectedWord => "expected ident"
  | .expectedValue => "expected value"
  | .invalidEscape => "invalid escape"
  | .invalidNumber => "invalid number"
  | .numberRange => "number out of range"
  | .keyNotText => "key must be a string"
  | .controlCharacter => "control character (\\u0000-\\u001F) found while parsing a string"
  | .loneSurrogate => "lone leading surrogate in hex escape"
  | .unendedEscape => "unexpected end of hex escape"
  | .trailingComma => "trailing comma"
  | .trailingCharacters => "trailing characters"
  | .tooDeep => "recursion limit exceeded"
  | .wrongType met expected => "invalid type: " ++ met.describe ++ ", expected " ++ expected
  | .wrongValue met expected => "invalid value: " ++ met.describe ++ ", expected " ++ expected
  | .wrongLength n expected => "invalid length " ++ Nat.repr n ++ ", expected " ++ expected
  | .unknownVariant name known => "unknown variant `" ++ name ++ "`, " ++ oneOf known
  | .missingField key => "missing field `" ++ key ++ "`"
  | .duplicateField key => "duplicate field `" ++ key ++ "`"

/-- A line, counted from one, and a number of bytes into it. -/
structure Place where
  line : Nat
  column : Nat
deriving DecidableEq

/-- The place that many bytes into a text that starts at a place. -/
def Place.after (p : Place) : List Char → Nat → Place
  | [], _ => p
  | c :: cs, bytes =>
    if bytes = 0 then p
    else if bytes < c.utf8Size then ⟨p.line, p.column + bytes⟩
    else if c = '\n' then Place.after ⟨p.line + 1, 0⟩ cs (bytes - 1)
    else Place.after ⟨p.line, p.column + c.utf8Size⟩ cs (bytes - c.utf8Size)

/-- A cause, with its place when a text was read. -/
structure Fault where
  cause : Cause
  place : Option Place

/-- The wording of a fault. -/
def Fault.message (f : Fault) : String :=
  match f.place with
  | none => f.cause.message
  | some p =>
    f.cause.message ++ " at line " ++ Nat.repr p.line ++ " column " ++ Nat.repr p.column

/-- Why reading a text stopped. -/
inductive Stop
  | fixed (cause : Cause) (unread : Nat)
  | loose (cause : Cause) (rest : List Char)

/-- A fault at the point where reading stands. -/
def Stop.here (cause : Cause) (rest : List Char) : Stop :=
  .fixed cause (Text.byteLength rest)

/-- A fault in the byte that comes next. -/
def Stop.ahead (cause : Cause) (rest : List Char) : Stop :=
  .fixed cause (Text.byteLength rest - 1)

/-- Fixes a loose fault behind what `close` passes over. -/
def Stop.settle (close : List Char → List Char) : Stop → Stop
  | .fixed cause unread => .fixed cause unread
  | .loose cause rest => .here cause (close rest)

/-- The fault of a text at which reading stopped. -/
def Stop.fault (text : List Char) : Stop → Fault
  | .fixed cause unread =>
    ⟨cause, some (Place.after ⟨1, 0⟩ text (Text.byteLength text - unread))⟩
  | .loose cause rest =>
    ⟨cause, some (Place.after ⟨1, 0⟩ text (Text.byteLength text - Text.byteLength rest))⟩

/-- What reading a piece of text gives: the thing read and the text behind
it, or the reason to stop. -/
abbrev Reading (α : Type) := Except Stop (α × List Char)

end ShellPreview.Json
