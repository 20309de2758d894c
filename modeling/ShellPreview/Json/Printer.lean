import ShellPreview.Json.Basic
import ShellPreview.Number.Shortest
/-!
# Writing JSON

`Json.compact` writes a value without blanks and `Json.pretty` on lines of
its own for every item and member, two blanks deeper inside. Both write
members in the order in which the object holds them. A text is written
between quotes with `escape`, which leaves every character as it is but
the quote, the backslash and the control characters.
-/

namespace ShellPreview.Json

/-- A hexadecimal digit, in lower case. -/
def hexDigit (n : Nat) : Char :=
  Nat.digitChar n

/-- How a character is written inside quotes. -/
def escapeChar (c : Char) : List Char :=
  if c = '\x22' then ['\\', '\x22']
  else if c = '\\' then ['\\', '\\']
  else if c = '\n' then ['\\', 'n']
  else if c = '\r' then ['\\', 'r']
  else if c = '\t' then ['\\', 't']
  else if c = '\x08' then ['\\', 'b']
  else if c = '\x0c' then ['\\', 'f']
  else if c.toNat < 0x20 then
    ['\\', 'u', '0', '0', hexDigit (c.toNat / 16), hexDigit (c.toNat % 16)]
  else [c]

/-- A text inside quotes. -/
def escape (s : List Char) : List Char :=
  s.flatMap escapeChar

/-- A text with its quotes. -/
def literal (s : String) : List Char :=
  '\x22' :: (escape s.toList ++ ['\x22'])

/-- A whole number in decimal. -/
def wholeText (i : Int) : List Char :=
  if i < 0 then '-' :: Nat.toDigits 10 i.natAbs else Nat.toDigits 10 i.natAbs

/-- A number as it is written. -/
def Numeral.chars : Numeral → List Char
  | .whole i => wholeText i
  | .real x => x.text.toList

/-- The characters of a truth value. -/
def flagChars (b : Bool) : List Char :=
  if b then ['t', 'r', 'u', 'e'] else ['f', 'a', 'l', 's', 'e']

mutual

/-- The value without blanks. -/
def compactChars : Json → List Char
  | .null => ['n', 'u', 'l', 'l']
  | .flag b => flagChars b
  | .number n => n.chars
  | .text s => literal s
  | .list [] => ['[', ']']
  | .list (v :: vs) => '[' :: (compactChars v ++ compactItems vs)
  | .object [] => ['\x7b', '\x7d']
  | .object ((k, v) :: ms) => '\x7b' :: (literal k ++ ':' :: (compactChars v ++ compactMembers ms))

/-- The items after the first, and the closing bracket. -/
def compactItems : List Json → List Char
  | [] => [']']
  | v :: vs => ',' :: (compactChars v ++ compactItems vs)

/-- The members after the first, and the closing brace. -/
def compactMembers : List (String × Json) → List Char
  | [] => ['\x7d']
  | (k, v) :: ms => ',' :: (literal k ++ ':' :: (compactChars v ++ compactMembers ms))

end

/-- A line break and the indentation of a depth. -/
def newLine (depth : Nat) : List Char :=
  '\n' :: List.replicate (2 * depth) ' '

mutual

/-- The value on lines of its own, its first line at a depth. -/
def prettyChars (depth : Nat) : Json → List Char
  | .null => ['n', 'u', 'l', 'l']
  | .flag b => flagChars b
  | .number n => n.chars
  | .text s => literal s
  | .list [] => ['[', ']']
  | .list (v :: vs) =>
    '[' :: (newLine (depth + 1) ++ (prettyChars (depth + 1) v ++ prettyItems depth vs))
  | .object [] => ['\x7b', '\x7d']
  | .object ((k, v) :: ms) =>
    '\x7b' :: (newLine (depth + 1) ++ (literal k ++ ':' :: ' ' ::
      (prettyChars (depth + 1) v ++ prettyMembers depth ms)))

/-- The items after the first, and the closing bracket on its own line. -/
def prettyItems (depth : Nat) : List Json → List Char
  | [] => newLine depth ++ [']']
  | v :: vs => ',' :: (newLine (depth + 1) ++ (prettyChars (depth + 1) v ++ prettyItems depth vs))

/-- The members after the first, and the closing brace on its own line. -/
def prettyMembers (depth : Nat) : List (String × Json) → List Char
  | [] => newLine depth ++ ['\x7d']
  | (k, v) :: ms =>
    ',' :: (newLine (depth + 1) ++ (literal k ++ ':' :: ' ' ::
      (prettyChars (depth + 1) v ++ prettyMembers depth ms)))

end

/-- The value on one line without blanks. -/
def compact (v : Json) : String :=
  String.ofList (compactChars v)

/-- The value with every item and member on its own line. -/
def pretty (v : Json) : String :=
  String.ofList (prettyChars 0 v)

end ShellPreview.Json
