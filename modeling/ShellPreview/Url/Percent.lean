import ShellPreview.Text.Utf8
/-!
# Percent escapes

A character that may not stand in a part of a URL is written as the bytes
of its UTF-8 form, each as a percent sign and two hexadecimal digits.
`encode` escapes all characters but those that are kept, and `decode`
replaces every complete escape by its byte.
-/

namespace ShellPreview.Url.Percent

/-- A hexadecimal digit, in upper case. -/
def upperHex (n : Nat) : Char :=
  (Nat.digitChar n).toUpper

/-- The escape of a byte. -/
def escape (b : UInt8) : List Char :=
  ['%', upperHex (b.toNat / 16), upperHex (b.toNat % 16)]

/-- The characters, all escaped but those that are kept. -/
def encode (keep : Char → Bool) (cs : List Char) : List Char :=
  cs.flatMap fun c => if keep c then [c] else (String.utf8EncodeChar c).flatMap escape

/-- The value of a hexadecimal digit of either case. -/
def hexValue (c : Char) : Option Nat :=
  if c.isDigit then some (c.toNat - '0'.toNat)
  else if 'a' ≤ c ∧ c ≤ 'f' then some (c.toNat - 'a'.toNat + 10)
  else if 'A' ≤ c ∧ c ≤ 'F' then some (c.toNat - 'A'.toNat + 10)
  else none

/-- The byte that two hexadecimal digits stand for. -/
def hexByte (a b : Char) : Option UInt8 := do
  return UInt8.ofNat (16 * (← hexValue a) + (← hexValue b))

/-- The bytes of a text in which escapes stand for bytes. A percent sign
without two digits behind it stands for itself. -/
def decode : List Char → List UInt8
  | '%' :: a :: b :: cs =>
    match hexByte a b with
    | some byte => byte :: decode cs
    | none => String.utf8EncodeChar '%' ++ decode (a :: b :: cs)
  | c :: cs => String.utf8EncodeChar c ++ decode cs
  | [] => []

/-- The text that the bytes behind the escapes spell, if they do. -/
def decodeText (cs : List Char) : Option String :=
  Text.decode ⟨(decode cs).toArray⟩

/-- The characters that are never escaped: ASCII letters and digits and
four marks. -/
def isUnreserved (c : Char) : Bool :=
  c.isAlphanum || c == '-' || c == '_' || c == '.' || c == '~'

/-- The characters that a path keeps: visible ASCII without the quote,
the angle brackets, the braces, the hash, the question mark, the accents
that stand alone. -/
def isPathChar (c : Char) : Bool :=
  0x21 ≤ c.toNat && c.toNat ≤ 0x7E &&
    !(c == '\x22' || c == '#' || c == '<' || c == '>' || c == '?' || c == '^' || c.toNat == 0x60 ||
      c == '\x7b' || c == '\x7d')

/-- A text as one component of a URL. -/
def component (s : String) : String :=
  String.ofList (encode isUnreserved s.toList)

end ShellPreview.Url.Percent
