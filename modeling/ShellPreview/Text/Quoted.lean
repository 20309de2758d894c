import ShellPreview.Text.Category
/-!
# Quoted texts in messages

A message that names a text shows it between double quotes. The quote,
the backslash and the line controls are written with a backslash;
characters that would not be seen as themselves are written by their
number in braces. No closing quote can be mistaken: one inside the text
always follows a backslash.
-/

namespace ShellPreview.Text

/-- The number of a character, as a quoted text writes it. -/
def numbered (c : Char) : List Char :=
  "\\u\x7b".toList ++ Nat.toDigits 16 c.toNat ++ ['}']

/-- How a character is written between quotes. -/
def quotedChar (c : Char) : List Char :=
  match c with
  | '\x00' => ['\\', '0']
  | '\t' => ['\\', 't']
  | '\r' => ['\\', 'r']
  | '\n' => ['\\', 'n']
  | '\\' => ['\\', '\\']
  | '\x22' => ['\\', '\x22']
  | c =>
    if c.toNat < 0x7F && 0x20 ≤ c.toNat then [c]
    else if isExtending c || !isPrintable c then numbered c
    else [c]

/-- The text between double quotes. -/
def quoted (s : String) : String :=
  String.ofList ('\x22' :: s.toList.flatMap quotedChar ++ ['\x22'])

end ShellPreview.Text
