import ShellPreview.Text.Fold
import ShellPreview.Text.Category
import ShellPreview.Url.Percent
import ShellPreview.Url.Punycode
/-!
# Hosts

Which texts may stand as the host of a URL. Where the scheme knows about
hosts, the host is a domain name, a number of the fourth version of the
address format, in one to four parts of base 8, 10 or 16, or one of the
sixth version in square brackets. A host whose last label is a number is
never a domain name. For other schemes nearly everything is a host.
-/

namespace ShellPreview.Url.Host

/-- One to four hexadecimal digits. -/
def isHexGroup (cs : List Char) : Bool :=
  0 < cs.length && cs.length ≤ 4 && cs.all fun c => (Percent.hexValue c).isSome

/-- A number below 256 without a zero in front. -/
def isByteText (cs : List Char) : Bool :=
  cs.all Char.isDigit && 0 < cs.length && cs.length ≤ 3 &&
    (cs.length == 1 || cs.head? != some '0') &&
    cs.foldl (fun n c => 10 * n + (c.toNat - '0'.toNat)) 0 < 256

/-- Four such numbers between points. -/
def isDotted (cs : List Char) : Bool :=
  let parts := cs.splitOn '.'
  parts.length == 4 && parts.all isByteText

/-- How many groups the pieces between colons are, of which the last may
be dotted. -/
def groupCount : List (List Char) → Option Nat
  | [] => some 0
  | [cs] => if isHexGroup cs then some 1 else if isDotted cs then some 2 else none
  | cs :: rest => if isHexGroup cs then (groupCount rest).map (· + 1) else none

/-- The pieces between colons; none of an empty text. -/
def pieces (cs : List Char) : List (List Char) :=
  if cs.isEmpty then [] else cs.splitOn ':'

/-- What stands before and behind the first two colons in a row. -/
def splitGap : List Char → Option (List Char × List Char)
  | ':' :: ':' :: cs => some ([], cs)
  | c :: cs => (splitGap cs).map fun (a, b) => (c :: a, b)
  | [] => none

/-- Eight groups, or fewer with a gap. -/
def isVersionSix (cs : List Char) : Bool :=
  match splitGap cs with
  | none => groupCount (pieces cs) == some 8
  | some (front, back) =>
    (pieces front).all isHexGroup &&
      match groupCount (pieces back) with
      | some n => (pieces front).length + n ≤ 7
      | none => false

/-- A text in square brackets: what is between them. -/
def bracketed (cs : List Char) : Option (List Char) :=
  if cs.getLast? = some ']' then some (cs.drop 1).dropLast else none

/-- The number that a part of a host spells: nothing if it spells none. -/
def partNumber (cs : List Char) : Option Nat :=
  let digits (base : Nat) (cs : List Char) : Option Nat :=
    cs.foldlM (fun n c => (Percent.hexValue c).bind fun d =>
      if d < base then some (base * n + d) else none) 0
  match cs with
  | [] => none
  | '0' :: 'x' :: r => digits 16 r
  | '0' :: 'X' :: r => digits 16 r
  | '0' :: c :: r => digits 8 (c :: r)
  | cs => digits 10 cs

/-- The parts between points, without an empty one at the end. -/
def parts (cs : List Char) : List (List Char) :=
  let all := cs.splitOn '.'
  if all.getLast? = some [] then all.dropLast else all

/-- Whether the last label is a number. -/
def endsInNumber (cs : List Char) : Bool :=
  match (parts cs).getLast? with
  | none => false
  | some last => (!last.isEmpty && last.all Char.isDigit) || (partNumber last).isSome

/-- An address of the fourth version: up to three bytes, and a number that
fills the bytes that are left. -/
def isVersionFour (cs : List Char) : Bool :=
  let all := parts cs
  all.length ≤ 4 &&
    match all.mapM partNumber with
    | none => false
    | some numbers =>
      numbers.dropLast.all (· < 256) &&
        numbers.getLast?.any fun n => n < Nat.pow 256 (5 - numbers.length)

/-- Characters that no domain name holds. -/
def isForbidden (c : Char) : Bool :=
  c.toNat ≤ 0x20 || c.toNat == 0x7F || "#%/:<>?@[\\]^|".toList.contains c

/-- Characters that do not count in a domain name. -/
def ignoredRanges : List (Nat × Nat) :=
  [(0xAD, 0xAD), (0x34F, 0x34F), (0x180B, 0x180D), (0x180F, 0x180F), (0x200B, 0x200B),
   (0x2060, 0x2060), (0x2064, 0x2064), (0xFE00, 0xFE0F), (0xFEFF, 0xFEFF)]

/-- What a character of a domain name stands for: wide forms stand for
the usual ones, other blanks for the blank, capitals for small letters. -/
def mapped (c : Char) : List Char :=
  let n := c.toNat
  if Text.inRanges n ignoredRanges then []
  else if n == 0x3002 || n == 0xFF61 then ['.']
  else if 0xFF01 ≤ n && n ≤ 0xFF5E then [(Char.ofNat (n - 0xFEE0)).toLower]
  else if Text.category c == ⟨'Z', 's'⟩ then [' ']
  else [Text.fold c]

/-- Whether a character may stand in a domain name. -/
def isDomainChar (c : Char) : Bool :=
  if c.toNat < 128 then !isForbidden c
  else
    let k := Text.category c
    !(k.major == 'C' || k.major == 'Z' || c.toNat == 0xFFFC || c.toNat == 0xFFFD)

/-- Whether a label of a domain name is well formed. -/
def isLabel (label : List Char) : Bool :=
  match label with
  | 'x' :: 'n' :: '-' :: '-' :: r =>
    match Punycode.decode r with
    | none => false
    | some cs =>
      cs.any (fun c => 128 ≤ c.toNat) && cs.all (fun c => isDomainChar c && mapped c == [c]) &&
        !cs.head?.any fun c => (Text.category c).major == 'M'
  | cs => cs.all isDomainChar && !cs.head?.any fun c => (Text.category c).major == 'M'

/-- Whether a text is a host of a scheme that knows about hosts. -/
def isKnown (cs : List Char) : Bool :=
  match cs with
  | '[' :: _ => (bracketed cs).any isVersionSix
  | cs =>
    match Percent.decodeText cs with
    | none => false
    | some s =>
      let domain := s.toList.flatMap mapped
      !domain.isEmpty && (domain.splitOn '.').all isLabel &&
        (!endsInNumber domain || isVersionFour domain)

/-- Characters that no host of another scheme holds. -/
def isForbiddenOpaque (c : Char) : Bool :=
  c == '\x00' || c == '\t' || c == '\n' || c == '\r' || c == ' ' ||
    "#/:<>?@[\\]^|".toList.contains c

/-- Whether a text is a host of another scheme. -/
def isOpaque (cs : List Char) : Bool :=
  match cs with
  | '[' :: _ => (bracketed cs).any isVersionSix
  | cs => !cs.any isForbiddenOpaque

end ShellPreview.Url.Host
