import ShellPreview.Pattern.Basic
/-!
# Flags of a pattern

A pattern can change how the rest of it is read: whether case counts,
what the dot and the two anchors mean, which of two repetitions is
greedy, whether characters are those of all scripts, and whether blanks
and remarks may stand in the pattern. The tokens here depend on the flags.
-/

namespace ShellPreview.Pattern

/-- How a pattern is read. -/
structure Flags where
  anyCase : Bool
  multiLine : Bool
  dotAll : Bool
  swapGreed : Bool
  unicode : Bool
  spaced : Bool
  crlf : Bool

/-- How a pattern is read at first. -/
def Flags.initial : Flags := ⟨false, false, false, false, true, false, false⟩

/-- Turns the flag of a letter on or off. -/
def Flags.set (f : Flags) (value : Bool) : Char → Option Flags
  | 'i' => some { f with anyCase := value }
  | 'm' => some { f with multiLine := value }
  | 's' => some { f with dotAll := value }
  | 'U' => some { f with swapGreed := value }
  | 'u' => some { f with unicode := value }
  | 'x' => some { f with spaced := value }
  | 'R' => some { f with crlf := value }
  | _ => none

/-- Reads letters of flags and at most one minus, before which they are
turned on and behind which they are turned off. No letter stands twice,
and a letter stands behind the minus. `seen` holds what has been read, the
last first. -/
def Flags.read (f : Flags) (seen : List Char) : List Char → Option (Flags × List Char × List Char)
  | [] => none
  | c :: cs =>
    if c = ':' ∨ c = ')' then
      if seen.head? = some '-' then none else some (f, seen, c :: cs)
    else if c ∈ seen then none
    else if c = '-' then Flags.read f (c :: seen) cs
    else
      match f.set (!seen.contains '-') c with
      | none => none
      | some f' => Flags.read f' (c :: seen) cs

/-- Drops blanks and remarks; `remark` says that one has begun, which goes
on to the end of the line. -/
def dropSpace : Bool → List Char → List Char
  | _, [] => []
  | true, c :: cs => dropSpace (c != '\n') cs
  | false, c :: cs =>
    if Text.isBlank c then dropSpace false cs
    else if c = '#' then dropSpace true cs
    else c :: cs

/-- The text behind blanks and remarks, where those may stand. -/
def Flags.skip (f : Flags) (cs : List Char) : List Char :=
  if f.spaced then dropSpace false cs else cs

/-- The set with the characters that differ in case, if case does not
count. -/
def Flags.folded (f : Flags) (s : CharSet) : CharSet :=
  if !f.anyCase then s else if f.unicode then .anyCase s else .asciiCase s

/-- The characters that the dot stands for. -/
def Flags.dot (f : Flags) : CharSet :=
  if f.dotAll then .complement .nothing
  else if f.crlf then .complement (.listed [(10, 10), (13, 13)])
  else .complement (.single '\n')

/-- Where a line starts. -/
def Flags.start (f : Flags) : Edge :=
  if !f.multiLine then .textStart else if f.crlf then .crlfStart else .lineStart

/-- Where a line ends. -/
def Flags.stop (f : Flags) : Edge :=
  if !f.multiLine then .textEnd else if f.crlf then .crlfEnd else .lineEnd

/-- Whether a set of bytes holds only bytes of ASCII. -/
def staysAscii (s : CharSet) : Bool :=
  (List.range 128).all fun i => !s.holds (Char.ofNat (128 + i))

/-- A set that may stand in the pattern: where characters are bytes, it
must keep to ASCII. -/
def Flags.checked (f : Flags) (s : CharSet) : Option CharSet :=
  if f.unicode || staysAscii s then some s else none

end ShellPreview.Pattern
