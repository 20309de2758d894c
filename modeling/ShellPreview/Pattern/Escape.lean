import ShellPreview.Pattern.Flags
/-!
# What stands behind a backslash

A backslash takes the meaning from a character that has one, or gives one
to a letter: a control character, a character by its number, a shorthand
for a set, or a condition. Any other letter behind a backslash is refused.
-/

namespace ShellPreview.Pattern

/-- What one token of a pattern stands for. -/
inductive Atom
  | char (c : Char)
  | byte (n : Nat)
  | set (s : CharSet)
  | edge (e : Edge)

/-- Characters that mean something in a pattern. -/
def isMeta (c : Char) : Bool :=
  "\\.+*?()|[]\x7b\x7d^$#&-~".toList.contains c

/-- Characters that may stand behind a backslash although they need none:
all of ASCII but letters, digits and angle brackets. -/
def isPlainEscape (c : Char) : Bool :=
  c.toNat < 128 && !c.isAlphanum && c != '<' && c != '>'

/-- The value of a hexadecimal digit. -/
def hexDigitValue (c : Char) : Option Nat :=
  if c.isDigit then some (c.toNat - '0'.toNat)
  else if 'a' ≤ c ∧ c ≤ 'f' then some (c.toNat - 'a'.toNat + 10)
  else if 'A' ≤ c ∧ c ≤ 'F' then some (c.toNat - 'A'.toNat + 10)
  else none

/-- The number of hexadecimal digits. -/
def hexNumber (digits : List Char) : Option Nat :=
  if digits.isEmpty then none
  else digits.foldlM (fun n c => (hexDigitValue c).map fun d => 16 * n + d) 0

/-- The character with a number, if there is one. -/
def charOf (n : Nat) : Option Char :=
  if Nat.isValidChar n then some (Char.ofNat n) else none

/-- Takes a number of characters, between which blanks may stand where
they are allowed. -/
def takeSpaced (f : Flags) : Nat → List Char → Option (List Char × List Char)
  | 0, cs => some ([], cs)
  | _ + 1, [] => none
  | n + 1, c :: cs => (takeSpaced f n (f.skip cs)).map fun (ds, r) => (c :: ds, r)

/-- Takes characters up to a closing brace, in no more steps than `fuel`. -/
def takeBraced (f : Flags) : Nat → List Char → Option (List Char × List Char)
  | _, [] => none
  | 0, _ => none
  | fuel + 1, c :: cs =>
    if c = '\x7d' then some ([], cs)
    else (takeBraced f fuel (f.skip cs)).map fun (ds, r) => (c :: ds, r)

/-- Reads the number of a character: `count` digits, or any number of them
in braces. -/
def readCodePoint (f : Flags) (count : Nat) (cs : List Char) : Option (Atom × List Char) :=
  match f.skip cs with
  | [] => none
  | '\x7b' :: r => do
    let (digits, r) ← takeBraced f (r.length + 1) (f.skip r)
    return (.char (← charOf (← hexNumber digits)), r)
  | r => do
    let (digits, r) ← takeSpaced f count r
    let n ← hexNumber digits
    if count = 2 ∧ !f.unicode ∧ 127 < n then return (.byte n, r)
    else return (.char (← charOf n), r)

/-- A property that is given as a name, or as the value of a named kind of
property. -/
def propertySet (name : List Char) : Option CharSet :=
  let text := String.ofList name
  let cut (mark : Char) : Option (List Char × List Char) :=
    if mark ∈ name then
      some (name.takeWhile (· ≠ mark), (name.dropWhile (· ≠ mark)).drop 1)
    else none
  let valued (kind value : List Char) : Option CharSet :=
    if ["gc", "generalcategory", "sc", "script", "scx", "scriptextensions"].contains
        (CharSet.looseName kind) then
      CharSet.ofPropertyName value
    else none
  if text = "" then none
  else
    match cut '!' with
    | some (kind, '=' :: value) => (valued kind value).map .complement
    | _ =>
      match (cut ':').or (cut '=') with
      | some (kind, value) => valued kind value
      | none => CharSet.ofPropertyName name

/-- Reads the name of a property: one letter, or a text in braces. -/
def readProperty (f : Flags) (negated : Bool) (cs : List Char) : Option (Atom × List Char) :=
  if !f.unicode then none
  else
    match f.skip cs with
    | [] => none
    | '\\' :: _ => none
    | c :: r => do
      let (name, r) ←
        if c = '\x7b' then takeBraced f (r.length + 1) (f.skip r) else some ([c], f.skip r)
      let s ← propertySet name
      let s := f.folded s
      return (.set (if negated then .complement s else s), r)

/-- A shorthand for a set of characters. -/
def shorthand (f : Flags) (c : Char) : Option CharSet :=
  match c with
  | 'd' => some (if f.unicode then .digit else CharSet.asciiDigit)
  | 's' => some (if f.unicode then .blank else CharSet.asciiBlank)
  | 'w' => some (if f.unicode then .word else CharSet.asciiWord)
  | 'D' => some (.complement (if f.unicode then .digit else CharSet.asciiDigit))
  | 'S' => some (.complement (if f.unicode then .blank else CharSet.asciiBlank))
  | 'W' => some (.complement (if f.unicode then .word else CharSet.asciiWord))
  | _ => none

/-- The control character of a letter. -/
def controlOf : Char → Option Char
  | 'a' => some '\x07'
  | 'f' => some '\x0c'
  | 't' => some '\t'
  | 'n' => some '\n'
  | 'r' => some '\r'
  | 'v' => some '\x0b'
  | _ => none

/-- Takes the letters and hyphens of a name in braces. -/
def takeName (f : Flags) : Nat → List Char → List Char × List Char
  | _, [] => ([], [])
  | 0, cs => ([], cs)
  | fuel + 1, c :: cs =>
    if c.isAlpha || c == '-' then
      let (ds, r) := takeName f fuel (f.skip cs)
      (c :: ds, r)
    else ([], c :: cs)

/-- Reads a boundary of words; a kind of it may follow in braces, but what
begins like a repetition is left alone. -/
def readBoundary (f : Flags) (cs : List Char) : Option (Atom × List Char) :=
  let ascii := !f.unicode
  match cs with
  | '\x7b' :: r =>
    match f.skip r with
    | [] => none
    | c :: r' =>
      if c.isAlpha || c == '-' then
        match takeName f (r'.length + 2) (c :: r') with
        | (name, '\x7d' :: r'') =>
          match String.ofList name with
          | "start" => some (.edge (.wordStart ascii), r'')
          | "end" => some (.edge (.wordEnd ascii), r'')
          | "start-half" => some (.edge (.wordStartHalf ascii), r'')
          | "end-half" => some (.edge (.wordEndHalf ascii), r'')
          | _ => none
        | _ => none
      else some (.edge (.wordBoundary ascii), cs)
  | _ => some (.edge (.wordBoundary ascii), cs)

/-- Reads what stands behind a backslash. -/
def readEscaped (f : Flags) : List Char → Option (Atom × List Char)
  | [] => none
  | c :: cs =>
    if c = 'x' then readCodePoint f 2 cs
    else if c = 'u' then readCodePoint f 4 cs
    else if c = 'U' then readCodePoint f 8 cs
    else if c = 'p' then readProperty f false cs
    else if c = 'P' then readProperty f true cs
    else
      match shorthand f c, controlOf c with
      | some s, _ => some (.set s, cs)
      | none, some x => some (.char x, cs)
      | none, none =>
        if isMeta c || isPlainEscape c then some (.char c, cs)
        else if c = 'A' then some (.edge .textStart, cs)
        else if c = 'z' then some (.edge .textEnd, cs)
        else if c = 'b' then readBoundary f cs
        else if c = 'B' then some (.edge (.noWordBoundary (!f.unicode)), cs)
        else if c = '<' then some (.edge (.wordStart (!f.unicode)), cs)
        else if c = '>' then some (.edge (.wordEnd (!f.unicode)), cs)
        else none

end ShellPreview.Pattern
