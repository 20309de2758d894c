import ShellPreview.Json.Fault
/-!
# The tokens of JSON text

Blanks, the three words, texts and numbers, read from the front of a list
of characters. Texts and numbers are read in two ways: strictly, when
their value is wanted (`readText`, `readNumeral`), and leniently, when a
member that nobody asked for is passed over (`skipText`, `skipNumeral`).
The lenient way asks for less: surrogates need no partner, and a number
may be as large as it likes.
-/

namespace ShellPreview.Json

/-- The blanks between tokens. -/
def isBlank (c : Char) : Bool :=
  c == ' ' || c == '\n' || c == '\t' || c == '\r'

/-- The text behind the blanks. -/
def skipBlanks (cs : List Char) : List Char :=
  cs.dropWhile isBlank

/-- Reads the characters of a word, of which the first has been seen. -/
def readWord : List Char → List Char → Except Stop (List Char)
  | [], cs => .ok cs
  | _ :: _, [] => .error (.here .eofValue [])
  | w :: ws, c :: cs => if c = w then readWord ws cs else .error (.ahead .expectedWord (c :: cs))

/-- The character that a letter stands for behind a backslash. -/
def simpleEscape (c : Char) : Option Char :=
  if c = '\x22' || c = '\\' || c = '/' then some c
  else if c = 'b' then some '\x08'
  else if c = 'f' then some '\x0c'
  else if c = 'n' then some '\n'
  else if c = 'r' then some '\r'
  else if c = 't' then some '\t'
  else none

/-- The value of a hexadecimal digit. -/
def hexValue (c : Char) : Option Nat :=
  if '0' ≤ c && c ≤ '9' then some (c.toNat - '0'.toNat)
  else if 'a' ≤ c && c ≤ 'f' then some (c.toNat - 'a'.toNat + 10)
  else if 'A' ≤ c && c ≤ 'F' then some (c.toNat - 'A'.toNat + 10)
  else none

/-- The number of four hexadecimal digits. -/
def fourHex (a b c d : Char) : Option Nat := do
  return 4096 * (← hexValue a) + 256 * (← hexValue b) + 16 * (← hexValue c) + (← hexValue d)

/-- The fault when the text behind a backslash and `u` does not begin with
four hexadecimal digits: it lies behind the next four bytes. -/
def badHex (cs : List Char) : Stop :=
  if Text.byteLength cs < 4 then .fixed .eofText 0
  else .fixed .invalidEscape (Text.byteLength cs - 4)

/-- Reads four hexadecimal digits. -/
def readHex : List Char → Reading Nat
  | a :: b :: c :: d :: r =>
    match fourHex a b c d with
    | some n => .ok (n, r)
    | none => .error (badHex (a :: b :: c :: d :: r))
  | cs => .error (badHex cs)

/-- The first half of a pair of surrogates. -/
def isHighSurrogate (n : Nat) : Bool :=
  0xD800 ≤ n && n ≤ 0xDBFF

/-- The second half of a pair of surrogates. -/
def isLowSurrogate (n : Nat) : Bool :=
  0xDC00 ≤ n && n ≤ 0xDFFF

/-- Reads the second half of a pair and puts the two together. -/
def readLowSurrogate (high : Nat) : List Char → Reading Char
  | [] => .error (.here .eofText [])
  | '\\' :: [] => .error (.here .eofText [])
  | '\\' :: 'u' :: r =>
    match readHex r with
    | .error stop => .error stop
    | .ok (low, r') =>
      if isLowSurrogate low then
        .ok (Char.ofNat (0x10000 + 0x400 * (high - 0xD800) + (low - 0xDC00)), r')
      else .error (.here .loneSurrogate r')
  | '\\' :: r => .error (.ahead .unendedEscape r)
  | r => .error (.ahead .unendedEscape r)

/-- Reads what stands behind a backslash. -/
def readEscape : List Char → Reading Char
  | [] => .error (.here .eofText [])
  | 'u' :: r =>
    match readHex r with
    | .error stop => .error stop
    | .ok (n, r') =>
      if isLowSurrogate n then .error (.here .loneSurrogate r')
      else if isHighSurrogate n then readLowSurrogate n r'
      else .ok (Char.ofNat n, r')
  | c :: r =>
    match simpleEscape c with
    | some x => .ok (x, r)
    | none => .error (.ahead .invalidEscape (c :: r))

/-- Reads a text up to its closing quote, in no more steps than there are
characters. -/
def readTextIn : Nat → List Char → Reading (List Char)
  | _, [] => .error (.here .eofText [])
  | 0, cs => .error (.here .eofText cs)
  | fuel + 1, c :: cs =>
    if c = '\x22' then .ok ([], cs)
    else if c = '\\' then
      match readEscape cs with
      | .error stop => .error stop
      | .ok (x, r) => (readTextIn fuel r).map fun (s, r') => (x :: s, r')
    else if c.toNat < 0x20 then .error (.here .controlCharacter cs)
    else (readTextIn fuel cs).map fun (s, r) => (c :: s, r)

/-- Reads a text whose opening quote has been read. -/
def readText (cs : List Char) : Reading (List Char) :=
  readTextIn cs.length cs

/-- Passes over what stands behind a backslash. -/
def skipEscape : List Char → Except Stop (List Char)
  | [] => .error (.here .eofText [])
  | 'u' :: r => (readHex r).map (·.2)
  | c :: r =>
    match simpleEscape c with
    | some _ => .ok r
    | none => .error (.ahead .invalidEscape (c :: r))

/-- Passes over a text up to its closing quote. -/
def skipTextIn : Nat → List Char → Except Stop (List Char)
  | _, [] => .error (.here .eofText [])
  | 0, cs => .error (.here .eofText cs)
  | fuel + 1, c :: cs =>
    if c = '\x22' then .ok cs
    else if c = '\\' then
      match skipEscape cs with
      | .error stop => .error stop
      | .ok r => skipTextIn fuel r
    else if c.toNat < 0x20 then .error (.here .controlCharacter (c :: cs))
    else skipTextIn fuel cs

/-- Passes over a text whose opening quote has been read. -/
def skipText (cs : List Char) : Except Stop (List Char) :=
  skipTextIn cs.length cs

/-- The decimal digits in front, and the text behind them. -/
def digits (cs : List Char) : List Char × List Char :=
  (cs.takeWhile Char.isDigit, cs.dropWhile Char.isDigit)

/-- The value of a decimal digit. -/
def digitValue (c : Char) : Nat :=
  c.toNat - '0'.toNat

/-- The largest number of 64 bits. -/
def maxWhole : Nat := UInt64.size - 1

/-- Appends decimal digits to a significand as long as it keeps to 64
bits; with it comes the number of digits that were left out. -/
def absorb (significand : Nat) : List Char → Nat × Nat
  | [] => (significand, 0)
  | c :: cs =>
    let next := 10 * significand + digitValue c
    if next ≤ maxWhole then absorb next cs else (significand, cs.length + 1)

/-- The magnitude `m * 10 ^ p` as it is computed: one rounded product or
quotient with a power of ten, after divisions by the largest power while
the exponent is out of reach. -/
def scale : Nat → Number.Magnitude → Int → Option Number.Magnitude
  | fuel, m, p =>
    if p.natAbs ≤ 308 then
      match Number.Magnitude.ofNat (Nat.pow 10 p.natAbs) with
      | none => none
      | some t => if 0 ≤ p then m.mul t else m.div t
    else if m.significand = 0 then some m
    else if 0 ≤ p then none
    else
      match fuel, Number.Magnitude.ofNat (Nat.pow 10 308) with
      | 0, _ => some .zero
      | _, none => none
      | fuel + 1, some t =>
        match m.div t with
        | none => none
        | some m' => scale fuel m' (p + 308)

/-- The number with a sign, a significand and a power of ten. -/
def realOf (negative : Bool) (significand : Nat) (p : Int) (rest : List Char) :
    Reading Numeral :=
  match (Number.Magnitude.ofNat significand).bind (fun m => scale 8 m p) with
  | none => .error (.here .numberRange rest)
  | some m => .ok (.real ⟨negative, m⟩, rest)

/-- The largest exponent that is read. -/
def maxExponentDigits : Nat := 2147483647

/-- Reads the digits of an exponent; at the digit with which it grows too
large the rest is given back. -/
def readExponentDigits (e : Nat) : List Char → Nat × List Char × Bool
  | [] => (e, [], true)
  | c :: cs =>
    if c.isDigit then
      let next := 10 * e + digitValue c
      if next ≤ maxExponentDigits then readExponentDigits next cs else (e, cs, false)
    else (e, c :: cs, true)

/-- Keeps an exponent within 32 bits. -/
def clampExponent (e : Int) : Int :=
  max (-2147483648) (min 2147483647 e)

/-- Reads an exponent behind its letter and finishes the number. -/
def readExponent (negative : Bool) (significand : Nat) (start : Int) (cs : List Char) :
    Reading Numeral :=
  let (down, cs) := match cs with
    | '+' :: r => (false, r)
    | '-' :: r => (true, r)
    | r => (false, r)
  match cs with
  | [] => .error (.here .eofValue [])
  | c :: r =>
    if c.isDigit then
      match readExponentDigits (digitValue c) r with
      | (e, r', true) =>
        let p := if down then start - e else start + e
        realOf negative significand (clampExponent p) r'
      | (_, r', false) =>
        if significand ≠ 0 && !down then .error (.here .numberRange r')
        else .ok (.real ⟨negative, .zero⟩, (digits r').2)
    else .error (.ahead .invalidNumber (c :: r))

/-- Reads the digits behind a point and finishes the number. -/
def readFraction (negative : Bool) (significand : Nat) (start : Int) (cs : List Char) :
    Reading Numeral :=
  let (ds, r) := digits cs
  if ds.isEmpty then
    match r with
    | [] => .error (.ahead .eofValue [])
    | r => .error (.ahead .invalidNumber r)
  else
    let (sig, left) := absorb significand ds
    let p := start - ((ds.length - left : Nat) : Int)
    match r with
    | 'e' :: r' => readExponent negative sig p r'
    | 'E' :: r' => readExponent negative sig p r'
    | r => realOf negative sig p r

/-- A number without fraction and exponent. A number that leaves the
64-bit range is one with a fraction, and so is minus zero. -/
def wholeOf (negative : Bool) (n : Nat) : Numeral :=
  if negative then
    if n = 0 ∨ UInt64.size / 2 < n then .real ⟨true, (Number.Magnitude.ofNat n).getD .zero⟩
    else .whole (-n)
  else .whole n

/-- Finishes a number whose digits before the point have been read. -/
def finishNumeral (negative : Bool) (significand left : Nat) (cs : List Char) :
    Reading Numeral :=
  match cs with
  | '.' :: r => readFraction negative significand left r
  | 'e' :: r => readExponent negative significand left r
  | 'E' :: r => readExponent negative significand left r
  | r =>
    if left = 0 then .ok (wholeOf negative significand, r)
    else realOf negative significand left r

/-- Reads a number behind its sign. -/
def readMagnitude (negative : Bool) : List Char → Reading Numeral
  | [] => .error (.here .eofValue [])
  | c :: cs =>
    if c = '0' then
      match cs with
      | d :: r =>
        if d.isDigit then .error (.ahead .invalidNumber (d :: r))
        else finishNumeral negative 0 0 (d :: r)
      | [] => finishNumeral negative 0 0 []
    else if c.isDigit then
      let (ds, r) := digits cs
      let (sig, left) := absorb (digitValue c) ds
      finishNumeral negative sig left r
    else .error (.ahead .invalidNumber (c :: cs))

/-- Reads a number. -/
def readNumeral : List Char → Reading Numeral
  | '-' :: cs => readMagnitude true cs
  | cs => readMagnitude false cs

/-- Passes over an exponent behind its letter. -/
def skipExponent (cs : List Char) : Except Stop (List Char) :=
  let cs := match cs with
    | '+' :: r => r
    | '-' :: r => r
    | r => r
  match cs with
  | [] => .error (.here .invalidNumber [])
  | c :: r => if c.isDigit then .ok (digits r).2 else .error (.ahead .invalidNumber (c :: r))

/-- Passes over what follows the digits before the point. -/
def skipNumeralTail : List Char → Except Stop (List Char)
  | '.' :: cs =>
    let (ds, r) := digits cs
    if ds.isEmpty then .error (.ahead .invalidNumber r)
    else
      match r with
      | 'e' :: r' => skipExponent r'
      | 'E' :: r' => skipExponent r'
      | r => .ok r
  | 'e' :: r => skipExponent r
  | 'E' :: r => skipExponent r
  | r => .ok r

/-- Passes over a number behind its sign. -/
def skipMagnitude : List Char → Except Stop (List Char)
  | [] => .error (.here .invalidNumber [])
  | c :: cs =>
    if c = '0' then
      match cs with
      | d :: r =>
        if d.isDigit then .error (.ahead .invalidNumber (d :: r)) else skipNumeralTail (d :: r)
      | [] => .ok []
    else if c.isDigit then skipNumeralTail (digits cs).2
    else .error (.ahead .invalidNumber (c :: cs))

/-- Passes over a number. -/
def skipNumeral : List Char → Except Stop (List Char)
  | '-' :: cs => skipMagnitude cs
  | cs => skipMagnitude cs

end ShellPreview.Json
