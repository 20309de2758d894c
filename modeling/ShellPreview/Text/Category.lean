import ShellPreview.Text.Category.Table
/-!
# General categories of characters

Every code point has a general category: a major class (letter, mark,
number, …) and a subclass. The categories decide what counts as a word
character or a digit in a pattern, which characters a quoted text shows
as themselves, and which take no room in a column.
-/

namespace ShellPreview.Text

/-- A general category: its major class and its subclass, as `Lu` for
capital letters. -/
structure Category where
  major : Char
  minor : Char
deriving DecidableEq

/-- Reads run lengths; the category and the length read so far come
first. -/
def readRuns (major minor : Char) (n : Nat) : List Char → List (Category × Nat)
  | [] => [(⟨major, minor⟩, n)]
  | c :: cs =>
    if c.isDigit then readRuns major minor (10 * n + (c.toNat - '0'.toNat)) cs
    else if c.isUpper then (⟨major, minor⟩, n) :: readRuns c minor 0 cs
    else readRuns major c n cs

/-- The runs of equal category, from U+0000 on. -/
def categoryTable : List (Category × Nat) :=
  readRuns 'C' 'c' 0 categoryRuns.toList

/-- The category that `n` code points into the runs stands. -/
def categoryAt (n : Nat) : List (Category × Nat) → Category
  | [] => ⟨'C', 'n'⟩
  | (k, len) :: runs => if n < len then k else categoryAt (n - len) runs

/-- The general category of a character. -/
def category (c : Char) : Category :=
  categoryAt c.toNat categoryTable

/-- Marks that attach to the character before them although their
category is that of spacing marks or letters. -/
def extendingExtras : List (Nat × Nat) :=
  [(0x9BE, 0x9BE), (0x9D7, 0x9D7), (0xB3E, 0xB3E), (0xB57, 0xB57), (0xBBE, 0xBBE),
   (0xBD7, 0xBD7), (0xCC2, 0xCC2), (0xCD5, 0xCD6), (0xD3E, 0xD3E), (0xD57, 0xD57),
   (0xDCF, 0xDCF), (0xDDF, 0xDDF), (0x1B35, 0x1B35), (0x200C, 0x200C), (0x302E, 0x302F),
   (0xFF9E, 0xFF9F), (0x1133E, 0x1133E), (0x11357, 0x11357), (0x114B0, 0x114B0),
   (0x114BD, 0x114BD), (0x115AF, 0x115AF), (0x11930, 0x11930), (0x1D165, 0x1D165),
   (0x1D16E, 0x1D172), (0xE0020, 0xE007F)]

/-- Whether a code point lies in one of the ranges. -/
def inRanges (n : Nat) (ranges : List (Nat × Nat)) : Bool :=
  ranges.any (fun r => r.1 ≤ n && n ≤ r.2)

/-- The property Grapheme_Extend: the character belongs to the one before
it. -/
def isExtending (c : Char) : Bool :=
  let k := category c
  (k.major == 'M' && k.minor != 'c') || inRanges c.toNat extendingExtras

/-- A character that shows as itself in a quoted text. -/
def isPrintable (c : Char) : Bool :=
  let k := category c
  c == ' ' || !(k.major == 'C' || k.major == 'Z')

/-- The letters in circles and squares, which count as letters although
they are symbols. -/
def enclosedLetters : List (Nat × Nat) :=
  [(0x24B6, 0x24E9), (0x1F130, 0x1F149), (0x1F150, 0x1F169), (0x1F170, 0x1F189)]

/-- A word character: a letter, mark, decimal digit, letter number,
connector or joiner. -/
def isWordChar (c : Char) : Bool :=
  if c.toNat < 128 then c.isAlphanum || c == '_'
  else
    let k := category c
    k.major == 'L' || k.major == 'M' || k == ⟨'N', 'd'⟩ || k == ⟨'N', 'l'⟩ || k == ⟨'P', 'c'⟩ ||
      c.toNat == 0x200C || c.toNat == 0x200D || inRanges c.toNat enclosedLetters

/-- A decimal digit of any script. -/
def isDecimalDigit (c : Char) : Bool :=
  if c.toNat < 128 then c.isDigit else category c == ⟨'N', 'd'⟩

/-- A letter, or a number that is written with letters. -/
def isAlphabetic (c : Char) : Bool :=
  if c.toNat < 128 then c.isAlpha
  else
    let k := category c
    k.major == 'L' || k == ⟨'N', 'l'⟩ || inRanges c.toNat enclosedLetters

end ShellPreview.Text
