import ShellPreview.Text.Blank
import ShellPreview.Text.Category
import ShellPreview.Text.Fold
/-!
# Sets of characters

The sets that a pattern can name, as terms: ranges, the usual shorthands,
general categories, and what is made of them by set operations and by
forgetting case. `CharSet.holds` says which characters belong to a set.
-/

namespace ShellPreview.Pattern

/-- A set of characters. -/
inductive CharSet
  | nothing
  | range (first last : Char)
  | listed (ranges : List (Nat × Nat))
  | blank
  | digit
  | word
  | category (major : Char) (minor : Option Char)
  | complement (a : CharSet)
  | union (a b : CharSet)
  | intersection (a b : CharSet)
  | difference (a b : CharSet)
  | oneOf (a b : CharSet)
  | anyCase (a : CharSet)
  | asciiCase (a : CharSet)
deriving DecidableEq

namespace CharSet

/-- Whether a character belongs to the set. -/
def holds : CharSet → Char → Bool
  | nothing, _ => false
  | range first last, c => first ≤ c && c ≤ last
  | listed ranges, c => Text.inRanges c.toNat ranges
  | blank, c => Text.isBlank c
  | digit, c => Text.isDecimalDigit c
  | word, c => Text.isWordChar c
  | category major minor, c =>
    let k := Text.category c
    k.major == major && (minor == none || minor == some k.minor)
  | complement a, c => !a.holds c
  | union a b, c => a.holds c || b.holds c
  | intersection a b, c => a.holds c && b.holds c
  | difference a b, c => a.holds c && !b.holds c
  | oneOf a b, c => a.holds c != b.holds c
  | anyCase a, c => (Text.caseVariants c).any a.holds
  | asciiCase a, c => a.holds c || a.holds c.toLower || a.holds c.toUpper

/-- How many steps it takes to test for the set, roughly. -/
def weight : CharSet → Nat
  | nothing => 1
  | range _ last => if last.toNat < 128 then 1 else 4
  | listed ranges => ranges.length
  | blank => 10
  | digit => 60
  | word => 250
  | category _ _ => 200
  | complement a => a.weight + 4
  | union a b => a.weight + b.weight
  | intersection a b => a.weight + b.weight
  | difference a b => a.weight + b.weight
  | oneOf a b => a.weight + b.weight
  | anyCase a => a.weight
  | asciiCase a => a.weight

/-- The set of one character. -/
def single (c : Char) : CharSet := range c c

/-- The union of sets. -/
def unions : List CharSet → CharSet
  | [] => nothing
  | [a] => a
  | a :: as => union a (unions as)

/-- The set of a shorthand in ASCII. -/
def asciiBlank : CharSet := listed [(9, 13), (32, 32)]

/-- The ASCII digits. -/
def asciiDigit : CharSet := range '0' '9'

/-- The ASCII letters and digits and the low line. -/
def asciiWord : CharSet := listed [(48, 57), (65, 90), (95, 95), (97, 122)]

/-- The named sets of ASCII characters. -/
def asciiNamed : List (String × CharSet) :=
  [("alnum", listed [(48, 57), (65, 90), (97, 122)]), ("alpha", listed [(65, 90), (97, 122)]),
    ("ascii", listed [(0, 127)]), ("blank", listed [(9, 9), (32, 32)]),
    ("cntrl", listed [(0, 31), (127, 127)]), ("digit", asciiDigit),
    ("graph", listed [(33, 126)]), ("lower", range 'a' 'z'), ("print", listed [(32, 126)]),
    ("punct", listed [(33, 47), (58, 64), (91, 96), (123, 126)]), ("space", asciiBlank),
    ("upper", range 'A' 'Z'), ("word", asciiWord),
    ("xdigit", listed [(48, 57), (65, 70), (97, 102)])]

/-- The general categories by their long names. -/
def categoryNames : List (String × Char × Option Char) :=
  [("letter", 'L', none), ("uppercaseletter", 'L', some 'u'), ("lowercaseletter", 'L', some 'l'),
    ("titlecaseletter", 'L', some 't'), ("modifierletter", 'L', some 'm'),
    ("otherletter", 'L', some 'o'), ("mark", 'M', none), ("nonspacingmark", 'M', some 'n'),
    ("spacingmark", 'M', some 'c'), ("enclosingmark", 'M', some 'e'), ("number", 'N', none),
    ("decimalnumber", 'N', some 'd'), ("digit", 'N', some 'd'), ("letternumber", 'N', some 'l'),
    ("othernumber", 'N', some 'o'), ("punctuation", 'P', none), ("punct", 'P', none),
    ("connectorpunctuation", 'P', some 'c'), ("dashpunctuation", 'P', some 'd'),
    ("openpunctuation", 'P', some 's'), ("closepunctuation", 'P', some 'e'),
    ("initialpunctuation", 'P', some 'i'), ("finalpunctuation", 'P', some 'f'),
    ("otherpunctuation", 'P', some 'o'), ("symbol", 'S', none), ("mathsymbol", 'S', some 'm'),
    ("currencysymbol", 'S', some 'c'), ("modifiersymbol", 'S', some 'k'),
    ("othersymbol", 'S', some 'o'), ("separator", 'Z', none), ("spaceseparator", 'Z', some 's'),
    ("lineseparator", 'Z', some 'l'), ("paragraphseparator", 'Z', some 'p'),
    ("other", 'C', none), ("control", 'C', some 'c'), ("cntrl", 'C', some 'c'),
    ("format", 'C', some 'f'), ("unassigned", 'C', some 'n'), ("privateuse", 'C', some 'o')]

/-- Some properties and scripts by their names. -/
def propertyNames : List (String × CharSet) :=
  [("any", complement nothing), ("assigned", complement (category 'C' (some 'n'))),
    ("ascii", listed [(0, 127)]), ("whitespace", blank), ("space", blank), ("wspace", blank),
    ("greek", listed [(0x370, 0x373), (0x375, 0x377), (0x37A, 0x37D), (0x37F, 0x37F),
      (0x384, 0x384), (0x386, 0x386), (0x388, 0x3E1), (0x3F0, 0x3FF), (0x1F00, 0x1FFE)]),
    ("cyrillic", listed [(0x400, 0x484), (0x487, 0x52F), (0x1C80, 0x1C88), (0x2DE0, 0x2DFF),
      (0xA640, 0xA69F)]),
    ("latin", listed [(65, 90), (97, 122), (0xAA, 0xAA), (0xBA, 0xBA), (0xC0, 0xD6),
      (0xD8, 0xF6), (0xF8, 0x2B8), (0x1E00, 0x1EFF), (0xFF21, 0xFF3A), (0xFF41, 0xFF5A)]),
    ("han", listed [(0x2E80, 0x2FD5), (0x3005, 0x3005), (0x3007, 0x3007), (0x3021, 0x3029),
      (0x3400, 0x4DBF), (0x4E00, 0x9FFF), (0xF900, 0xFAD9), (0x20000, 0x323AF)]),
    ("hiragana", listed [(0x3041, 0x3096), (0x309D, 0x309F)]),
    ("katakana", listed [(0x30A1, 0x30FA), (0x30FD, 0x30FF), (0xFF66, 0xFF6F), (0xFF71, 0xFF9D)]),
    ("hebrew", listed [(0x591, 0x5F4), (0xFB1D, 0xFB4F)]),
    ("arabic", listed [(0x600, 0x604), (0x606, 0x60B), (0x60D, 0x61A), (0x61C, 0x61E),
      (0x620, 0x63F), (0x641, 0x64A), (0x656, 0x66F), (0x671, 0x6DC), (0x6DE, 0x6FF)])]

/-- A name without blanks, hyphens, low lines and case. -/
def looseName (name : List Char) : String :=
  String.ofList ((name.filter fun c => !(c == ' ' || c == '-' || c == '_')).map Char.toLower)

/-- The letters with case, as a category of two parts. -/
def casedLetter : CharSet :=
  unions [category 'L' (some 'u'), category 'L' (some 'l'), category 'L' (some 't')]

/-- The set of a property that is named with one or two letters. -/
def ofShortName (name : String) : Option CharSet :=
  match name.toList with
  | [a] =>
    if "lmnpszc".toList.contains a then some (category a.toUpper none) else none
  | [a, b] =>
    if name = "lc" then some casedLetter
    else if (["lu", "ll", "lt", "lm", "lo", "mn", "mc", "me", "nd", "nl", "no", "pc", "pd", "ps",
        "pe", "pi", "pf", "po", "sm", "sc", "sk", "so", "zs", "zl", "zp", "cc", "cf", "cn",
        "co"]).contains name then
      some (category a.toUpper (some b))
    else none
  | _ => none

/-- The set of a property with a name. -/
def ofPropertyName (name : List Char) : Option CharSet :=
  let n := looseName name
  (ofShortName n).or (((categoryNames.lookup n).map fun (a, b) => category a b).or
    (propertyNames.lookup n))

end CharSet

end ShellPreview.Pattern
