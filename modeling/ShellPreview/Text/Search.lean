/-!
# Finding and replacing a piece of text

`occurs` says whether one text stands somewhere in another, and
`replaceAll` exchanges every occurrence, taken from the left and without
overlap. Both are recursions on the text that is searched; `holds_iff` and
`begins_iff` say which texts are found.
-/

namespace ShellPreview.Text

/-- Whether `needle` stands somewhere in the text. -/
def occurs (needle : List Char) : List Char → Bool
  | [] => needle.isEmpty
  | c :: cs => needle.isPrefixOf (c :: cs) || occurs needle cs

/-- Whether the text `hay` holds the text `needle`. -/
def holds (hay needle : String) : Bool :=
  occurs needle.toList hay.toList

/-- Whether the text `hay` begins with the text `needle`. -/
def begins (hay needle : String) : Bool :=
  needle.toList.isPrefixOf hay.toList

/-- A text occurs in the texts that have it as a part. -/
theorem occurs_iff {needle cs : List Char} : occurs needle cs = true ↔ needle <:+: cs := by
  induction cs with
  | nil => simp [occurs]
  | cons c cs ih => simp [occurs, ih, List.infix_cons_iff]

/-- A text holds the texts that are parts of it. -/
theorem holds_iff {hay needle : String} :
    holds hay needle = true ↔ needle.toList <:+: hay.toList :=
  occurs_iff

/-- A text begins with the texts that are in front of it. -/
theorem begins_iff {hay needle : String} :
    begins hay needle = true ↔ needle.toList <+: hay.toList :=
  List.isPrefixOf_iff_prefix

theorem begins_append (needle behind : String) : begins (needle ++ behind) needle = true := by
  rw [begins_iff, String.toList_append]
  exact List.prefix_append _ _

/-- Replaces while `skip` characters of an occurrence are still to be
passed over. -/
def replaceFrom (needle new : List Char) : Nat → List Char → List Char
  | _, [] => []
  | skip + 1, _ :: cs => replaceFrom needle new skip cs
  | 0, c :: cs =>
    if needle.isPrefixOf (c :: cs) then new ++ replaceFrom needle new (needle.length - 1) cs
    else c :: replaceFrom needle new 0 cs

/-- The text with every occurrence of a nonempty `needle` replaced. -/
def replaceAll (hay needle new : String) : String :=
  if needle.isEmpty then hay
  else String.ofList (replaceFrom needle.toList new.toList 0 hay.toList)

/-- What stands after the last occurrence of a character, with that
character in front; nothing when it does not occur. -/
def fromLast (mark : Char) (cs : List Char) : Option (List Char) :=
  if mark ∈ cs then some (mark :: (cs.reverse.takeWhile (· ≠ mark)).reverse) else none

end ShellPreview.Text
