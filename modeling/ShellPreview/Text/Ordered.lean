/-!
# Sets of texts

A set of texts is kept as a list in increasing order without repetitions,
which is the order of code points. `insert` puts a text in its place and
`ofList` makes the set of the members of a list.
-/

namespace ShellPreview.Text.Ordered

/-- Puts a text among texts in increasing order. -/
def insert (s : String) : List String → List String
  | [] => [s]
  | t :: ts => if s < t then s :: t :: ts else if s = t then t :: ts else t :: insert s ts

/-- The texts of a list in increasing order, each once. -/
def ofList (texts : List String) : List String :=
  texts.foldl (fun set s => insert s set) []

/-- A set has the texts that were there and the one that was put in. -/
theorem mem_insert {s t : String} {set : List String} :
    t ∈ insert s set ↔ t = s ∨ t ∈ set := by
  induction set with
  | nil => simp [insert]
  | cons u us ih => grind [insert]

/-- The set of the members of a list, put into a set, has both. -/
theorem mem_foldl_insert {t : String} {texts set : List String} :
    t ∈ texts.foldl (fun set s => insert s set) set ↔ t ∈ texts ∨ t ∈ set := by
  induction texts generalizing set with
  | nil => simp
  | cons s texts ih => grind [mem_insert]

/-- **The set of a list has the members of the list.** -/
theorem mem_ofList {t : String} {texts : List String} : t ∈ ofList texts ↔ t ∈ texts := by
  simp [ofList, mem_foldl_insert]

end ShellPreview.Text.Ordered
