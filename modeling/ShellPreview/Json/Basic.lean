import ShellPreview.Number.Binary64
/-!
# JSON values

A JSON value as a tree. An object keeps its members in the order in which
they were written, with repetitions; `Json.sorted` is the normal form in
which an object is a finite map: keys in increasing order, of members with
one key the last. Two values that differ only in the order of members have
the same normal form.
-/

namespace ShellPreview

/-- A number: whole, or with a fraction or exponent. -/
inductive Json.Numeral
  | whole (i : Int)
  | real (x : Number.Binary64)
deriving DecidableEq

/-- A JSON value. -/
inductive Json
  | null
  | flag (b : Bool)
  | number (n : Json.Numeral)
  | text (s : String)
  | list (items : List Json)
  | object (members : List (String × Json))
deriving Inhabited

namespace Json

/-- A natural number as a value. -/
def nat (n : Nat) : Json :=
  .number (.whole n)

/-- Puts a member among members with increasing keys, in place of one with
its key. -/
def insertMember (key : String) (value : Json) : List (String × Json) → List (String × Json)
  | [] => [(key, value)]
  | (k, v) :: ms =>
    if key < k then (key, value) :: (k, v) :: ms
    else if key = k then (key, value) :: ms
    else (k, v) :: insertMember key value ms

/-- The members as a map: increasing keys, the last member of each key. -/
def mapOf (members : List (String × Json)) : List (String × Json) :=
  members.foldl (fun ms m => insertMember m.1 m.2 ms) []

mutual

/-- The value with every object as a map. -/
def sorted : Json → Json
  | .list items => .list (sortedItems items)
  | .object members => .object (mapOf (sortedMembers members))
  | v => v

/-- The items, each with every object as a map. -/
def sortedItems : List Json → List Json
  | [] => []
  | v :: vs => sorted v :: sortedItems vs

/-- The members, each value with every object as a map. -/
def sortedMembers : List (String × Json) → List (String × Json)
  | [] => []
  | (k, v) :: ms => (k, sorted v) :: sortedMembers ms

end

/-- The value of the last member with the key, if the value is an object
that has one. -/
def get? (v : Json) (key : String) : Option Json :=
  match v with
  | .object members => members.reverse.lookup key
  | _ => none

/-- The value of a member; null when there is none. -/
def field (v : Json) (key : String) : Json :=
  (v.get? key).getD .null

/-- The text, if the value is one. -/
def text? : Json → Option String
  | .text s => some s
  | _ => none

/-- The text of a value that is known to be one. -/
def asText (v : Json) : String :=
  v.text?.getD ""

/-- The natural number of a value that is known to be one. -/
def asNat : Json → Nat
  | .number (.whole i) => i.toNat
  | _ => 0

/-- The truth value of a value that is known to be one. -/
def asFlag : Json → Bool
  | .flag b => b
  | _ => false

/-- The items of a value that is known to be a list. -/
def asList : Json → List Json
  | .list items => items
  | _ => []

/-- The members of a value that is known to be an object. -/
def asMembers : Json → List (String × Json)
  | .object members => members
  | _ => []

/-- Nothing for null, else what `f` makes of the value. -/
def orNull {α : Type} (f : Json → α) : Json → Option α
  | .null => none
  | v => some (f v)

end Json

end ShellPreview
