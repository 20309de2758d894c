import ShellPreview.Json.Reader
/-!
# Forms of JSON values

A `Schema` says which values are accepted where: a text, a natural number,
a list of some form, a record with named fields, and so on. A value that
is accepted has a normal form, in which a record holds exactly its fields,
in the order of the schema, with the value of the schema for a field that
was absent; members that no field asks for are dropped. Reading with a
schema (`Json.Schema.read` from a text, `Json.Schema.accept` from a value)
gives the normal form.

A record may be written as a list of the values of its fields, in order.
-/

namespace ShellPreview.Json

/-- What stands for a field that is absent. A field that is `optional` is
null when no member has its key, but may not be left out of a list. -/
inductive Absent
  | required
  | optional
  | fallback (value : Json)

/-- Which values are accepted. -/
inductive Schema
  /-- Any value. -/
  | anything
  /-- A text. -/
  | text
  /-- A truth value. -/
  | flag
  /-- A natural number of 64 bits; messages call it by the word. -/
  | natural (word : String)
  /-- One of the names. -/
  | choice (names : List String)
  /-- An object whose members have any value. -/
  | dictionary
  /-- Null, or what is accepted otherwise. -/
  | optional (form : Schema)
  /-- A list of accepted items. -/
  | list (item : Schema)
  /-- A record with these fields; messages call it by what it is. -/
  | record (what : String) (fields : List (String × Absent × Schema))
  /-- A record of one of several kinds. The member with the key `tag`
  names the kind; each kind has a description and fields, or none when it
  has no fields at all. -/
  | tagged (what tag : String)
      (kinds : List (String × Option (String × List (String × Absent × Schema))))

/-- Fields, each with a way to read its value. -/
abbrev FieldsOf (α : Type) := List (String × Absent × α)

/-- What messages call a record that is written as a list. -/
def withElements (what : String) (count : Nat) : String :=
  what ++ " with " ++ Nat.repr count ++ (if count = 1 then " element" else " elements")

/-- The value of every field, given those that were found. -/
def complete {α : Type} (found : List (String × Json)) :
    FieldsOf α → Except Cause (List (String × Json))
  | [] => .ok []
  | (key, absent, _) :: fields =>
    match found.lookup key, absent with
    | none, .required => .error (.missingField key)
    | none, .optional => (complete found fields).map ((key, .null) :: ·)
    | none, .fallback v => (complete found fields).map ((key, v) :: ·)
    | some v, _ => (complete found fields).map ((key, v) :: ·)

/-- The values of the fields that a list ended before; `index` fields out
of all came before them. -/
def completeList {α : Type} (what : String) (all : Nat) (index : Nat) :
    FieldsOf α → Except Cause (List (String × Json))
  | [] => .ok []
  | (key, .fallback v, _) :: fields =>
    (completeList what all (index + 1) fields).map ((key, v) :: ·)
  | _ :: _ => .error (.wrongLength index (withElements what all))

end ShellPreview.Json
