import ShellPreview.Json.Schema
/-!
# Accepting a value

`Json.Schema.accept` gives the normal form of a value that has the form of
a schema, or says why it has not. A value that names its kind by a tag is
set aside first and accepted in a second step; such a value is `aside`,
and two messages and one spelling differ there.
-/

namespace ShellPreview.Json

/-- The value is not what was expected. -/
def unexpected {α : Type} (v : Json) (expected : String) : Except Cause α :=
  .error (.wrongType (found v) expected)

/-- Accepts the values of the members that belong to a field. -/
def acceptMembers (fields : FieldsOf (Json → Except Cause Json)) :
    List (String × Json) → List (String × Json) → Except Cause (List (String × Json))
  | done, [] => .ok done
  | done, (key, v) :: ms =>
    match fields.lookup key with
    | none => acceptMembers fields done ms
    | some (_, form) =>
      if (done.lookup key).isSome then .error (.duplicateField key)
      else
        match form v with
        | .error cause => .error cause
        | .ok v' => acceptMembers fields (done ++ [(key, v')]) ms

/-- How many items are too many, when there are some behind the last field
of `count`. -/
def tooMany (aside : Bool) (count total : Nat) : Cause :=
  if aside then
    .wrongLength total
      (Nat.repr count ++ (if count = 1 then " element" else " elements") ++ " in sequence")
  else .wrongLength total "fewer elements in array"

/-- Accepts the items of a list as the values of the fields, in order. -/
def acceptInOrder (what : String) (aside : Bool) (all total : Nat) :
    Nat → FieldsOf (Json → Except Cause Json) → List Json →
      Except Cause (List (String × Json))
  | _, [], [] => .ok []
  | _, [], _ :: _ => .error (tooMany aside all total)
  | index, fields, [] => completeList what all index fields
  | index, (key, _, form) :: fields, v :: vs =>
    match form v with
    | .error cause => .error cause
    | .ok v' =>
      (acceptInOrder what aside all total (index + 1) fields vs).map ((key, v') :: ·)

/-- Accepts a record. -/
def acceptRecord (what : String) (aside : Bool) (fields : FieldsOf (Json → Except Cause Json)) :
    Json → Except Cause (List (String × Json))
  | .object ms =>
    match acceptMembers fields [] ms with
    | .error cause => .error cause
    | .ok found => complete found fields
  | .list vs => acceptInOrder what aside fields.length vs.length 0 fields vs
  | v => unexpected v what

/-- Whether a value may stand behind a name that needs no value. -/
def acceptNothing (aside : Bool) : Json → Except Cause Unit
  | .null => .ok ()
  | .object [] => if aside then .ok () else unexpected (.object []) "unit"
  | v => unexpected v "unit"

/-- Accepts a name: a text, or an object with the name as its only key. -/
def acceptChoice (aside : Bool) (names : List String) : Json → Except Cause Json
  | .text s => if s ∈ names then .ok (.text s) else .error (.unknownVariant s names)
  | .object [(s, v)] =>
    if s ∈ names then (acceptNothing aside v).map fun _ => .text s
    else .error (.unknownVariant s names)
  | .object _ => .error (.wrongValue .map "map with a single key")
  | v => unexpected v "string or map"

/-- Accepts the name of a kind. -/
def acceptTag (names : List String) : Json → Except Cause String
  | .text s => if s ∈ names then .ok s else .error (.unknownVariant s names)
  | v => unexpected v "variant identifier"

/-- Finds the tag among the members; the others stay in order. -/
def splitTag (names : List String) (tag : String) :
    Option String × List (String × Json) → List (String × Json) →
      Except Cause (Option String × List (String × Json))
  | state, [] => .ok state
  | (kind, rest), (key, v) :: ms =>
    if key = tag then
      if kind.isSome then .error (.duplicateField tag)
      else
        match acceptTag names v with
        | .error cause => .error cause
        | .ok name => splitTag names tag (some name, rest) ms
    else splitTag names tag (kind, rest ++ [(key, v)]) ms

/-- Accepts the rest of a value whose kind is known. -/
def acceptKind (tag kind : String)
    (kinds : List (String × Option (String × FieldsOf (Json → Except Cause Json)))) (rest : Json) :
    Except Cause Json :=
  match kinds.lookup kind, rest with
  | some (some (what, fields)), rest =>
    (acceptRecord what true fields rest).map fun ms => .object ((tag, .text kind) :: ms)
  | _, .list (v :: vs) => .error (tooMany true 0 (v :: vs).length)
  | _, _ => .ok (.object [(tag, .text kind)])

/-- Accepts a value that names its kind by a tag. -/
def acceptTagged (what tag : String)
    (kinds : List (String × Option (String × FieldsOf (Json → Except Cause Json)))) :
    Json → Except Cause Json
  | .object ms =>
    match splitTag (kinds.map (·.1)) tag (none, []) ms with
    | .error cause => .error cause
    | .ok (none, _) => .error (.missingField tag)
    | .ok (some kind, rest) => acceptKind tag kind kinds (.object rest)
  | .list [] => .error (.missingField tag)
  | .list (v :: vs) =>
    match acceptTag (kinds.map (·.1)) v with
    | .error cause => .error cause
    | .ok kind => acceptKind tag kind kinds (.list vs)
  | v => unexpected v what

mutual

/-- The normal form of a value. -/
def Schema.acceptAt (aside : Bool) : Schema → Json → Except Cause Json
  | .anything, v => .ok v.sorted
  | .text, .text s => .ok (.text s)
  | .text, v => unexpected v "a string"
  | .flag, .flag b => .ok (.flag b)
  | .flag, v => unexpected v "a boolean"
  | .natural word, .number (.whole i) =>
    if i < 0 then .error (.wrongValue (.number (.whole i)) word) else .ok (.number (.whole i))
  | .natural word, v => unexpected v word
  | .choice names, v => acceptChoice aside names v
  | .dictionary, .object ms => .ok (Json.object ms).sorted
  | .dictionary, v => unexpected v "a map"
  | .optional _, .null => .ok .null
  | .optional form, v => form.acceptAt aside v
  | .list item, .list vs => (vs.mapM fun v => item.acceptAt aside v).map .list
  | .list _, v => unexpected v "a sequence"
  | .record what fields, v => (acceptRecord what aside (acceptFields aside fields) v).map .object
  | .tagged what tag kinds, v => acceptTagged what tag (acceptKinds kinds) v

/-- How to accept the values of fields. -/
def Schema.acceptFields (aside : Bool) :
    List (String × Absent × Schema) → FieldsOf (Json → Except Cause Json)
  | [] => []
  | (key, absent, form) :: fields =>
    (key, absent, fun v => form.acceptAt aside v) :: acceptFields aside fields

/-- How to accept the values of the fields of every kind. -/
def Schema.acceptKinds :
    List (String × Option (String × List (String × Absent × Schema))) →
      List (String × Option (String × FieldsOf (Json → Except Cause Json)))
  | [] => []
  | (kind, none) :: kinds => (kind, none) :: acceptKinds kinds
  | (kind, some (what, fields)) :: kinds =>
    (kind, some (what, acceptFields true fields)) :: acceptKinds kinds

end

/-- The normal form of a value that has the form of the schema. -/
def Schema.accept (form : Schema) (v : Json) : Except Fault Json :=
  (form.acceptAt false v).mapError fun cause => ⟨cause, none⟩

end ShellPreview.Json
