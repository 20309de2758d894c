import ShellPreview.Json.Schema.Value
/-!
# Reading a text with a schema

`Json.Schema.parse` reads a whole text that spells a value of the form of
a schema, in one pass from the left: of several faults the first one that
this pass meets is reported. A wrong value is reported behind it if it is
no list and no object, and before its bracket otherwise; a field that is
missing or given twice, or a list of the wrong length, is reported behind
the record.
-/

namespace ShellPreview.Json

/-- Reads what stands in front as far as a message names it: a list or an
object is left unread. -/
def readFound (cs : List Char) : Reading Found :=
  match skipBlanks cs with
  | [] => .error (.ahead .eofValue [])
  | c :: r =>
    if c = 'n' then (readWord ['u', 'l', 'l'] r).map fun r => (.null, r)
    else if c = 't' then (readWord ['r', 'u', 'e'] r).map fun r => (.flag true, r)
    else if c = 'f' then (readWord ['a', 'l', 's', 'e'] r).map fun r => (.flag false, r)
    else if c = '\x22' then (readText r).map fun (s, r) => (.text (String.ofList s), r)
    else if c = '-' || c.isDigit then (readNumeral (c :: r)).map fun (n, r) => (.number n, r)
    else if c = '[' then .ok (.list, c :: r)
    else if c = '\x7b' then .ok (.map, c :: r)
    else .error (.ahead .expectedValue (c :: r))

/-- The value in front is not what was expected. -/
def mismatch {α : Type} (expected : String) (cs : List Char) : Reading α :=
  match readFound cs with
  | .error stop => .error stop
  | .ok (met, r) => .error (.here (.wrongType met expected) r)

/-- Makes a cause a fault that is reported behind the enclosing bracket. -/
def loosely {α : Type} (rest : List Char) : Except Cause α → Reading α
  | .error cause => .error (.loose cause rest)
  | .ok v => .ok (v, rest)

/-- Reads a text. -/
def readPlainText (expected : String) (cs : List Char) : Reading String :=
  match skipBlanks cs with
  | '\x22' :: r => (readText r).map fun (s, r) => (String.ofList s, r)
  | r => mismatch expected r

/-- Reads a truth value. -/
def readFlag (cs : List Char) : Reading Json :=
  match skipBlanks cs with
  | 't' :: r => (readWord ['r', 'u', 'e'] r).map fun r => (.flag true, r)
  | 'f' :: r => (readWord ['a', 'l', 's', 'e'] r).map fun r => (.flag false, r)
  | r => mismatch "a boolean" r

/-- Reads a natural number. -/
def readNatural (word : String) (cs : List Char) : Reading Json :=
  match skipBlanks cs with
  | [] => .error (.ahead .eofValue [])
  | c :: r =>
    if c = '-' || c.isDigit then
      match readNumeral (c :: r) with
      | .error stop => .error stop
      | .ok (.whole i, r') =>
        if i < 0 then .error (.here (.wrongValue (.number (.whole i)) word) r')
        else .ok (.number (.whole i), r')
      | .ok (.real x, r') => .error (.here (.wrongType (.number (.real x)) word) r')
    else mismatch word (c :: r)

/-- Reads one of the names, as a text. -/
def readName (expected : String) (names : List String) (cs : List Char) : Reading String :=
  match readPlainText expected cs with
  | .error stop => .error stop
  | .ok (s, r) => if s ∈ names then .ok (s, r) else .error (.here (.unknownVariant s names) r)

/-- Reads the null behind a name that needs no value. -/
def readNothing (cs : List Char) : Except Stop (List Char) :=
  match skipBlanks cs with
  | 'n' :: r => readWord ['u', 'l', 'l'] r
  | r => (mismatch "unit" r : Reading Unit).map (·.2)

/-- Reads what stands behind a name that is the only key of an object. -/
def readNameEnd (cs : List Char) : Except Stop (List Char) :=
  match readColon cs with
  | .error stop => .error stop
  | .ok r =>
    match readNothing r with
    | .error stop => .error stop
    | .ok r' =>
      match skipBlanks r' with
      | '\x7d' :: r'' => .ok r''
      | [] => .error (.here .eofObject [])
      | r'' => .error (.here .expectedValue r'')

/-- Reads one of the names, as a text or as the only key of an object. -/
def readChoice (room : Nat) (names : List String) (cs : List Char) : Reading Json :=
  match skipBlanks cs with
  | [] => .error (.ahead .eofValue [])
  | c :: r =>
    if c = '\x22' then (readName "variant identifier" names (c :: r)).map fun (s, r) => (.text s, r)
    else if c = '\x7b' then
      match room with
      | 0 => .error (.ahead .tooDeep (c :: r))
      | _ + 1 =>
        match readName "variant identifier" names r with
        | .error stop => .error stop
        | .ok (s, r) => (readNameEnd r).map fun r => (.text s, r)
    else .error (.ahead .expectedValue (c :: r))

/-- Reads an object whose opening brace has been read. -/
def readMap (room : Nat) (r : List Char) : Reading (List (String × Json)) :=
  let member (ms : List (String × Json)) (key : String) (cs : List Char) :
      Reading (List (String × Json)) :=
    match readColon cs with
    | .error stop => .error stop
    | .ok r => (readValue room r).map fun (v, r) => (ms ++ [(key, v)], r)
  finishObject (readMembers member (r.length + 1) true [] r)

/-- Reads the members of a record. -/
def readRecordMembers (fields : FieldsOf (List Char → Reading Json)) (cs : List Char) :
    Reading (List (String × Json)) :=
  let member (done : List (String × Json)) (key : String) (r : List Char) :
      Reading (List (String × Json)) :=
    match fields.lookup key with
    | none =>
      match readColon r with
      | .error stop => .error stop
      | .ok r => (skipValue r).map fun r => (done, r)
    | some (_, form) =>
      if (done.lookup key).isSome then .error (.loose (.duplicateField key) r)
      else
        match readColon r with
        | .error stop => .error stop
        | .ok r => (form r).map fun (v, r) => (done ++ [(key, v)], r)
  match readMembers member (cs.length + 1) true [] cs with
  | .error stop => .error stop
  | .ok (found, r) => loosely r (complete found fields)

/-- Reads the items of a list as the values of the fields, in order. -/
def readInOrder (what : String) (all : Nat) :
    Nat → Bool → FieldsOf (List Char → Reading Json) → List Char →
      Reading (List (String × Json))
  | _, _, [], cs => .ok ([], cs)
  | index, first, (key, absent, form) :: fields, cs =>
    match nextItem first cs with
    | .error stop => .error stop
    | .ok (false, r) => loosely r (completeList what all index ((key, absent, form) :: fields))
    | .ok (true, r) =>
      match form r with
      | .error stop => .error stop
      | .ok (v, r') =>
        (readInOrder what all (index + 1) false fields r').map fun (ms, r) => ((key, v) :: ms, r)

/-- Reads a record. -/
def readRecord (what : String) (room : Nat)
    (fields : Nat → FieldsOf (List Char → Reading Json)) (cs : List Char) : Reading Json :=
  match skipBlanks cs, room with
  | '[' :: r, 0 => .error (.ahead .tooDeep ('[' :: r))
  | '[' :: r, room + 1 =>
    (finishList (readInOrder what (fields room).length 0 true (fields room) r)).map fun (ms, r) =>
      (.object ms, r)
  | '\x7b' :: r, 0 => .error (.ahead .tooDeep ('\x7b' :: r))
  | '\x7b' :: r, room + 1 =>
    (finishObject (readRecordMembers (fields room) r)).map fun (ms, r) => (.object ms, r)
  | r, _ => mismatch what r

/-- Reads the tag and the other members of an object. -/
def readTagMembers (names : List String) (tag : String) (room : Nat) (cs : List Char) :
    Reading (String × Json) :=
  let member (state : Option String × List (String × Json)) (key : String) (r : List Char) :
      Reading (Option String × List (String × Json)) :=
    if key = tag then
      if state.1.isSome then .error (.loose (.duplicateField tag) r)
      else
        match readColon r with
        | .error stop => .error stop
        | .ok r =>
          (readName "variant identifier" names r).map fun (kind, r) => ((some kind, state.2), r)
    else
      match readColon r with
      | .error stop => .error stop
      | .ok r => (readValue room r).map fun (v, r) => ((state.1, state.2 ++ [(key, v)]), r)
  match readMembers member (cs.length + 1) true (none, []) cs with
  | .error stop => .error stop
  | .ok ((none, _), r) => .error (.loose (.missingField tag) r)
  | .ok ((some kind, rest), r) => .ok ((kind, .object rest), r)

/-- Reads the tag and the other items of a list. -/
def readTagItems (names : List String) (tag : String) (room : Nat) (cs : List Char) :
    Reading (String × Json) :=
  match nextItem true cs with
  | .error stop => .error stop
  | .ok (false, r) => .error (.loose (.missingField tag) r)
  | .ok (true, r) =>
    match readName "variant identifier" names r with
    | .error stop => .error stop
    | .ok (kind, r') =>
      (readItems (readValue room) (r'.length + 1) false r').map fun (vs, r) => ((kind, .list vs), r)

/-- Reads a value that names its kind by a tag. -/
def readTagged (what tag : String) (room : Nat)
    (kinds : List (String × Option (String × FieldsOf (Json → Except Cause Json))))
    (cs : List Char) : Reading Json :=
  let names := kinds.map (·.1)
  let settled (r : Reading (String × Json)) : Reading Json :=
    match r with
    | .error stop => .error stop
    | .ok ((kind, rest), r) => loosely r (acceptKind tag kind kinds rest)
  match skipBlanks cs, room with
  | '[' :: r, 0 => .error (.ahead .tooDeep ('[' :: r))
  | '[' :: r, room + 1 => settled (finishList (readTagItems names tag room r))
  | '\x7b' :: r, 0 => .error (.ahead .tooDeep ('\x7b' :: r))
  | '\x7b' :: r, room + 1 => settled (finishObject (readTagMembers names tag room r))
  | r, _ => mismatch what r

mutual

/-- Reads a value of the form of the schema and gives its normal form;
`room` is how deep lists and objects may still nest. -/
def Schema.read : Schema → Nat → List Char → Reading Json
  | .anything, room, cs => (readValue room cs).map fun (v, r) => (v.sorted, r)
  | .text, _, cs => (readPlainText "a string" cs).map fun (s, r) => (.text s, r)
  | .flag, _, cs => readFlag cs
  | .natural word, _, cs => readNatural word cs
  | .choice names, room, cs => readChoice room names cs
  | .dictionary, room, cs =>
    match skipBlanks cs, room with
    | '\x7b' :: r, 0 => .error (.ahead .tooDeep ('\x7b' :: r))
    | '\x7b' :: r, room + 1 => (readMap room r).map fun (ms, r) => ((Json.object ms).sorted, r)
    | r, _ => mismatch "a map" r
  | .optional form, room, cs =>
    match skipBlanks cs with
    | 'n' :: r => (readWord ['u', 'l', 'l'] r).map fun r => (.null, r)
    | r => form.read room r
  | .list item, room, cs =>
    match skipBlanks cs, room with
    | '[' :: r, 0 => .error (.ahead .tooDeep ('[' :: r))
    | '[' :: r, room + 1 =>
      (finishList (readItems (fun cs => item.read room cs) (r.length + 1) true r)).map
        fun (vs, r) => (.list vs, r)
    | r, _ => mismatch "a sequence" r
  | .record what fields, room, cs =>
    readRecord what room (fun room => readFields fields room) cs
  | .tagged what tag kinds, room, cs => readTagged what tag room (acceptKinds kinds) cs

/-- How to read the values of fields. -/
def Schema.readFields :
    List (String × Absent × Schema) → Nat → FieldsOf (List Char → Reading Json)
  | [], _ => []
  | (key, absent, form) :: fields, room =>
    (key, absent, fun cs => form.read room cs) :: readFields fields room

end

/-- The normal form of the value that a whole text spells. -/
def Schema.parse (form : Schema) (text : String) : Except Fault Json :=
  readWhole (form.read maxDepth) text

end ShellPreview.Json
