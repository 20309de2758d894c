import ShellPreview.Json.Token
/-!
# Reading JSON text

`readValue` reads one value strictly: lists and objects may nest a limited
number of times, and every text and number must have a value. `skipValue`
passes over a value that nobody asked for; it has no limit. `Json.parse`
reads a whole text, which holds one value and blanks around it.

The parts that are common to all readers of lists and objects stand first:
what separates items, what may stand before a key, and where a fault of
the form is reported, which is behind the closing bracket if it follows.
-/

namespace ShellPreview.Json

/-- How deep lists and objects may nest. -/
def maxDepth : Nat := 127

/-- Steps to the next item of a list, if there is one; the closing bracket
is left unread. -/
def nextItem (first : Bool) (cs : List Char) : Except Stop (Bool × List Char) :=
  match skipBlanks cs with
  | [] => .error (.ahead .eofList [])
  | ']' :: r => .ok (false, ']' :: r)
  | c :: r =>
    if first then .ok (true, c :: r)
    else if c = ',' then
      match skipBlanks r with
      | [] => .error (.ahead .eofValue [])
      | ']' :: r' => .error (.ahead .trailingComma (']' :: r'))
      | r' => .ok (true, r')
    else .error (.ahead .expectedListEnd (c :: r))

/-- Reads the bracket that closes a list. -/
def closeList (cs : List Char) : Except Stop (List Char) :=
  match skipBlanks cs with
  | [] => .error (.ahead .eofList [])
  | ']' :: r => .ok r
  | ',' :: r =>
    match skipBlanks r with
    | ']' :: r' => .error (.ahead .trailingComma (']' :: r'))
    | r' => .error (.ahead .trailingCharacters r')
  | r => .error (.ahead .trailingCharacters r)

/-- Where a fault of a list's form is reported. -/
def pastList (cs : List Char) : List Char :=
  match skipBlanks cs with
  | ']' :: r => r
  | ',' :: r => skipBlanks r
  | r => r

/-- Steps to the next key of an object, if there is one, and reads its
opening quote; the closing brace is left unread. -/
def nextKey (first : Bool) (cs : List Char) : Except Stop (Bool × List Char) :=
  match skipBlanks cs with
  | [] => .error (.ahead .eofObject [])
  | '\x7d' :: r => .ok (false, '\x7d' :: r)
  | c :: r =>
    if first then
      if c = '\x22' then .ok (true, r) else .error (.ahead .keyNotText (c :: r))
    else if c = ',' then
      match skipBlanks r with
      | [] => .error (.ahead .eofValue [])
      | '\x22' :: r' => .ok (true, r')
      | '\x7d' :: r' => .error (.ahead .trailingComma ('\x7d' :: r'))
      | r' => .error (.ahead .keyNotText r')
    else .error (.ahead .expectedObjectEnd (c :: r))

/-- Reads the brace that closes an object. -/
def closeObject (cs : List Char) : Except Stop (List Char) :=
  match skipBlanks cs with
  | [] => .error (.ahead .eofObject [])
  | '\x7d' :: r => .ok r
  | ',' :: r => .error (.ahead .trailingComma (',' :: r))
  | r => .error (.ahead .trailingCharacters r)

/-- Where a fault of an object's form is reported. -/
def pastObject (cs : List Char) : List Char :=
  match skipBlanks cs with
  | '\x7d' :: r => r
  | r => r

/-- Reads the colon behind a key. -/
def readColon (cs : List Char) : Except Stop (List Char) :=
  match skipBlanks cs with
  | [] => .error (.ahead .eofObject [])
  | ':' :: r => .ok r
  | r => .error (.ahead .expectedColon r)

/-- Reads items up to the closing bracket, which is left unread. Every
item has at least one character, so there are no more items than
characters. -/
def readItems {α : Type} (item : List Char → Reading α) :
    Nat → Bool → List Char → Reading (List α)
  | 0, _, cs => .error (.here .eofList cs)
  | fuel + 1, first, cs =>
    match nextItem first cs with
    | .error stop => .error stop
    | .ok (false, r) => .ok ([], r)
    | .ok (true, r) =>
      match item r with
      | .error stop => .error stop
      | .ok (v, r') =>
        match readItems item fuel false r' with
        | .error stop => .error stop
        | .ok (vs, r'') => .ok (v :: vs, r'')

/-- Reads members up to the closing brace, which is left unread. What a
key and the text behind it do to the state `σ` is given by `member`. -/
def readMembers {σ : Type} (member : σ → String → List Char → Reading σ) :
    Nat → Bool → σ → List Char → Reading σ
  | 0, _, _, cs => .error (.here .eofObject cs)
  | fuel + 1, first, state, cs =>
    match nextKey first cs with
    | .error stop => .error stop
    | .ok (false, r) => .ok (state, r)
    | .ok (true, r) =>
      match readText r with
      | .error stop => .error stop
      | .ok (key, r') =>
        match member state (String.ofList key) r' with
        | .error stop => .error stop
        | .ok (state', r'') => readMembers member fuel false state' r''

/-- Finishes a list: closes it, or fixes a loose fault behind it. -/
def finishList {α : Type} (r : Reading α) : Reading α :=
  match r with
  | .error stop => .error (stop.settle pastList)
  | .ok (v, cs) => (closeList cs).map fun r => (v, r)

/-- Finishes an object: closes it, or fixes a loose fault behind it. -/
def finishObject {α : Type} (r : Reading α) : Reading α :=
  match r with
  | .error stop => .error (stop.settle pastObject)
  | .ok (v, cs) => (closeObject cs).map fun r => (v, r)

/-- Reads one value; `room` is how deep lists and objects may still nest. -/
def readValue (room : Nat) (cs : List Char) : Reading Json :=
  match skipBlanks cs with
  | [] => .error (.ahead .eofValue [])
  | c :: r =>
    if c = 'n' then (readWord ['u', 'l', 'l'] r).map fun r => (.null, r)
    else if c = 't' then (readWord ['r', 'u', 'e'] r).map fun r => (.flag true, r)
    else if c = 'f' then (readWord ['a', 'l', 's', 'e'] r).map fun r => (.flag false, r)
    else if c = '\x22' then (readText r).map fun (s, r) => (.text (String.ofList s), r)
    else if c = '-' || c.isDigit then (readNumeral (c :: r)).map fun (n, r) => (.number n, r)
    else if c = '[' then
      match room with
      | 0 => .error (.ahead .tooDeep (c :: r))
      | room + 1 =>
        (finishList (readItems (readValue room) (r.length + 1) true r)).map fun (vs, r) =>
          (.list vs, r)
    else if c = '\x7b' then
      match room with
      | 0 => .error (.ahead .tooDeep (c :: r))
      | room + 1 =>
        let member (ms : List (String × Json)) (key : String) (cs : List Char) :
            Reading (List (String × Json)) :=
          match readColon cs with
          | .error stop => .error stop
          | .ok r => (readValue room r).map fun (v, r) => (ms ++ [(key, v)], r)
        (finishObject (readMembers member (r.length + 1) true [] r)).map fun (ms, r) =>
          (.object ms, r)
    else .error (.ahead .expectedValue (c :: r))

/-- Passes over one value, in no more steps than there are characters. -/
def skipValueIn : Nat → List Char → Except Stop (List Char)
  | 0, cs => .error (.here .eofValue cs)
  | fuel + 1, cs =>
    match skipBlanks cs with
    | [] => .error (.ahead .eofValue [])
    | c :: r =>
      if c = 'n' then readWord ['u', 'l', 'l'] r
      else if c = 't' then readWord ['r', 'u', 'e'] r
      else if c = 'f' then readWord ['a', 'l', 's', 'e'] r
      else if c = '\x22' then skipText r
      else if c = '-' || c.isDigit then skipNumeral (c :: r)
      else if c = '[' then
        match skipBlanks r with
        | [] => .error (.ahead .eofList [])
        | ']' :: r' => .ok r'
        | r' => skipItems fuel r'
      else if c = '\x7b' then
        match skipBlanks r with
        | [] => .error (.ahead .eofObject [])
        | '\x7d' :: r' => .ok r'
        | r' => skipMembers fuel r'
      else .error (.ahead .expectedValue (c :: r))
where
  /-- Passes over an item, those after it and the closing bracket. -/
  skipItems : Nat → List Char → Except Stop (List Char)
    | 0, cs => .error (.here .eofList cs)
    | fuel + 1, cs =>
      match skipValueIn fuel cs with
      | .error stop => .error stop
      | .ok r =>
        match skipBlanks r with
        | [] => .error (.ahead .eofList [])
        | ']' :: r' => .ok r'
        | ',' :: r' => skipItems fuel r'
        | r' => .error (.ahead .expectedListEnd r')
  /-- Passes over a member, those after it and the closing brace. -/
  skipMembers : Nat → List Char → Except Stop (List Char)
    | 0, cs => .error (.here .eofObject cs)
    | fuel + 1, cs =>
      match skipBlanks cs with
      | [] => .error (.ahead .eofObject [])
      | '\x22' :: r =>
        match skipText r with
        | .error stop => .error stop
        | .ok r =>
          match readColon r with
          | .error stop => .error stop
          | .ok r =>
            match skipValueIn fuel r with
            | .error stop => .error stop
            | .ok r =>
              match skipBlanks r with
              | [] => .error (.ahead .eofObject [])
              | '\x7d' :: r' => .ok r'
              | ',' :: r' => skipMembers fuel r'
              | r' => .error (.ahead .expectedObjectEnd r')
      | r => .error (.ahead .keyNotText r)

/-- Passes over one value. -/
def skipValue (cs : List Char) : Except Stop (List Char) :=
  skipValueIn (2 * cs.length + 2) cs

/-- Nothing but blanks may stand behind the value of a whole text. -/
def readEnd (cs : List Char) : Except Stop Unit :=
  match skipBlanks cs with
  | [] => .ok ()
  | r => .error (.ahead .trailingCharacters r)

/-- Reads a whole text with a reader of one value. -/
def readWhole {α : Type} (reader : List Char → Reading α) (text : String) : Except Fault α :=
  let cs := text.toList
  match reader cs with
  | .error stop => .error (stop.fault cs)
  | .ok (v, r) =>
    match readEnd r with
    | .error stop => .error (stop.fault cs)
    | .ok () => .ok v

/-- The value that a text spells, with objects as maps. -/
def parse (text : String) : Except Fault Json :=
  (readWhole (readValue maxDepth) text).map sorted

end ShellPreview.Json
