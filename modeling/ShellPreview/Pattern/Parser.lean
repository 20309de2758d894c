import ShellPreview.Pattern.Bracket
import ShellPreview.Pattern.Match
/-!
# Reading a pattern

`Pattern.parse` reads the text of a pattern. A text is refused if it is
malformed, if it nests too deep, or if the pattern becomes too large when
its repetitions are written out. Groups are counted from the left by their opening brackets.
-/

namespace ShellPreview

/-- A pattern and the number of its groups. -/
structure Pattern where
  node : Pattern.Node
  groups : Nat
deriving DecidableEq

namespace Pattern

/-- Why a text is no pattern. -/
inductive Refusal
  | malformed
  | tooLarge
deriving DecidableEq

/-- The wording of a refusal. -/
def Refusal.message : Refusal → String
  | .malformed => "regex parse error:"
  | .tooLarge => "Compiled regex exceeds size limit of 10485760 bytes."

/-- How large a pattern may become. -/
def maxWeight : Nat := 327680

/-- How deep a pattern may nest. -/
def maxHeight : Nat := 250

/-- The groups that have been opened: their number and their names. -/
structure Opened where
  count : Nat
  names : List (List Char)

/-- Part of a pattern: what stands in the last alternative, last first, in
which nothing stands for a change of flags; and the alternatives before
it, last first. -/
structure Draft where
  items : List (Option Node)
  branches : List Node

/-- A part of which nothing has been read. -/
def Draft.empty : Draft := ⟨[], []⟩

/-- The last alternative as a pattern. -/
def Draft.branch (d : Draft) : Node :=
  .sequence (d.items.reverse.filterMap id)

/-- The part as a pattern. -/
def Draft.node (d : Draft) : Node :=
  .choice (d.branch :: d.branches).reverse

/-- Adds an item. -/
def Draft.push (d : Draft) (item : Option Node) : Draft :=
  { d with items := item :: d.items }

/-- Changes the last item, if it can be repeated. -/
def Draft.change (d : Draft) (f : Node → Node) : Option Draft :=
  match d.items with
  | some a :: items => some { d with items := some (f a) :: items }
  | _ => none

/-- Reads a decimal number with blanks around it. -/
def readDecimal (f : Flags) (cs : List Char) : Option (Nat × List Char) :=
  let r := cs.dropWhile Text.isBlank
  let rec take : Nat → List Char → List Char × List Char
    | _, [] => ([], [])
    | 0, cs => ([], cs)
    | fuel + 1, c :: cs =>
      if c.isDigit then
        let (ds, r) := take fuel (f.skip cs)
        (c :: ds, r)
      else ([], c :: cs)
  let (ds, r) := take (r.length + 1) r
  let n := ds.foldl (fun n c => 10 * n + (c.toNat - '0'.toNat)) 0
  if ds.isEmpty || UInt32.size ≤ n then none else some (n, f.skip (r.dropWhile Text.isBlank))

/-- Reads the counts of a repetition, behind the opening brace. -/
def readCounts (f : Flags) (cs : List Char) : Option ((Nat × Option Nat) × List Char) := do
  let (min, r) ← readDecimal f (f.skip cs)
  match r with
  | '\x7d' :: r => return ((min, some min), r)
  | ',' :: r =>
    match f.skip r with
    | '\x7d' :: r => return ((min, none), r)
    | r =>
      match ← readDecimal f r with
      | (max, '\x7d' :: r) => if min ≤ max then return ((min, some max), r) else none
      | _ => none
  | _ => none

/-- Whether the repetition is greedy, and the text behind the mark that
says so. -/
def readGreed (f : Flags) : List Char → Bool × List Char
  | '?' :: r => (f.swapGreed, r)
  | r => (!f.swapGreed, r)

/-- Whether a character may stand in the name of a group. -/
def isNameChar (first : Bool) (c : Char) : Bool :=
  let k := Text.category c
  if first then c == '_' || Text.isAlphabetic c
  else c == '_' || c == '.' || c == '[' || c == ']' || Text.isAlphabetic c || k.major == 'N'

/-- Reads the name of a group and opens it. -/
def openNamed (opened : Opened) (cs : List Char) : Option (Opened × List Char) :=
  let name := cs.takeWhile (· ≠ '>')
  match name, cs.dropWhile (· ≠ '>') with
  | c :: rest, _ :: r =>
    if isNameChar true c && rest.all (isNameChar false) && !opened.names.contains name then
      some (⟨opened.count + 1, name :: opened.names⟩, r)
    else none
  | _, _ => none

/-- How a group begins. -/
inductive Opening
  | flags (f : Flags)
  | plain (f : Flags)
  | counted

/-- Reads what stands behind an opening bracket: a name, flags, or
nothing. -/
def readOpening (f : Flags) (opened : Opened) (cs : List Char) :
    Option (Opening × Opened × List Char) :=
  match f.skip cs with
  | '?' :: 'P' :: '<' :: r => (openNamed opened r).map fun (opened, r) => (.counted, opened, r)
  | '?' :: '<' :: r => (openNamed opened r).map fun (opened, r) => (.counted, opened, r)
  | '?' :: r =>
    match f.read [] r with
    | some (f', _, ':' :: r) => some (.plain f', opened, r)
    | some (f', seen, ')' :: r) => if seen.isEmpty then none else some (.flags f', opened, r)
    | _ => none
  | r => some (.counted, { opened with count := opened.count + 1 }, r)

/-- The pattern of one token. -/
def Atom.node (f : Flags) : Atom → Option Node
  | .char c => some (.chars (f.folded (.single c)))
  | .byte _ => none
  | .set s => (f.checked s).map .chars
  | .edge e => some (.edge e)

/-- Reads up to the bracket that closes the group, which is left unread,
or to the end. -/
def readGroup : Nat → Flags → Opened → Draft → List Char → Option (Node × Opened × List Char)
  | 0, _, _, _, _ => none
  | fuel + 1, f, opened, draft, cs =>
    let push (node : Option Node) (r : List Char) : Option (Node × Opened × List Char) :=
      match node with
      | none => none
      | some node => readGroup fuel f opened (draft.push (some node)) r
    let change (min : Nat) (max : Option Nat) (greed : Bool × List Char) :
        Option (Node × Opened × List Char) :=
      match draft.change (.repeated greed.1 min max) with
      | none => none
      | some draft => readGroup fuel f opened draft greed.2
    match f.skip cs with
    | [] => some (draft.node, opened, [])
    | c :: r =>
      if c = ')' then some (draft.node, opened, c :: r)
      else if c = '(' then
        match readOpening f opened r with
        | none => none
        | some (.flags f', opened, r) => readGroup fuel f' opened (draft.push none) r
        | some (.plain f', opened, r) =>
          match readGroup fuel f' opened .empty r with
          | some (node, opened, ')' :: r) =>
            readGroup fuel f opened (draft.push (some (.group none node))) r
          | _ => none
        | some (.counted, opened', r) =>
          match readGroup fuel f opened' .empty r with
          | some (node, opened, ')' :: r) =>
            readGroup fuel f opened (draft.push (some (.group (some opened'.count) node))) r
          | _ => none
      else if c = '|' then readGroup fuel f opened ⟨[], draft.branch :: draft.branches⟩ r
      else if c = '?' then change 0 (some 1) (readGreed f r)
      else if c = '*' then change 0 none (readGreed f r)
      else if c = '+' then change 1 none (readGreed f r)
      else if c = '\x7b' then
        if draft.items.head?.join.isNone then none
        else
          match readCounts f r with
          | none => none
          | some ((min, max), r) => change min max (readGreed f (f.skip r))
      else if c = '[' then
        match readBracket f fuel r with
        | none => none
        | some (s, r) => push ((f.checked s).map .chars) r
      else if c = '.' then push ((f.checked f.dot).map .chars) r
      else if c = '^' then push (some (.edge f.start)) r
      else if c = '$' then push (some (.edge f.stop)) r
      else if c = '\\' then
        match readEscaped f r with
        | none => none
        | some (atom, r) => push (atom.node f) r
      else push (some (.chars (f.folded (.single c)))) r

/-- Reads a pattern. -/
def parse (text : String) : Except Refusal Pattern :=
  let cs := text.toList
  match readGroup (2 * cs.length + 2) .initial ⟨0, []⟩ .empty cs with
  | some (node, opened, []) =>
    if maxHeight < node.height then .error .malformed
    else if node.weight ≤ maxWeight then .ok ⟨node, opened.count⟩
    else .error .tooLarge
  | _ => .error .malformed

/-- What the first group matched that matched some text, in the first match
of the pattern. -/
def firstText (p : Pattern) (text : String) : Option String :=
  match p.node.search text.toList with
  | none => none
  | some groups => (firstGroup p.groups groups).map String.ofList

end Pattern

end ShellPreview
