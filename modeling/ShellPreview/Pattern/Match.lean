import ShellPreview.Pattern.Basic
/-!
# Matching a pattern

`Node.run` matches a pattern at a place and goes on with what comes after
it, in the order of preference: the first way in which all of it succeeds
is the match. `search` takes the first place from the left at which there
is a match. A group keeps what it matched last.
-/

namespace ShellPreview.Pattern

/-- A place in a text, with what the groups have matched, the last first. -/
structure Place where
  before : Option Char
  rest : List Char
  groups : List (Nat × List Char)

/-- A word character of any script, or of ASCII. -/
def isWord (ascii : Bool) (c : Char) : Bool :=
  if ascii then CharSet.asciiWord.holds c else Text.isWordChar c

/-- Whether a condition holds between two characters, of which either may
be missing at an end of the text. -/
def Edge.holds (before behind : Option Char) : Edge → Bool
  | .textStart => before == none
  | .textEnd => behind == none
  | .lineStart => before == none || before == some '\n'
  | .lineEnd => behind == none || behind == some '\n'
  | .crlfStart =>
    before == none || before == some '\n' || (before == some '\r' && behind != some '\n')
  | .crlfEnd =>
    behind == none || behind == some '\r' || (behind == some '\n' && before != some '\r')
  | .wordBoundary ascii => before.any (isWord ascii) != behind.any (isWord ascii)
  | .noWordBoundary ascii => before.any (isWord ascii) == behind.any (isWord ascii)
  | .wordStart ascii => !before.any (isWord ascii) && behind.any (isWord ascii)
  | .wordEnd ascii => before.any (isWord ascii) && !behind.any (isWord ascii)
  | .wordStartHalf ascii => !before.any (isWord ascii)
  | .wordEndHalf ascii => !behind.any (isWord ascii)

/-- One step over a character of the set. -/
def Place.step (p : Place) (s : CharSet) : Option Place :=
  match p.rest with
  | [] => none
  | c :: cs => if s.holds c then some ⟨some c, cs, p.groups⟩ else none

/-- Keeps what a group matched from one place to another, if it has a
number. -/
def Place.keep (index : Option Nat) (start stop : Place) : Place :=
  match index with
  | none => stop
  | some i =>
    { stop with
      groups := (i, start.rest.take (start.rest.length - stop.rest.length)) :: stop.groups }

/-- How a match goes on. -/
abbrev Next := Place → Option Place

/-- The better of two ways, the other one if it fails. -/
def prefer (greedy : Bool) (more fewer : Unit → Option Place) : Option Place :=
  if greedy then
    match more () with
    | some p => some p
    | none => fewer ()
  else
    match fewer () with
    | some p => some p
    | none => more ()

/-- Repeats `step` behind a repetition, as often as it takes a character.
`fuel` is a number of characters that is not exceeded. -/
def again (step : Next → Next) (greedy : Bool) (next : Next) : Nat → Next
  | 0, p => next p
  | fuel + 1, p =>
    prefer greedy
      (fun _ => step (fun q =>
        if q.rest.length < p.rest.length then again step greedy next fuel q else none) p)
      (fun _ => next p)

/-- Repeats `step` once or more; the first time it need not take a
character. -/
def onceOrMore (step : Next → Next) (greedy : Bool) (next : Next) : Next := fun p =>
  step (again step greedy next p.rest.length) p

/-- Repeats `step` any number of times; the first time it need not take a
character. -/
def many (step : Next → Next) (greedy : Bool) (next : Next) : Next := fun p =>
  prefer greedy (fun _ => onceOrMore step greedy next p) (fun _ => next p)

/-- Repeats `step` a number of times. -/
def exactly (step : Next → Next) : Nat → Next → Next
  | 0, next => next
  | n + 1, next => step (exactly step n next)

/-- Repeats `step` no more than a number of times. -/
def atMost (step : Next → Next) (greedy : Bool) (next : Next) : Nat → Next
  | 0 => next
  | n + 1 => fun p =>
    prefer greedy (fun _ => step (atMost step greedy next n) p) (fun _ => next p)

/-- Matches a pattern at a place and goes on. -/
def Node.run : Node → Next → Next
  | .unit, next, p => next p
  | .chars s, next, p => (p.step s).bind next
  | .edge e, next, p => if e.holds p.before p.rest.head? then next p else none
  | .seq a b, next, p => a.run (b.run next) p
  | .alt a b, next, p =>
    match a.run next p with
    | some q => some q
    | none => b.run next p
  | .plus greedy a, next, p => onceOrMore (fun k => a.run k) greedy next p
  | .star greedy a, next, p => many (fun k => a.run k) greedy next p
  | .times a n, next, p => exactly (fun k => a.run k) n next p
  | .upTo greedy a n, next, p => atMost (fun k => a.run k) greedy next n p
  | .group index a, next, p => a.run (fun q => next (Place.keep index p q)) p

/-- The match at the first place from the left. -/
def Node.searchFrom (node : Node) : Option Char → List Char → Option Place
  | before, [] => node.run some ⟨before, [], []⟩
  | before, c :: cs =>
    match node.run some ⟨before, c :: cs, []⟩ with
    | some p => some p
    | none => node.searchFrom (some c) cs

/-- The groups of the first match in a text. -/
def Node.search (node : Node) (text : List Char) : Option (List (Nat × List Char)) :=
  (node.searchFrom none text).map Place.groups

/-- The first group, counted from one, that matched some text. -/
def firstGroup (count : Nat) (groups : List (Nat × List Char)) : Option (List Char) :=
  (List.range count).findSome? fun i =>
    (groups.lookup (i + 1)).bind fun text => if text.isEmpty then none else some text

end ShellPreview.Pattern
