import ShellPreview.Pattern.CharSet
/-!
# Patterns

A pattern as a tree. `Node.unit` and `Node.chars` match nothing and one
character, an `Edge` holds between two characters, and the others are
built of smaller patterns. Of two ways to match, the one that stands first
is preferred: the left alternative, one more repetition if the repetition
is greedy, and one fewer if it is not. A group with a number keeps what it
matches, one without a number does not.
-/

namespace ShellPreview.Pattern

/-- A condition on the characters before and behind a place. -/
inductive Edge
  | textStart
  | textEnd
  | lineStart
  | lineEnd
  | crlfStart
  | crlfEnd
  | wordBoundary (ascii : Bool)
  | noWordBoundary (ascii : Bool)
  | wordStart (ascii : Bool)
  | wordEnd (ascii : Bool)
  | wordStartHalf (ascii : Bool)
  | wordEndHalf (ascii : Bool)
deriving DecidableEq

/-- A pattern. -/
inductive Node
  | unit
  | chars (s : CharSet)
  | edge (e : Edge)
  | seq (a b : Node)
  | alt (a b : Node)
  | plus (greedy : Bool) (a : Node)
  | star (greedy : Bool) (a : Node)
  | times (a : Node) (n : Nat)
  | upTo (greedy : Bool) (a : Node) (n : Nat)
  | group (index : Option Nat) (a : Node)
deriving DecidableEq

namespace Node

/-- One pattern after another. -/
def sequence : List Node → Node
  | [] => unit
  | [a] => a
  | a :: as => seq a (sequence as)

/-- One of the patterns, the first preferred. -/
def choice : List Node → Node
  | [] => unit
  | [a] => a
  | a :: as => alt a (choice as)

/-- A pattern between `min` and `max` times; with no `max`, as often as it
can be. -/
def repeated (greedy : Bool) (min : Nat) (max : Option Nat) (a : Node) : Node :=
  match max with
  | none =>
    if min = 0 then star greedy a
    else if min = 1 then plus greedy a
    else seq (times a (min - 1)) (plus greedy a)
  | some max =>
    if min = max then times a min
    else if min = 0 then upTo greedy a max
    else seq (times a min) (upTo greedy a (max - min))

/-- How large a pattern becomes when repetitions are written out. -/
def weight : Node → Nat
  | unit => 1
  | chars s => s.weight
  | edge _ => 1
  | seq a b => a.weight + b.weight
  | alt a b => a.weight + b.weight + 1
  | plus _ a => a.weight + 1
  | star _ a => a.weight + 1
  | times a n => a.weight * n
  | upTo _ a n => (a.weight + 1) * n
  | group none a => a.weight
  | group (some _) a => a.weight + 2

/-- How deep a pattern nests: groups, repetitions, sequences and
alternatives within each other. A sequence nests once, however long it is,
and so do alternatives. -/
def height : Node → Nat
  | unit => 0
  | chars _ => 0
  | edge _ => 0
  | seq a (seq b c) => max (a.height + 1) (seq b c).height
  | seq a b => max a.height b.height + 1
  | alt a (alt b c) => max (a.height + 1) (alt b c).height
  | alt a b => max a.height b.height + 1
  | plus _ a => a.height + 1
  | star _ a => a.height + 1
  | times a _ => a.height + 1
  | upTo _ a _ => a.height + 1
  | group _ a => a.height + 1

end Node

end ShellPreview.Pattern
