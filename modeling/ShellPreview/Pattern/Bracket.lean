import ShellPreview.Pattern.Escape
/-!
# Sets in square brackets

Between square brackets stand characters, ranges, shorthands, named sets
and further brackets, whose union is meant; a circumflex in front takes
the complement. Three doubled signs stand for set operations, which apply
from the left. A closing bracket in front, and hyphens in front, at the
end or before a doubled hyphen, stand for themselves.
-/

namespace ShellPreview.Pattern

/-- Combines a set with what stood to the left of an operation. -/
abbrev Pending := CharSet → CharSet

/-- Whether a name of a set follows; then the set, and the text behind. -/
def readNamed (f : Flags) (cs : List Char) : Option (CharSet × List Char) :=
  match cs with
  | ':' :: r =>
    let (negated, r) := match r with
      | '^' :: r => (true, r)
      | r => (false, r)
    match r.dropWhile (· ≠ ':') with
    | ':' :: ']' :: behind =>
      match CharSet.asciiNamed.lookup (String.ofList (r.takeWhile (· ≠ ':'))) with
      | none => none
      | some s => some (if negated then .complement (f.folded s) else f.folded s, behind)
    | _ => none
  | _ => none

/-- Reads one character or escape. -/
def readItem (f : Flags) : List Char → Option (Atom × List Char)
  | [] => none
  | '\\' :: r => readEscaped f r
  | c :: r => some (.char c, r)

/-- The character that an end of a range is. -/
def Atom.asChar (f : Flags) : Atom → Option Char
  | .char c => if f.unicode || c.toNat < 128 then some c else none
  | .byte n => some (Char.ofNat n)
  | _ => none

/-- The set that an item is. -/
def Atom.asSet (f : Flags) : Atom → Option CharSet
  | .set s => some s
  | .edge _ => none
  | a => (a.asChar f).map CharSet.single

/-- Whether a hyphen in front, if there is one, stands for itself. -/
def isLoneHyphen (f : Flags) : List Char → Bool
  | '-' :: r =>
    match f.skip r with
    | ']' :: _ => true
    | '-' :: _ => true
    | _ => false
  | _ => true

/-- Reads a range, or an item that is no range. -/
def readRange (f : Flags) (cs : List Char) : Option (CharSet × List Char) := do
  let (a, r) ← readItem f cs
  let r := f.skip r
  if r.isEmpty then none
  else if isLoneHyphen f r then return (← a.asSet f, r)
  else
    let (b, r) ← readItem f (f.skip (r.drop 1))
    let first ← a.asChar f
    let last ← b.asChar f
    if first ≤ last then return (.range first last, r) else none

/-- What stands in front in brackets for itself: hyphens, or else a closing
bracket. -/
def readFront (f : Flags) : Bool → List Char → List CharSet × List Char
  | _, [] => ([], [])
  | isFirst, c :: cs =>
    if c = '-' then
      let (items, r) := readHyphens cs
      (.single '-' :: items, r)
    else if isFirst && c == ']' then ([.single ']'], f.skip cs)
    else ([], c :: cs)
where
  /-- Further hyphens. -/
  readHyphens : List Char → List CharSet × List Char
    | [] => ([], [])
    | c :: cs =>
      if c = '-' then
        let (items, r) := readHyphens cs
        (.single '-' :: items, r)
      else if f.spaced then ([], dropSpace false (c :: cs))
      else ([], c :: cs)

/-- Reads brackets, of which the opening one has been read, in no more
steps than `fuel`. -/
def readBracket (f : Flags) : Nat → List Char → Option (CharSet × List Char)
  | 0, _ => none
  | fuel + 1, cs =>
    let r := f.skip cs
    let (negated, r) := match r with
      | '^' :: r => (true, f.skip r)
      | r => (false, r)
    let (front, r) := readFront f true r
    (readUnion fuel (fun s => s) front r).map fun (s, r) =>
      let s := f.folded s
      (if negated then .complement s else s, r)
where
  /-- Reads items up to the closing bracket. -/
  readUnion : Nat → Pending → List CharSet → List Char → Option (CharSet × List Char)
    | 0, _, _, _ => none
    | fuel + 1, pending, items, cs =>
      let sum := CharSet.unions items
      match f.skip cs with
      | [] => none
      | ']' :: r => some (pending sum, r)
      | '[' :: r =>
        match readNamed f r with
        | some (s, r) => readUnion fuel pending (items ++ [s]) r
        | none =>
          match readBracket f fuel r with
          | none => none
          | some (s, r) => readUnion fuel pending (items ++ [s]) r
      | '&' :: '&' :: r =>
        readUnion fuel (.intersection (f.folded (pending sum)) ∘ f.folded) [] r
      | '-' :: '-' :: r => readUnion fuel (.difference (f.folded (pending sum)) ∘ f.folded) [] r
      | '~' :: '~' :: r => readUnion fuel (.oneOf (f.folded (pending sum)) ∘ f.folded) [] r
      | r =>
        match readRange f r with
        | none => none
        | some (s, r) => readUnion fuel pending (items ++ [s]) r

end ShellPreview.Pattern
