/-!
# Punycode

How a label of a domain name with letters of any script is written in
ASCII: the ASCII characters first, then, behind the last hyphen, a number
in base 36 for every other character, which says which character it is and
where it stands. `decode` reads such a label back.
-/

namespace ShellPreview.Url.Punycode

/-- The value of a digit in base 36: letters first. -/
def digitValue (c : Char) : Option Nat :=
  if 'a' ≤ c ∧ c ≤ 'z' then some (c.toNat - 'a'.toNat)
  else if 'A' ≤ c ∧ c ≤ 'Z' then some (c.toNat - 'A'.toNat)
  else if c.isDigit then some (c.toNat - '0'.toNat + 26)
  else none

/-- The threshold of the digit at a position. -/
def threshold (position bias : Nat) : Nat :=
  if position ≤ bias then 1 else if bias + 26 ≤ position then 26 else position - bias

/-- Divides a difference until it is small, counting positions. -/
def shrink (delta position : Nat) : Nat × Nat :=
  if 455 < delta then shrink (delta / 35) (position + 36) else (delta, position)
termination_by delta
decreasing_by exact Nat.div_lt_self (by omega) (by omega)

/-- The bias for the next number. -/
def adapt (delta count : Nat) (isFirst : Bool) : Nat :=
  let d := if isFirst then delta / 700 else delta / 2
  let (rest, position) := shrink (d + d / count) 0
  position + 36 * rest / (rest + 38)

/-- What has been read: the characters so far, the character and place
reached, the bias, and the weight and position of the next digit of a
number that began at the place `start`. -/
structure Progress where
  output : List Char
  codePoint : Nat
  place : Nat
  bias : Nat
  weight : Nat
  position : Nat
  start : Nat

/-- Puts the character that a finished number stands for. -/
def Progress.put (p : Progress) : Option Progress :=
  let count := p.output.length + 1
  let n := p.codePoint + p.place / count
  let i := p.place % count
  if Nat.isValidChar n then
    some ⟨p.output.take i ++ Char.ofNat n :: p.output.drop i, n, i + 1,
      adapt (p.place - p.start) count (p.start == 0), 1, 36, i + 1⟩
  else none

/-- Reads one digit. -/
def Progress.step (p : Progress) (digit : Nat) : Option Progress :=
  let t := threshold p.position p.bias
  let p' := { p with place := p.place + digit * p.weight }
  if digit < t then p'.put
  else some { p' with weight := p.weight * (36 - t), position := p.position + 36 }

/-- Reads digits; the last number must be finished. -/
def run (p : Progress) : List Char → Option (List Char)
  | [] => if p.position = 36 then some p.output else none
  | c :: cs => do
    let digit ← digitValue c
    run (← p.step digit) cs

/-- The label that an ASCII label stands for. -/
def decode (label : List Char) : Option (List Char) :=
  let tail := (label.reverse.takeWhile (· ≠ '-')).reverse
  let front := (label.reverse.dropWhile (· ≠ '-')).drop 1 |>.reverse
  run ⟨front, 128, 0, 72, 1, 36, 0⟩ tail

end ShellPreview.Url.Punycode
