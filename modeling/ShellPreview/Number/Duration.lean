/-!
# Spans of time

A span of time is a number of nanoseconds. It is written in the largest
of four units that it fills, with as many digits behind the point as it
needs.
-/

namespace ShellPreview.Number

/-- Digits behind a point, padded to a width, without zeros at the end;
no point if none are left. -/
def fractionText (n width : Nat) : String :=
  let digits := Nat.toDigits 10 n
  let padded := List.replicate (width - digits.length) '0' ++ digits
  match (padded.reverse.dropWhile (· == '0')).reverse with
  | [] => ""
  | ds => "." ++ String.ofList ds

/-- A number of units of `10 ^ width` nanoseconds. -/
def inUnit (ns width : Nat) : String :=
  Nat.repr (ns / Nat.pow 10 width) ++ fractionText (ns % Nat.pow 10 width) width

/-- A span of time. -/
def durationText (ns : Nat) : String :=
  if 1000000000 ≤ ns then inUnit ns 9 ++ "s"
  else if 1000000 ≤ ns then inUnit ns 6 ++ "ms"
  else if 1000 ≤ ns then inUnit ns 3 ++ "µs"
  else Nat.repr ns ++ "ns"

end ShellPreview.Number
