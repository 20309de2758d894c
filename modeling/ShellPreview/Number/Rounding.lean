/-!
# Rounding a quotient

`roundDiv n d` is the whole number nearest to `n / d`, the even one of two
that are equally near. `tenths` applies that rule to tenths, which
`tenthsText` writes with a point.
-/

namespace ShellPreview.Number

/-- The whole number nearest to `n / d`; a tie goes to the even neighbour. -/
def roundDiv (n d : Nat) : Nat :=
  let q := n / d
  let r := n % d
  if 2 * r < d then q
  else if d < 2 * r then q + 1
  else q + q % 2

/-- The quotient `n / d` in tenths. -/
def tenths (n d : Nat) : Nat :=
  roundDiv (10 * n) d

/-- A number of tenths, written with a point. -/
def tenthsText (t : Nat) : String :=
  Nat.repr (t / 10) ++ "." ++ Nat.repr (t % 10)

end ShellPreview.Number
