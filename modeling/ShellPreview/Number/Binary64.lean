import ShellPreview.Number.Rounding
/-!
# Numbers with a 53-bit significand

`Binary64` holds the finite values of the usual double-precision format:
a sign and a magnitude `significand * 2 ^ exponent`. Every operation is
exact arithmetic on naturals followed by one rounding, `ofRatio`, which
takes the nearest representable value and the even significand of two
that are equally near. A magnitude beyond the largest finite value is no
value of the type.
-/

namespace ShellPreview.Number

/-- A magnitude `significand * 2 ^ exponent`. -/
structure Magnitude where
  significand : Nat
  exponent : Int
deriving DecidableEq

/-- A finite double-precision number. -/
structure Binary64 where
  negative : Bool
  magnitude : Magnitude
deriving DecidableEq

namespace Magnitude

/-- The magnitude zero. -/
def zero : Magnitude := ⟨0, 0⟩

/-- The magnitude as a numerator and a denominator. -/
def ratio (m : Magnitude) : Nat × Nat :=
  if 0 ≤ m.exponent then (m.significand <<< m.exponent.toNat, 1)
  else (m.significand, 1 <<< (-m.exponent).toNat)

/-- The quotient `n / d` in units of `2 ^ e`, as a quotient. -/
def inUnits (n d : Nat) (e : Int) : Nat × Nat :=
  if 0 ≤ e then (n, d <<< e.toNat) else (n <<< (-e).toNat, d)

/-- The smallest exponent. -/
def minExponent : Int := -1074

/-- The largest exponent. -/
def maxExponent : Int := 971

/-- The exponent with which `n / d` has a significand of 53 bits, but no
smaller one than there is. -/
def exponentOf (n d : Nat) : Int :=
  let guess : Int := (Nat.log2 n : Int) - (Nat.log2 d : Int) - 52
  let u := inUnits n d guess
  let e := if u.1 < u.2 <<< 52 then guess - 1 else guess
  if e < minExponent then minExponent else e

/-- The magnitude nearest to `n / d`, if there is a finite one. -/
def ofRatio (n d : Nat) : Option Magnitude :=
  if n = 0 then some zero
  else
    let e := exponentOf n d
    let u := inUnits n d e
    let q := roundDiv u.1 u.2
    let m : Magnitude := if q = 1 <<< 53 then ⟨1 <<< 52, e + 1⟩ else ⟨q, e⟩
    if m.exponent ≤ maxExponent then some m else none

/-- The nearest magnitude to a natural number. -/
def ofNat (n : Nat) : Option Magnitude :=
  ofRatio n 1

/-- The rounded product. -/
def mul (a b : Magnitude) : Option Magnitude :=
  ofRatio (a.ratio.1 * b.ratio.1) (a.ratio.2 * b.ratio.2)

/-- The rounded quotient. -/
def div (a b : Magnitude) : Option Magnitude :=
  ofRatio (a.ratio.1 * b.ratio.2) (a.ratio.2 * b.ratio.1)

/-- The exact order of magnitudes. -/
def lt (a b : Magnitude) : Bool :=
  a.ratio.1 * b.ratio.2 < b.ratio.1 * a.ratio.2

end Magnitude

end ShellPreview.Number
