import ShellPreview.Number.Binary64
/-!
# The shortest text of a double-precision number

A number is written with the fewest decimal digits that still round to
it, and of those with the digits nearest to it. `shortest` finds the
digits by testing, for one digit, two digits and so on, the two neighbours
of the value on that decimal grid. `Binary64.text` places the point: with
an exponent when the point would fall more than sixteen places to the
right or more than four zeros to the left, and with `.0` behind a whole
number. The exponent has a sign and at least two digits.
-/

namespace ShellPreview.Number

namespace Magnitude

/-- Twice the numerators of the two ends of the interval of reals that
round to the magnitude, over twice its denominator. -/
def interval (m : Magnitude) : Nat × Nat × Nat :=
  let unit := (⟨1, m.exponent⟩ : Magnitude).ratio
  let value := m.ratio
  let lowGap := if m.significand = 1 <<< 52 ∧ minExponent < m.exponent then unit.1 else 2 * unit.1
  (4 * value.1 - lowGap, 4 * value.1 + 2 * unit.1, 4 * value.2)

/-- Whether `d * 10 ^ p` rounds to the magnitude. -/
def readsBack (m : Magnitude) (d : Nat) (p : Int) : Bool :=
  let i := m.interval
  let g : Nat × Nat := if 0 ≤ p then (d * Nat.pow 10 p.toNat, 1) else (d, Nat.pow 10 (-p).toNat)
  let v := g.1 * i.2.2
  let lo := i.1 * g.2
  let hi := i.2.1 * g.2
  if m.significand % 2 = 0 then lo ≤ v && v ≤ hi else lo < v && v < hi

/-- The number of digits before the point: the `k` with
`10 ^ (k - 1) ≤ value < 10 ^ k`, searched upwards from `k`. -/
def pointFrom (m : Magnitude) : Nat → Int → Int
  | 0, k => k
  | fuel + 1, k =>
    let below := if 0 ≤ k then m.ratio.1 < Nat.pow 10 k.toNat * m.ratio.2
      else m.ratio.1 * Nat.pow 10 (-k).toNat < m.ratio.2
    if below then k else pointFrom m fuel (k + 1)

/-- The neighbours of the magnitude on the grid of multiples of
`10 ^ p`: the lower one, and whether the upper one is nearer. -/
def neighbours (m : Magnitude) (p : Int) : Nat × Bool :=
  let q : Nat × Nat :=
    if 0 ≤ p then (m.ratio.1, m.ratio.2 * Nat.pow 10 p.toNat)
    else (m.ratio.1 * Nat.pow 10 (-p).toNat, m.ratio.2)
  (q.1 / q.2, roundDiv q.1 q.2 ≠ q.1 / q.2)

/-- The digits of the first grid with a point that reads back, tried for
ever more digits. -/
def searchDigits (m : Magnitude) (point : Int) : Nat → Nat → Nat × Int
  | 0, n => ((m.neighbours (point - n)).1, point - n)
  | fuel + 1, n =>
    let p := point - n
    let (low, up) := m.neighbours p
    let lowOk := m.readsBack low p
    let highOk := m.readsBack (low + 1) p
    if lowOk && highOk then (if up then low + 1 else low, p)
    else if lowOk then (low, p)
    else if highOk then (low + 1, p)
    else searchDigits m point fuel (n + 1)

/-- The shortest digits of a magnitude and the power of ten of the last
one. -/
def shortest (m : Magnitude) : Nat × Int :=
  searchDigits m (m.pointFrom 700 (-330)) 17 1

end Magnitude

/-- Without the zeros at the end, of which there are no more than `fuel`. -/
def dropZeros : Nat → Nat → Int → Nat × Int
  | 0, d, p => (d, p)
  | fuel + 1, d, p => if d % 10 = 0 ∧ d ≠ 0 then dropZeros fuel (d / 10) (p + 1) else (d, p)

/-- Digits and a power of ten, with the point in its place. -/
def placePoint (digits : List Char) (p : Int) : List Char :=
  let len : Int := digits.length
  let point := len + p
  if 0 ≤ p ∧ point ≤ 16 then digits ++ List.replicate p.toNat '0' ++ ['.', '0']
  else if 0 < point ∧ point ≤ 16 then
    digits.take point.toNat ++ '.' :: digits.drop point.toNat
  else if -5 < point ∧ point ≤ 0 then
    '0' :: '.' :: List.replicate (-point).toNat '0' ++ digits
  else
    let e := point - 1
    let sign := if e < 0 then '-' else '+'
    let tail := match digits with
      | [] => []
      | [d] => [d]
      | d :: ds => d :: '.' :: ds
    let size := Nat.toDigits 10 e.natAbs
    tail ++ 'e' :: sign :: (List.replicate (2 - size.length) '0' ++ size)

/-- The text of a double-precision number. -/
def Binary64.text (x : Binary64) : String :=
  let sign := if x.negative then ['-'] else []
  if x.magnitude.significand = 0 then String.ofList (sign ++ ['0', '.', '0'])
  else
    let s := x.magnitude.shortest
    let t := dropZeros 17 s.1 s.2
    String.ofList (sign ++ placePoint (Nat.toDigits 10 t.1) t.2)

end ShellPreview.Number
