import Mathlib.Algebra.Order.Field.Power
import Mathlib.Algebra.Order.Field.Rat
import Mathlib.Tactic.Linarith
import Mathlib.Tactic.Positivity
import Mathlib.Tactic.Ring
import ShellPreview.Number.Binary64
/-!
# Rounding — where a rounded quotient lies

A quotient rounds above a whole number if it is more than half a unit
above it, or half a unit and the number is odd (`lt_roundDiv_iff`). With 53
bits the unit depends on the quotient itself, but a comparison does not
need to know it: a rounded quotient is above a magnitude exactly if it is
when rounded in the units of that magnitude (`lt_nearest_iff`). What is
rounded in smaller or larger units is far below the magnitude or above.
-/

namespace ShellPreview.Number

variable {n d k : Nat}

/-! ## The nearest whole number -/

/-- **A quotient rounds above a whole number** if it is more than half a
unit above it, or exactly half a unit above an odd one. -/
theorem lt_roundDiv_iff (hd : 0 < d) :
    k < roundDiv n d ↔ (2 * k + 1) * d < 2 * n ∨ (2 * k + 1) * d = 2 * n ∧ k % 2 = 1 := by
  have hsplit : d * (n / d) + n % d = n := Nat.div_add_mod n d
  have hrest : n % d < d := Nat.mod_lt n hd
  have hhalf : (2 * k + 1) * d = 2 * (d * k) + d := by ring
  simp only [roundDiv]
  rcases Nat.lt_trichotomy k (n / d) with hlt | heq | hgt
  · have hmul : d * (k + 1) ≤ d * (n / d) := Nat.mul_le_mul_left d hlt
    rw [Nat.mul_add, Nat.mul_one] at hmul
    split_ifs <;> omega
  · rw [← heq] at hsplit ⊢
    split_ifs <;> omega
  · have hmul : d * (n / d + 1) ≤ d * k := Nat.mul_le_mul_left d hgt
    rw [Nat.mul_add, Nat.mul_one] at hmul
    split_ifs <;> omega

/-- Rounding keeps a whole lower bound, -/
theorem le_roundDiv (hd : 0 < d) (h : k * d ≤ n) : k ≤ roundDiv n d := by
  cases k with
  | zero => exact Nat.zero_le _
  | succ k =>
    have hhalf : (2 * k + 1) * d + d = 2 * ((k + 1) * d) := by ring
    exact (lt_roundDiv_iff hd).mpr (.inl (by omega))

/-- and a whole upper one. -/
theorem roundDiv_le (hd : 0 < d) (h : n ≤ k * d) : roundDiv n d ≤ k := by
  have hhalf : (2 * k + 1) * d = 2 * (k * d) + d := by ring
  refine Nat.not_lt.mp fun hlt => ?_
  rcases (lt_roundDiv_iff hd).mp hlt with habove | ⟨htie, -⟩ <;> omega

namespace Magnitude

variable {m t : Magnitude} {e f : Int}

/-! ## Magnitudes as rational numbers -/

/-- The number that a magnitude stands for. -/
def value (m : Magnitude) : ℚ :=
  m.significand * 2 ^ m.exponent

theorem two_zpow_add (e f : Int) : (2 : ℚ) ^ (e + f) = 2 ^ e * 2 ^ f :=
  zpow_add₀ two_ne_zero e f

theorem two_zpow_lt_iff : (2 : ℚ) ^ e < 2 ^ f ↔ e < f :=
  zpow_lt_zpow_iff_right₀ one_lt_two

theorem two_zpow_le_iff : (2 : ℚ) ^ e ≤ 2 ^ f ↔ e ≤ f :=
  zpow_le_zpow_iff_right₀ one_lt_two

/-- A power of two as a shift. -/
theorem cast_shiftLeft (k : Nat) (h : 0 ≤ e) : ((k <<< e.toNat : Nat) : ℚ) = k * 2 ^ e := by
  obtain ⟨s, rfl⟩ := Int.eq_ofNat_of_zero_le h
  rw [Int.toNat_natCast, Nat.shiftLeft_eq, zpow_natCast]
  push_cast
  rfl

theorem ratio_pos (m : Magnitude) : 0 < m.ratio.2 := by
  unfold ratio
  split
  · exact Nat.one_pos
  · exact Nat.shiftLeft_pos_iff.mpr Nat.one_pos

theorem value_eq_ratio (m : Magnitude) : m.value = m.ratio.1 / m.ratio.2 := by
  unfold ratio value
  split
  · next h => rw [cast_shiftLeft _ h, Nat.cast_one, div_one]
  · next h =>
    have hneg : 0 ≤ -m.exponent := by omega
    rw [cast_shiftLeft _ hneg, Nat.cast_one, one_mul, zpow_neg, div_inv_eq_mul]

/-- The order of magnitudes is that of the numbers. -/
theorem lt_iff_value (a b : Magnitude) : a.lt b = true ↔ a.value < b.value := by
  have ha : (0 : ℚ) < a.ratio.2 := Nat.cast_pos.mpr a.ratio_pos
  have hb : (0 : ℚ) < b.ratio.2 := Nat.cast_pos.mpr b.ratio_pos
  rw [lt, decide_eq_true_eq, value_eq_ratio, value_eq_ratio, div_lt_div_iff₀ ha hb]
  exact_mod_cast Iff.rfl

theorem inUnits_pos (hd : 0 < d) (n : Nat) (e : Int) : 0 < (inUnits n d e).2 := by
  unfold inUnits
  split
  · exact Nat.shiftLeft_pos_iff.mpr hd
  · exact hd

/-- A quotient in units of a power of two. -/
theorem inUnits_eq (n d : Nat) (e : Int) :
    ((inUnits n d e).1 : ℚ) / (inUnits n d e).2 = n / d / 2 ^ e := by
  unfold inUnits
  split
  · next h => rw [cast_shiftLeft _ h, div_mul_eq_div_div]
  · next h =>
    have hneg : 0 ≤ -e := by omega
    rw [cast_shiftLeft _ hneg, zpow_neg, mul_div_right_comm, div_eq_mul_inv (n / d : ℚ)]

/-- So many units are at most the quotient, -/
theorem mul_le_inUnits_iff (hd : 0 < d) :
    k * (inUnits n d e).2 ≤ (inUnits n d e).1 ↔ (k : ℚ) * 2 ^ e ≤ n / d := by
  have hunit : (0 : ℚ) < (inUnits n d e).2 := Nat.cast_pos.mpr (inUnits_pos hd n e)
  have hpower : (0 : ℚ) < 2 ^ e := by positivity
  rw [← le_div_iff₀ hpower, ← inUnits_eq, le_div_iff₀ hunit]
  exact_mod_cast Iff.rfl

/-- or at least. -/
theorem inUnits_le_mul_iff (hd : 0 < d) :
    (inUnits n d e).1 ≤ k * (inUnits n d e).2 ↔ (n : ℚ) / d ≤ k * 2 ^ e := by
  have hunit : (0 : ℚ) < (inUnits n d e).2 := Nat.cast_pos.mpr (inUnits_pos hd n e)
  have hpower : (0 : ℚ) < 2 ^ e := by positivity
  rw [← div_le_iff₀ hpower, ← inUnits_eq, div_le_iff₀ hunit]
  exact_mod_cast Iff.rfl

/-! ## The unit of a quotient -/

/-- The logarithms place a quotient within a factor of four. -/
theorem quotient_between (hn : 0 < n) (hd : 0 < d) :
    (2 : ℚ) ^ ((Nat.log2 n : Int) - Nat.log2 d - 1) ≤ n / d ∧
      (n : ℚ) / d < 2 ^ ((Nat.log2 n : Int) - Nat.log2 d + 1) := by
  have hnlow : (2 : ℚ) ^ (Nat.log2 n : Int) ≤ n := by
    exact_mod_cast Nat.log2_self_le (Nat.ne_of_gt hn)
  have hnhigh : (n : ℚ) < 2 ^ ((Nat.log2 n : Int) + 1) := by
    exact_mod_cast Nat.lt_log2_self
  have hdlow : (2 : ℚ) ^ (Nat.log2 d : Int) ≤ d := by
    exact_mod_cast Nat.log2_self_le (Nat.ne_of_gt hd)
  have hdhigh : (d : ℚ) < 2 ^ ((Nat.log2 d : Int) + 1) := by
    exact_mod_cast Nat.lt_log2_self
  have hpos : (0 : ℚ) < d := Nat.cast_pos.mpr hd
  constructor
  · rw [le_div_iff₀ hpos]
    calc (2 : ℚ) ^ ((Nat.log2 n : Int) - Nat.log2 d - 1) * d
        ≤ 2 ^ ((Nat.log2 n : Int) - Nat.log2 d - 1) * 2 ^ ((Nat.log2 d : Int) + 1) := by
          gcongr
      _ = 2 ^ (Nat.log2 n : Int) := by
          rw [← two_zpow_add]
          congr 1
          omega
      _ ≤ n := hnlow
  · rw [div_lt_iff₀ hpos]
    calc (n : ℚ) < 2 ^ ((Nat.log2 n : Int) + 1) := hnhigh
      _ = 2 ^ ((Nat.log2 n : Int) - Nat.log2 d + 1) * 2 ^ (Nat.log2 d : Int) := by
          rw [← two_zpow_add]
          congr 1
          omega
      _ ≤ 2 ^ ((Nat.log2 n : Int) - Nat.log2 d + 1) * d := by
          gcongr

/-- **A quotient has 53 bits in units of some power of two**, which is its
unit if it is not smaller than all there are. -/
theorem exists_exponentOf_eq (hn : 0 < n) (hd : 0 < d) :
    ∃ e, exponentOf n d = max e minExponent ∧
      (2 : ℚ) ^ (e + 52) ≤ n / d ∧ (n : ℚ) / d < 2 ^ (e + 53) := by
  obtain ⟨hlow, hhigh⟩ := quotient_between hn hd
  let guess : Int := (Nat.log2 n : Int) - Nat.log2 d - 52
  have hclamp : ∀ e : Int, (if e < minExponent then minExponent else e) = max e minExponent := by
    intro e
    split_ifs <;> omega
  -- the guess may be one too large, which shows in the units of the guess
  have hwide : (inUnits n d guess).2 <<< 52 ≤ (inUnits n d guess).1 ↔
      (2 : ℚ) ^ (guess + 52) ≤ n / d := by
    have hunits := mul_le_inUnits_iff (k := 2 ^ 52) (e := guess) (n := n) hd
    rw [Nat.shiftLeft_eq, Nat.mul_comm, hunits, Int.add_comm, two_zpow_add]
    exact_mod_cast Iff.rfl
  by_cases h : (inUnits n d guess).1 < (inUnits n d guess).2 <<< 52
  · refine ⟨guess - 1, ?_, ?_, ?_⟩
    · rw [← hclamp]
      simp only [exponentOf, guess, if_pos h]
    · have heq : guess - 1 + 52 = (Nat.log2 n : Int) - Nat.log2 d - 1 := by omega
      rwa [heq]
    · have heq : guess - 1 + 53 = guess + 52 := by omega
      rw [heq]
      exact not_le.mp fun hle => Nat.not_le.mpr h (hwide.mpr hle)
  · refine ⟨guess, ?_, hwide.mp (Nat.not_lt.mp h), ?_⟩
    · rw [← hclamp]
      simp only [exponentOf, guess, if_neg h]
    · have heq : guess + 53 = (Nat.log2 n : Int) - Nat.log2 d + 1 := by omega
      rwa [heq]

/-- So in its unit it has no more, -/
theorem lt_exponentOf (hn : 0 < n) (hd : 0 < d) :
    (n : ℚ) / d < 2 ^ (exponentOf n d + 53) := by
  obtain ⟨e, heq, -, hhigh⟩ := exists_exponentOf_eq hn hd
  refine hhigh.trans_le (two_zpow_le_iff.mpr ?_)
  omega

/-- and no fewer in any unit but the smallest. -/
theorem exponentOf_le (hn : 0 < n) (hd : 0 < d) (h : minExponent < exponentOf n d) :
    (2 : ℚ) ^ (exponentOf n d + 52) ≤ n / d := by
  obtain ⟨e, heq, hlow, -⟩ := exists_exponentOf_eq hn hd
  rw [heq] at h ⊢
  have hlarger : minExponent < e := (lt_max_iff.mp h).resolve_right (lt_irrefl _)
  rwa [max_eq_left hlarger.le]

/-- The unit of a quotient below a bound is small enough for it. -/
theorem exponentOf_le_of_lt (hn : 0 < n) (hd : 0 < d) (hf : minExponent ≤ f)
    (h : (n : ℚ) / d < 2 ^ (f + 53)) : exponentOf n d ≤ f := by
  refine Int.not_lt.mp fun hlt => ?_
  have hlow := exponentOf_le hn hd (by omega)
  have hpowers := (two_zpow_lt_iff).mp (hlow.trans_lt h)
  omega

/-! ## The rounded quotient -/

/-- A quotient rounded in its own units; a carry into one bit too many
makes the units larger. -/
def nearest (n d : Nat) : Magnitude :=
  let e := exponentOf n d
  let q := roundDiv (inUnits n d e).1 (inUnits n d e).2
  if q = 1 <<< 53 then ⟨1 <<< 52, e + 1⟩ else ⟨q, e⟩

theorem ofRatio_eq (hn : 0 < n) :
    ofRatio n d = if (nearest n d).exponent ≤ maxExponent then some (nearest n d) else none :=
  if_neg (Nat.ne_of_gt hn)

/-- The carry does not change the number. -/
theorem value_nearest (n d : Nat) :
    (nearest n d).value = roundDiv (inUnits n d (exponentOf n d)).1
      (inUnits n d (exponentOf n d)).2 * 2 ^ exponentOf n d := by
  rw [nearest]
  split
  · next hcarry =>
    have htwice : ((1 <<< 53 : Nat) : ℚ) = 2 * (1 <<< 52 : Nat) := by norm_num [Nat.shiftLeft_eq]
    rw [hcarry, htwice, value, add_comm, two_zpow_add, zpow_one]
    ring
  · rw [value]

theorem exponent_nearest_le (n d : Nat) : (nearest n d).exponent ≤ exponentOf n d + 1 := by
  rw [nearest]
  split
  · dsimp only
    exact le_refl _
  · dsimp only
    exact Int.le_add_of_nonneg_right Int.one_nonneg

/-- A quotient has a nearest magnitude if its unit is not the largest. -/
theorem ofRatio_eq_nearest (hn : 0 < n) (h : exponentOf n d < maxExponent) :
    ofRatio n d = some (nearest n d) := by
  have hle := exponent_nearest_le n d
  rw [ofRatio_eq hn, if_pos (by omega)]

/-- A magnitude with all 53 bits. -/
structure IsNormal (t : Magnitude) : Prop where
  low : 2 ^ 52 ≤ t.significand
  high : t.significand < 2 ^ 53
  exponent : minExponent ≤ t.exponent

/-- A power of two is a whole number of the units of a lower one. -/
theorem cast_two_pow_mul (k : Nat) (e : Int) : ((2 ^ k : Nat) : ℚ) * 2 ^ e = 2 ^ (e + k) := by
  rw [add_comm, two_zpow_add, zpow_natCast]
  push_cast
  rfl

namespace IsNormal

theorem le_value (ht : t.IsNormal) : (2 : ℚ) ^ (t.exponent + 52) ≤ t.value := by
  have hlow : ((2 ^ 52 : Nat) : ℚ) ≤ t.significand := Nat.cast_le.mpr ht.low
  calc (2 : ℚ) ^ (t.exponent + 52) = ((2 ^ 52 : Nat) : ℚ) * 2 ^ t.exponent :=
        (cast_two_pow_mul 52 _).symm
    _ ≤ t.value := by
        unfold value
        gcongr

theorem value_lt (ht : t.IsNormal) : t.value < (2 : ℚ) ^ (t.exponent + 53) := by
  have hhigh : (t.significand : ℚ) < ((2 ^ 53 : Nat) : ℚ) := Nat.cast_lt.mpr ht.high
  calc t.value < ((2 ^ 53 : Nat) : ℚ) * 2 ^ t.exponent := by
        unfold value
        gcongr
    _ = 2 ^ (t.exponent + 53) := cast_two_pow_mul 53 _

end IsNormal

/-- Rounding in any units keeps a lower bound by a power of two, -/
theorem le_roundDiv_inUnits (hd : 0 < d) (h : (2 : ℚ) ^ (e + k) ≤ n / d) :
    2 ^ k ≤ roundDiv (inUnits n d e).1 (inUnits n d e).2 := by
  rw [← cast_two_pow_mul] at h
  exact le_roundDiv (inUnits_pos hd n e) ((mul_le_inUnits_iff hd).mpr h)

/-- and an upper one. -/
theorem roundDiv_inUnits_le (hd : 0 < d) (h : (n : ℚ) / d ≤ 2 ^ (e + k)) :
    roundDiv (inUnits n d e).1 (inUnits n d e).2 ≤ 2 ^ k := by
  rw [← cast_two_pow_mul] at h
  exact roundDiv_le (inUnits_pos hd n e) ((inUnits_le_mul_iff hd).mpr h)

/-- In its own units a quotient is no more than the power of two behind its
53 bits, -/
theorem value_nearest_le (hn : 0 < n) (hd : 0 < d) :
    (nearest n d).value ≤ 2 ^ (exponentOf n d + 53) := by
  have hrounded : roundDiv (inUnits n d (exponentOf n d)).1 (inUnits n d (exponentOf n d)).2 ≤
      2 ^ 53 := roundDiv_inUnits_le hd (lt_exponentOf hn hd).le
  rw [value_nearest]
  calc (roundDiv (inUnits n d (exponentOf n d)).1 (inUnits n d (exponentOf n d)).2 : ℚ) *
        2 ^ exponentOf n d ≤ ((2 ^ 53 : Nat) : ℚ) * 2 ^ exponentOf n d := by
        gcongr
    _ = 2 ^ (exponentOf n d + 53) := cast_two_pow_mul 53 _

/-- and no less than the last of them, if the units are not the smallest. -/
theorem le_value_nearest (hn : 0 < n) (hd : 0 < d) (h : minExponent < exponentOf n d) :
    2 ^ (exponentOf n d + 52) ≤ (nearest n d).value := by
  have hrounded : 2 ^ 52 ≤ roundDiv (inUnits n d (exponentOf n d)).1
      (inUnits n d (exponentOf n d)).2 := le_roundDiv_inUnits hd (exponentOf_le hn hd h)
  rw [value_nearest]
  calc (2 : ℚ) ^ (exponentOf n d + 52) = ((2 ^ 52 : Nat) : ℚ) * 2 ^ exponentOf n d :=
        (cast_two_pow_mul 52 _).symm
    _ ≤ roundDiv (inUnits n d (exponentOf n d)).1 (inUnits n d (exponentOf n d)).2 *
        2 ^ exponentOf n d := by
        gcongr

/-- **A rounded quotient is above a magnitude** exactly if it is when
rounded in the units of that magnitude. -/
theorem lt_nearest_iff (ht : t.IsNormal) (hn : 0 < n) (hd : 0 < d) :
    t.lt (nearest n d) = true ↔
      t.significand < roundDiv (inUnits n d t.exponent).1 (inUnits n d t.exponent).2 := by
  rw [lt_iff_value]
  rcases lt_trichotomy (exponentOf n d) t.exponent with hsmall | hsame | hlarge
  · -- a quotient with smaller units does not reach the magnitude, in neither units
    have hunits : (2 : ℚ) ^ (exponentOf n d + 53) ≤ 2 ^ (t.exponent + 52) :=
      (two_zpow_le_iff).mpr (by omega)
    have hown := ((value_nearest_le hn hd).trans hunits).trans ht.le_value
    have htheirs : roundDiv (inUnits n d t.exponent).1 (inUnits n d t.exponent).2 ≤ 2 ^ 52 :=
      roundDiv_inUnits_le hd ((lt_exponentOf hn hd).le.trans hunits)
    exact iff_of_false (not_lt.mpr hown) (Nat.not_lt.mpr (htheirs.trans ht.low))
  · have hpower : (0 : ℚ) < 2 ^ t.exponent := by positivity
    rw [value_nearest, hsame, value, mul_lt_mul_iff_left₀ hpower, Nat.cast_lt]
  · -- and one with larger units is above it, in either
    have hleast : minExponent < exponentOf n d := ht.exponent.trans_lt hlarge
    have hunits : (2 : ℚ) ^ (t.exponent + 53) ≤ 2 ^ (exponentOf n d + 52) :=
      (two_zpow_le_iff).mpr (by omega)
    have hown := ht.value_lt.trans_le (hunits.trans (le_value_nearest hn hd hleast))
    have htheirs : 2 ^ 53 ≤ roundDiv (inUnits n d t.exponent).1 (inUnits n d t.exponent).2 :=
      le_roundDiv_inUnits hd (hunits.trans (exponentOf_le hn hd hleast))
    exact iff_of_true hown (ht.high.trans_le htheirs)

end Magnitude

end ShellPreview.Number
