import Mathlib.Algebra.Order.Floor.Semifield
import Mathlib.Data.Rat.Floor
import ShellPreview.Proofs.Number.Rounding
/-!
# Rounding — order and error

A larger quotient does not round to a smaller number, be it to a whole
number (`roundDiv_mono`) or to 53 bits (`value_nearest_mono`), and a whole
number is no more than one half away (`two_mul_abs_roundDiv_sub_le`), at
exactly one half only if it is even. Of natural numbers those up to
`2 ^ 53` are kept as they are (`value_nearest_of_le`).
-/

namespace ShellPreview.Number

variable {m c n d k : Nat}

/-! ## The nearest whole number -/

/-- A quotient rounds above a whole number if it is more than one half
larger, or exactly one half larger than an odd one. -/
theorem lt_roundDiv_iff_quotient (hd : 0 < d) :
    k < roundDiv n d ↔ (k : ℚ) + 1 / 2 < n / d ∨ (k : ℚ) + 1 / 2 = n / d ∧ k % 2 = 1 := by
  have hpos : (0 : ℚ) < d := Nat.cast_pos.mpr hd
  have hhalf : ((k : ℚ) + 1 / 2) * d = (2 * k + 1) * d / 2 := by ring
  rw [lt_roundDiv_iff hd, lt_div_iff₀ hpos, eq_div_iff hpos.ne', hhalf, div_lt_iff₀ two_pos,
    div_eq_iff two_ne_zero, mul_comm (n : ℚ)]
  exact_mod_cast Iff.rfl

/-- **A larger quotient does not round to a smaller number.** -/
theorem roundDiv_mono (hc : 0 < c) (hd : 0 < d) (h : (m : ℚ) / c ≤ n / d) :
    roundDiv m c ≤ roundDiv n d := by
  refine Nat.not_lt.mp fun hlt => Nat.lt_irrefl (roundDiv n d) ?_
  rw [lt_roundDiv_iff_quotient hc] at hlt
  rw [lt_roundDiv_iff_quotient hd]
  rcases hlt with habove | ⟨htie, hodd⟩
  · exact .inl (habove.trans_le h)
  · exact (htie.trans_le h).lt_or_eq.imp_right fun heq => ⟨heq, hodd⟩

/-- A whole quotient is kept. -/
theorem roundDiv_of_eq (hd : 0 < d) (h : n = k * d) : roundDiv n d = k :=
  Nat.le_antisymm (roundDiv_le hd h.le) (le_roundDiv hd h.ge)

/-- **The nearest whole number is no more than one half away**, and at
exactly one half it is even. -/
theorem abs_roundDiv_sub_le (hd : 0 < d) :
    |(roundDiv n d : ℚ) - n / d| ≤ 1 / 2 ∧
      (|(roundDiv n d : ℚ) - n / d| = 1 / 2 → roundDiv n d % 2 = 0) := by
  have hnot := (lt_roundDiv_iff_quotient (n := n) hd).not.mp (Nat.lt_irrefl _)
  obtain ⟨hupper, htie⟩ := not_or.mp hnot
  rw [not_lt] at hupper
  rw [not_and] at htie
  -- below the rounded number it is the one before that the quotient rounds above
  have hlower : (roundDiv n d : ℚ) - 1 / 2 < n / d ∨
      (roundDiv n d : ℚ) - 1 / 2 = n / d ∧ roundDiv n d % 2 = 0 := by
    rcases hround : roundDiv n d with - | k
    · have hnonneg : (0 : ℚ) ≤ n / d := by positivity
      exact .inl (by push_cast; linarith)
    · have hbelow := (lt_roundDiv_iff_quotient (n := n) (k := k) hd).mp (by omega)
      have hshift : ((k + 1 : Nat) : ℚ) - 1 / 2 = k + 1 / 2 := by
        push_cast
        ring
      rw [hshift]
      exact hbelow.imp_right fun ⟨heq, hodd⟩ => ⟨heq, by omega⟩
  constructor
  · rw [abs_le]
    constructor
    · linarith
    · rcases hlower with hlt | ⟨heq, -⟩ <;> linarith
  · intro habs
    rcases abs_eq (by norm_num) |>.mp habs with hhigh | hlow
    · rcases hlower with hlt | ⟨-, heven⟩
      · linarith
      · exact heven
    · have hodd := htie (by linarith)
      omega

namespace Magnitude

/-! ## The nearest magnitude -/

/-- **A larger quotient does not round to a smaller magnitude.** -/
theorem value_nearest_mono (hm : 0 < m) (hc : 0 < c) (hn : 0 < n) (hd : 0 < d)
    (h : (m : ℚ) / c ≤ n / d) : (nearest m c).value ≤ (nearest n d).value := by
  have hleast : minExponent ≤ exponentOf m c ∧ minExponent ≤ exponentOf n d := by
    obtain ⟨e, he, -⟩ := exists_exponentOf_eq hm hc
    obtain ⟨f, hf, -⟩ := exists_exponentOf_eq hn hd
    omega
  have hunit : exponentOf m c ≤ exponentOf n d :=
    exponentOf_le_of_lt hm hc hleast.2 (h.trans_lt (lt_exponentOf hn hd))
  rcases hunit.lt_or_eq with hsmaller | hsame
  · -- with smaller units there is a power of two between the two
    have hpowers : (2 : ℚ) ^ (exponentOf m c + 53) ≤ 2 ^ (exponentOf n d + 52) :=
      two_zpow_le_iff.mpr (by omega)
    exact ((value_nearest_le hm hc).trans hpowers).trans
      (le_value_nearest hn hd (hleast.1.trans_lt hsmaller))
  · rw [value_nearest, value_nearest, hsame]
    have hpower : (0 : ℚ) ≤ 2 ^ exponentOf n d := by positivity
    have hunits : ((inUnits m c (exponentOf n d)).1 : ℚ) / (inUnits m c (exponentOf n d)).2 ≤
        (inUnits n d (exponentOf n d)).1 / (inUnits n d (exponentOf n d)).2 := by
      rw [inUnits_eq, inUnits_eq]
      exact div_le_div_of_nonneg_right h hpower
    have hround := roundDiv_mono (inUnits_pos hc m _) (inUnits_pos hd n _) hunits
    exact mul_le_mul_of_nonneg_right (Nat.cast_le.mpr hround) hpower

/-- A quotient that is a whole number of its units is kept. -/
theorem value_nearest_of_units (hd : 0 < d) (h : (n : ℚ) / d = k * 2 ^ exponentOf n d) :
    (nearest n d).value = n / d := by
  have hunits : (inUnits n d (exponentOf n d)).1 = k * (inUnits n d (exponentOf n d)).2 :=
    Nat.le_antisymm ((inUnits_le_mul_iff hd).mpr h.le) ((mul_le_inUnits_iff hd).mpr h.ge)
  rw [value_nearest, roundDiv_of_eq (inUnits_pos hd n _) hunits, h]

/-- **Natural numbers of 53 bits are kept.** -/
theorem value_nearest_of_le (hn : 0 < n) (h : n ≤ 2 ^ 53) : (nearest n 1).value = n := by
  have hone : (n : ℚ) / (1 : Nat) = n := by rw [Nat.cast_one, div_one]
  rcases h.lt_or_eq with hlt | rfl
  · have hcast : (n : ℚ) / (1 : Nat) < 2 ^ ((0 : Int) + 53) := by
      rw [hone]
      exact_mod_cast hlt
    have hunit : exponentOf n 1 ≤ 0 := exponentOf_le_of_lt hn Nat.one_pos (by decide) hcast
    have hwhole : (n : ℚ) / (1 : Nat) =
        (n <<< (-exponentOf n 1).toNat : Nat) * 2 ^ exponentOf n 1 := by
      rw [hone, cast_shiftLeft n (by omega), mul_assoc, ← two_zpow_add, neg_add_cancel, zpow_zero,
        mul_one]
    rw [value_nearest_of_units Nat.one_pos hwhole, hone]
  · have hpower : nearest (2 ^ 53) 1 = ⟨2 ^ 52, 1⟩ := by decide
    rw [hpower, value]
    norm_num

/-- A natural number of 64 bits has a nearest magnitude. -/
theorem ofNat_eq_nearest (hn : 0 < n) (h : n < 2 ^ 64) : ofNat n = some (nearest n 1) := by
  have hcast : (n : ℚ) / (1 : Nat) < 2 ^ ((11 : Int) + 53) := by
    rw [Nat.cast_one, div_one]
    exact_mod_cast h
  have hunit : exponentOf n 1 ≤ 11 := exponentOf_le_of_lt hn Nat.one_pos (by decide) hcast
  exact ofRatio_eq_nearest hn (hunit.trans_lt (by decide))

end Magnitude

end ShellPreview.Number
