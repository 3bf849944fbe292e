/-
# What an exact value is rounded to

Reading a decimal rounds its exact value once.  Here it is said without any reading which number
that is: the nearest finite one; of two that are equally near the one whose significand is even;
and an infinity where the value is half a unit or more beyond the greatest finite number.  Every
quotient and every decimal is read as that number.

* `isRounding_ofRatio`, `isRounding_ofDecimal` — quotients and decimals are rounded as said.
* `absValue_ofDecimal_mono` — rounding keeps the order of decimals.
-/
import PagePlan.Proofs.Decimal.Nearest

namespace PagePlan

namespace Decimal

/-- A quotient less than a half above an integer is not rounded beyond it. -/
theorem roundDiv_le {num den n : Nat} (hden : 0 < den) (h : 2 * num < (2 * n + 1) * den) :
    roundDiv num den ≤ n := by
  obtain ⟨hhigh, -⟩ := roundDiv_near hden num
  have hlt : roundDiv num den * den < (n + 1) * den := by
    have hsplit : (2 * n + 1) * den = 2 * (n * den) + den := by ring
    rw [Nat.succ_mul]
    omega
  exact Nat.le_of_lt_succ (Nat.lt_of_mul_lt_mul_right hlt)

/-- Where another multiple is as near as the one that is rounded to, the latter is even. -/
theorem even_roundDiv_of_tie {num den j : Nat} (hden : 0 < den) (hne : j ≠ roundDiv num den)
    (htie : |((j * den : Nat) : ℤ) - num| = |((roundDiv num den * den : Nat) : ℤ) - num|) :
    roundDiv num den % 2 = 0 := by
  have hsplit : num / den * den + num % den = num := Nat.div_add_mod' num den
  have hmod : num % den < den := Nat.mod_lt _ hden
  have hnext : (num / den + 1) * den = num / den * den + den := Nat.succ_mul _ _
  -- the two multiples are different, so they lie on either side at the same distance
  have hfar : j * den + den ≤ roundDiv num den * den ∨
      roundDiv num den * den + den ≤ j * den := by
    rcases Nat.lt_or_gt_of_ne hne with h | h
    · exact Or.inl (by simpa [Nat.succ_mul] using Nat.mul_le_mul_right den h)
    · exact Or.inr (by simpa [Nat.succ_mul] using Nat.mul_le_mul_right den h)
  have hsum : j * den + roundDiv num den * den = 2 * num := by
    rcases abs_eq_abs.1 htie with h | h <;> omega
  have hcases : roundDiv num den = num / den ∧ 2 * (num % den) < den ∨
      roundDiv num den = num / den + 1 ∧ den < 2 * (num % den) ∨ roundDiv num den % 2 = 0 := by
    simp only [roundDiv]
    split
    · exact Or.inl ⟨rfl, by assumption⟩
    · split
      · exact Or.inr (Or.inl ⟨rfl, by assumption⟩)
      · split <;> omega
  rcases hcases with ⟨h, hrest⟩ | ⟨h, hrest⟩ | h
  · rw [h] at hfar hsum
    omega
  · rw [h] at hfar hsum
    omega
  · exact h

end Decimal

namespace Binary64

open Decimal (twoTo tenTo roundDiv twoTo_pos tenTo_pos)

/-! ### Overflow -/

/-- The least absolute value that is rounded to an infinity: half a unit in the last place above
the greatest finite number. -/
def overflow : ℚ := (2 ^ 54 - 1) * 2 ^ 970

/-- A quotient, in units of the finest place, is read as a finite number just if it stays below the
bound. -/
theorem isFinite_ofRatio_iff_units {num den k : Nat} (hden : 0 < den) (hk : k = 2044)
    (negative : Bool) :
    (ofRatio negative num den).isFinite = true ↔
      num * twoTo 1074 < (2 ^ 54 - 1) * (2 ^ k * den) := by
  obtain ⟨a, ha⟩ : ∃ a, a = num * twoTo 1074 := ⟨_, rfl⟩
  obtain ⟨t, ht⟩ : ∃ t, t = 2 ^ k * den := ⟨_, rfl⟩
  have htpos : 0 < t := ht ▸ Nat.mul_pos (Nat.two_pow_pos _) hden
  obtain ⟨hhigh, hlow⟩ := roundDiv_bounds a hden
  have hbpos := roundingUnit_pos a hden
  obtain ⟨-, hnear⟩ := Decimal.roundDiv_near hbpos a
  -- at the coarsest scale of finite numbers the unit is twice the half unit in the bound
  have hunit : roundingScale a den = k + 1 → roundingUnit a den = 2 * t := by
    intro h
    rw [roundingUnit, h, ht, pow_succ]
    ring
  have hinf : infiniteMagnitude = 2047 * 2 ^ 52 := by rw [infiniteMagnitude, Decimal.twoTo_eq]
  rw [isFinite_ofRatio_iff, hinf, ← ha, ← ht]
  constructor
  · intro hsum
    by_contra hlarge
    have hscale : k + 1 ≤ roundingScale a den := by
      have hle : 2 ^ (53 + k) ≤ a / den := by
        rw [Nat.le_div_iff_mul_le hden, pow_add, Nat.mul_assoc, ← ht]
        omega
      have hne : a / den ≠ 0 := ((Nat.two_pow_pos _).trans_le hle).ne'
      have hlog : 53 + k ≤ (a / den).log2 := (Nat.le_log2 hne).2 hle
      rw [roundingScale]
      omega
    obtain ⟨-, hfull⟩ := hlow.resolve_left (by omega)
    have hscale : roundingScale a den = k + 1 := by omega
    -- half a unit above the greatest finite number, which is odd, the tie goes up
    rw [hunit hscale] at hnear hbpos hsum
    have hle : roundDiv a (2 * t) ≤ 2 ^ 53 - 1 := by omega
    have hmul : roundDiv a (2 * t) * (2 * t) ≤ (2 ^ 53 - 1) * (2 * t) :=
      Nat.mul_le_mul_right _ hle
    have hodd : roundDiv a (2 * t) = 2 ^ 53 - 1 := by
      have heq : roundDiv a (2 * t) * (2 * t) = (2 ^ 53 - 1) * (2 * t) := by omega
      exact Nat.eq_of_mul_eq_mul_right hbpos heq
    have htie : |((2 ^ 53 * (2 * t) : Nat) : ℤ) - a| =
        |((roundDiv a (2 * t) * (2 * t) : Nat) : ℤ) - a| := by
      rw [hodd, abs_eq_abs]
      omega
    have heven := Decimal.even_roundDiv_of_tie hbpos (by omega) htie
    omega
  · intro hsmall
    have hscale : roundingScale a den ≤ k + 1 := by
      have hlt : a / den < 2 ^ (54 + k) := by
        rw [Nat.div_lt_iff_lt_mul hden, pow_add, Nat.mul_assoc, ← ht]
        omega
      rcases Nat.eq_zero_or_pos (a / den) with h0 | h0
      · simp [roundingScale, h0]
      · have hlog := (Nat.log2_lt (by omega)).2 hlt
        rw [roundingScale]
        omega
    rcases Nat.eq_or_lt_of_le hscale with heq | hlt
    · rw [hunit heq] at hhigh ⊢
      have hle : roundDiv a (2 * t) ≤ 2 ^ 53 - 1 := Decimal.roundDiv_le (by omega) (by omega)
      omega
    · omega

/-! ### Ties -/

/-- Where another number is as near to a quotient as the one that it is read as, the latter has an
even significand. -/
theorem even_significand_ofRatio {num den : Nat} (hden : 0 < den) {negative : Bool}
    (hfin : (ofRatio negative num den).isFinite = true) {y : Binary64}
    (hne : y.units ≠ (ofRatio negative num den).units)
    (htie : |((y.units * den : Nat) : ℤ) - (num * twoTo 1074 : Nat)| =
      |(((ofRatio negative num den).units * den : Nat) : ℤ) - (num * twoTo 1074 : Nat)|) :
    (ofRatio negative num den).significand % 2 = 0 := by
  have hmag := magnitude_ofRatio hfin
  have hunits := units_ofRatio hden hfin
  have hbpos := roundingUnit_pos (num * twoTo 1074) hden
  rw [hunits] at htie
  obtain ⟨j, hj | hj⟩ := exists_multiple_near (num * twoTo 1074) hden y
  · have hdiff : j ≠ roundDiv (num * twoTo 1074) (roundingUnit (num * twoTo 1074) den) := by
      rintro rfl
      exact hne (Nat.eq_of_mul_eq_mul_right hden (hj.trans hunits.symm))
    rw [hj] at htie
    have heven := Decimal.even_roundDiv_of_tie hbpos hdiff htie
    have hparity : (ofRatio negative num den).magnitude % 2 = 0 := by
      rw [hmag]
      omega
    rw [significand, Decimal.twoTo_eq]
    split <;> omega
  · -- then that number would not be nearest
    rw [htie] at hj
    exact absurd (Decimal.roundDiv_nearest hbpos j) (not_le.2 hj)

/-! ### Values -/

theorem absValue_of_isZero {x : Binary64} (h : x.isZero = true) : x.absValue = 0 := by
  have hmag : x.magnitude = 0 := by simpa [isZero] using h
  have hsig : x.significand = 0 := by
    rw [significand, if_pos (hmag ▸ twoTo_pos 52), hmag]
  rw [absValue, units, hsig, Nat.zero_mul, Nat.cast_zero, zero_div]

/-- An absolute value with a sign. -/
def signed (negative : Bool) (r : ℚ) : ℚ := if negative then -r else r

theorem abs_signed (negative : Bool) {r : ℚ} (hr : 0 ≤ r) : |signed negative r| = r := by
  cases negative
  · exact abs_of_nonneg hr
  · rw [signed, if_pos rfl, abs_neg, abs_of_nonneg hr]

theorem abs_signed_sub_signed (negative : Bool) (r s : ℚ) :
    |signed negative r - signed negative s| = |r - s| := by
  cases negative
  · rfl
  · simp only [signed, if_true]
    rw [← abs_neg]
    congr 1
    ring

theorem value_eq_signed (x : Binary64) : x.value = signed x.negative x.absValue := rfl

/-- A number is the one that an exact value is rounded to. -/
structure IsRounding (x : Binary64) (q : ℚ) : Prop where
  /-- It is finite where the value is in range. -/
  finite : |q| < overflow → x.isFinite = true
  /-- It is infinite beyond. -/
  infinite : overflow ≤ |q| → x.isInfinite = true
  /-- No finite number is nearer. -/
  nearest : x.isFinite = true → ∀ y : Binary64, y.isFinite = true → |x.value - q| ≤ |y.value - q|
  /-- Of two that are equally near it is the one with an even significand. -/
  even : x.isFinite = true → ∀ y : Binary64, y.isFinite = true → y.value ≠ x.value →
    |y.value - q| = |x.value - q| → x.significand % 2 = 0
  /-- It is on the side of the value. -/
  sign : q ≠ 0 → x.negative = decide (q < 0)

section OfRatio

variable {num den : Nat} (negative : Bool)

theorem quotient_nonneg (num den : Nat) : (0 : ℚ) ≤ (num : ℚ) / den :=
  div_nonneg (Nat.cast_nonneg num) (Nat.cast_nonneg den)

/-- A quotient with a sign is as far from the number that it is read as as it is without. -/
theorem abs_value_ofRatio_sub :
    |(ofRatio negative num den).value - signed negative ((num : ℚ) / den)| =
      |(ofRatio negative num den).absValue - (num : ℚ) / den| := by
  rw [value_eq_signed, negative_ofRatio, abs_signed_sub_signed]

/-- From any number it is no nearer than without its sign. -/
theorem abs_absValue_sub_le (y : Binary64) :
    |y.absValue - (num : ℚ) / den| ≤ |y.value - signed negative ((num : ℚ) / den)| := by
  have h := abs_abs_sub_abs_le y.value (signed negative ((num : ℚ) / den))
  rwa [abs_value, abs_signed negative (quotient_nonneg num den)] at h

theorem isFinite_ofRatio_iff_lt (hden : 0 < den) :
    (ofRatio negative num den).isFinite = true ↔ (num : ℚ) / den < overflow := by
  have hd : (0 : ℚ) < den := by exact_mod_cast hden
  have hcast : overflow = ((2 ^ 54 - 1) * 2 ^ 970 : ℕ) := by
    rw [overflow, Nat.cast_mul, Nat.cast_pow]
    norm_num
  have hsplit : (2 ^ 54 - 1) * (2 ^ (970 + 1074) * den) =
      (2 ^ 54 - 1) * 2 ^ 970 * den * twoTo 1074 := by
    rw [pow_add, Decimal.twoTo_eq]
    generalize 2 ^ 970 = s
    generalize 2 ^ 1074 = t
    ring
  rw [isFinite_ofRatio_iff_units hden rfl, hsplit, Nat.mul_lt_mul_right (twoTo_pos 1074),
    div_lt_iff₀ hd, hcast]
  exact_mod_cast Iff.rfl

/-- A quotient is read as a finite number or as an infinity. -/
theorem isInfinite_of_not_isFinite (hnot : (ofRatio negative num den).isFinite = false) :
    (ofRatio negative num den).isInfinite = true := by
  have hle : (ofRatio negative num den).magnitude ≤ infiniteMagnitude := by
    have hmin := Nat.min_le_left infiniteMagnitude (roundingScale (num * twoTo 1074) den * 2 ^ 52 +
      roundDiv (num * twoTo 1074) (roundingUnit (num * twoTo 1074) den))
    rw [ofRatio_eq_ofMagnitude]
    rwa [magnitude_ofMagnitude (hmin.trans_lt infiniteMagnitude_lt)]
  rw [isFinite, decide_eq_false_iff_not] at hnot
  rw [isInfinite, beq_iff_eq]
  omega

/-- Only a number of another absolute value can be as near to a quotient as the one that it is read
as. -/
theorem absValue_ne_of_tie (hden : 0 < den) (hfin : (ofRatio negative num den).isFinite = true)
    {y : Binary64} (hne : y.value ≠ (ofRatio negative num den).value)
    (htie : |y.value - signed negative ((num : ℚ) / den)| =
      |(ofRatio negative num den).value - signed negative ((num : ℚ) / den)|) :
    y.absValue ≠ (ofRatio negative num den).absValue := by
  intro hsame
  -- the other number is the opposite, and only zero is as near as its opposite
  rw [← abs_value, ← abs_value] at hsame
  have hopposite := (abs_eq_abs.1 hsame).resolve_left hne
  have hzero : (ofRatio negative num den).value = 0 := by
    rw [hopposite] at htie
    rcases abs_eq_abs.1 htie with h | h
    · linarith
    · have hq : signed negative ((num : ℚ) / den) = 0 := by linarith
      have hr : (num : ℚ) / den = 0 := by
        rw [← abs_signed negative (quotient_nonneg num den), hq, abs_zero]
      have hnearest := ofRatio_nearest hden hfin zero
      rw [hr, absValue_of_isZero (x := zero) rfl, sub_zero, sub_zero, abs_zero, ← abs_value, abs_abs]
        at hnearest
      exact abs_nonpos_iff.1 hnearest
  rw [hzero, neg_zero] at hopposite
  exact hne (hopposite.trans hzero.symm)

/-- **A quotient is read as the number that it is rounded to.** -/
theorem isRounding_ofRatio (hden : 0 < den) (num : Nat) :
    (ofRatio negative num den).IsRounding (signed negative ((num : ℚ) / den)) where
  finite h := by
    rw [abs_signed negative (quotient_nonneg num den)] at h
    exact (isFinite_ofRatio_iff_lt negative hden).2 h
  infinite h := by
    rw [abs_signed negative (quotient_nonneg num den)] at h
    apply isInfinite_of_not_isFinite
    rw [Bool.eq_false_iff]
    exact fun hfin => absurd ((isFinite_ofRatio_iff_lt negative hden).1 hfin) (not_lt.2 h)
  nearest hfin y _ := by
    rw [abs_value_ofRatio_sub]
    exact (ofRatio_nearest hden hfin y).trans (abs_absValue_sub_le negative y)
  even hfin y _ hne htie := by
    apply even_significand_ofRatio hden hfin (y := y)
    · intro hunits
      apply absValue_ne_of_tie negative hden hfin hne htie
      rw [absValue, absValue, hunits]
    · rw [abs_value_ofRatio_sub] at htie
      have habs : |y.absValue - (num : ℚ) / den| =
          |(ofRatio negative num den).absValue - (num : ℚ) / den| :=
        le_antisymm ((abs_absValue_sub_le negative y).trans htie.le) (ofRatio_nearest hden hfin y)
      have hscaled := congrArg (· * ((twoTo 1074 : ℚ) * den)) habs
      simp only [abs_absValue_sub hden] at hscaled
      exact_mod_cast hscaled
  sign hne := by
    rw [negative_ofRatio]
    cases negative
    · simpa [signed] using quotient_nonneg num den
    · have hquotient : (num : ℚ) / den ≠ 0 := by simpa [signed] using hne
      simpa [signed] using lt_of_le_of_ne (quotient_nonneg num den) hquotient.symm

end OfRatio

/-- **A decimal is read as the number that it is rounded to**, and has the sign with which it is
written. -/
theorem isRounding_ofDecimal (negative : Bool) (digits : Nat) (e : Int) :
    (ofDecimal negative digits e).IsRounding (signed negative (digits * 10 ^ e)) ∧
      (ofDecimal negative digits e).negative = negative := by
  rw [ofDecimal_eq_ofRatio, decimal_eq_quotient]
  exact ⟨isRounding_ofRatio negative (tenTo_pos _) _, negative_ofRatio _ _ _⟩

/-- No number is nearer to a decimal than the finite one that it is read as. -/
theorem absValue_ofDecimal_nearest {negative : Bool} {digits : Nat} {e : Int}
    (hfin : (ofDecimal negative digits e).isFinite = true) (y : Binary64) :
    |(ofDecimal negative digits e).absValue - digits * 10 ^ e| ≤
      |y.absValue - digits * 10 ^ e| := by
  rw [ofDecimal_eq_ofRatio] at hfin ⊢
  rw [decimal_eq_quotient]
  exact ofRatio_nearest (tenTo_pos _) hfin y

/-- Of two decimals the greater one is read as a number that is no less. -/
theorem absValue_ofDecimal_mono {negative : Bool} {digits digits' : Nat} {e e' : Int}
    (hle : (digits : ℚ) * 10 ^ e ≤ digits' * 10 ^ e')
    (hfin : (ofDecimal negative digits e).isFinite = true)
    (hfin' : (ofDecimal negative digits' e').isFinite = true) :
    (ofDecimal negative digits e).absValue ≤ (ofDecimal negative digits' e').absValue := by
  rcases hle.eq_or_lt with heq | hlt
  · rw [ofDecimal_congr heq]
  -- each number is at least as near to its own decimal as the other one is
  have hown := sq_le_sq.2 (absValue_ofDecimal_nearest hfin (ofDecimal negative digits' e'))
  have hown' := sq_le_sq.2 (absValue_ofDecimal_nearest hfin' (ofDecimal negative digits e))
  by_contra hnot
  nlinarith

end Binary64

end PagePlan
