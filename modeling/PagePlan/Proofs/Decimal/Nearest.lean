/-
# The nearest number

Rounding a quotient gives a number with at most fifty-three places.  No finite number is nearer to
the quotient: one with the same unit in its last place or a coarser one is a multiple of that unit,
as the rounded one is, and one with a finer unit lies below the smallest number with that unit.

* `ofRatio_nearest` — no finite number is nearer to a quotient than the one that it is read as;
* `isNearest_ofInt` — an integer in the range of the finite numbers becomes the nearest one.
-/
import PagePlan.Proofs.Decimal.Rounding
import Mathlib.Algebra.Order.Group.Unbundled.Abs

namespace PagePlan

namespace Decimal

/-- No multiple of the denominator is nearer than the one that is rounded to. -/
theorem roundDiv_nearest {num den : Nat} (hden : 0 < den) (j : Nat) :
    |((roundDiv num den * den : Nat) : ℤ) - num| ≤ |((j * den : Nat) : ℤ) - num| := by
  obtain ⟨hhigh, hlow⟩ := roundDiv_near hden num
  generalize roundDiv num den = q at hlow hhigh ⊢
  rcases Nat.lt_trichotomy j q with h | rfl | h
  · have hj : j * den + den ≤ q * den := by
      calc j * den + den = (j + 1) * den := by ring
        _ ≤ q * den := Nat.mul_le_mul_right den h
    rw [abs_le, le_abs, neg_le, le_abs]
    omega
  · exact le_rfl
  · have hj : q * den + den ≤ j * den := by
      calc q * den + den = (q + 1) * den := by ring
        _ ≤ j * den := Nat.mul_le_mul_right den h
    rw [abs_le, le_abs, neg_le, le_abs]
    omega

end Decimal

namespace Binary64

open Decimal (twoTo roundDiv twoTo_pos)

/-! ### Units of a rounded quotient -/

/-- A number put together from a scale and a significand; one of fifty-four places carries into the
scale. -/
theorem units_ofMagnitude {scale significand : Nat} (negative : Bool)
    (hlow : scale = 0 ∨ 2 ^ 52 ≤ significand) (hhigh : significand ≤ 2 ^ 53)
    (hfin : scale * 2 ^ 52 + significand < infiniteMagnitude) :
    (ofMagnitude negative (scale * 2 ^ 52 + significand)).units = significand * 2 ^ scale := by
  rw [units, Binary64.scale, Binary64.significand,
    magnitude_ofMagnitude (hfin.trans infiniteMagnitude_lt)]
  rcases Nat.lt_or_ge significand (2 ^ 52) with hsmall | hfull
  · obtain rfl : scale = 0 := hlow.resolve_right (by omega)
    have hmag : 0 * 2 ^ 52 + significand < twoTo 52 := by rw [Decimal.twoTo_eq]; omega
    rw [if_pos hmag, Decimal.twoTo_eq, Decimal.twoTo_eq]
    rw [show (0 * 2 ^ 52 + significand) / 2 ^ 52 - 1 = 0 by omega,
      show 0 * 2 ^ 52 + significand = significand by omega]
  · have hmag : ¬ scale * 2 ^ 52 + significand < twoTo 52 := by rw [Decimal.twoTo_eq]; omega
    rw [if_neg hmag, Decimal.twoTo_eq, Decimal.twoTo_eq]
    rcases Nat.lt_or_eq_of_le hhigh with hplaces | rfl
    · rw [show (scale * 2 ^ 52 + significand) / 2 ^ 52 - 1 = scale by omega,
        show (scale * 2 ^ 52 + significand) % 2 ^ 52 + 2 ^ 52 = significand by omega]
    · rw [show (scale * 2 ^ 52 + 2 ^ 53) / 2 ^ 52 - 1 = scale + 1 by omega,
        show (scale * 2 ^ 52 + 2 ^ 53) % 2 ^ 52 + 2 ^ 52 = 2 ^ 52 by omega]
      ring

/-- How many times the finest unit is doubled for the last place of a rounded quotient, which is
given in units of the finest place. -/
def roundingScale (a den : Nat) : Nat := (a / den).log2 - 52

/-- The unit in the last place of a rounded quotient, times the denominator. -/
def roundingUnit (a den : Nat) : Nat := den * 2 ^ roundingScale a den

theorem roundingUnit_pos (a : Nat) {den : Nat} (hden : 0 < den) : 0 < roundingUnit a den :=
  Nat.mul_pos hden (Nat.two_pow_pos _)

/-- A quotient is put together from a scale and a significand. -/
theorem ofRatio_eq_ofMagnitude (negative : Bool) (num den : Nat) :
    ofRatio negative num den = ofMagnitude negative (min infiniteMagnitude
      (roundingScale (num * twoTo 1074) den * 2 ^ 52 +
        roundDiv (num * twoTo 1074) (roundingUnit (num * twoTo 1074) den))) := rfl

/-- The significand of a rounded quotient has at most fifty-three places, or is the next power of
two, and it has no fewer unless the unit is the finest. -/
theorem roundDiv_bounds (a : Nat) {den : Nat} (hden : 0 < den) :
    roundDiv a (roundingUnit a den) ≤ 2 ^ 53 ∧
      (roundingScale a den = 0 ∨ 2 ^ 52 * roundingUnit a den ≤ a ∧
        2 ^ 52 ≤ roundDiv a (roundingUnit a den)) := by
  have hbpos := roundingUnit_pos a hden
  obtain ⟨hhigh, hlow⟩ := Decimal.roundDiv_near hbpos a
  obtain ⟨scale, hscale⟩ : ∃ scale, scale = roundingScale a den := ⟨_, rfl⟩
  obtain ⟨b, hb⟩ : ∃ b, b = roundingUnit a den := ⟨_, rfl⟩
  rw [← hb] at hbpos hhigh hlow ⊢
  rw [← hscale]
  rw [roundingUnit, ← hscale] at hb
  rw [roundingScale] at hscale
  have hnum : a < 2 ^ 53 * b := by
    have hlt : a / den < 2 ^ (53 + scale) :=
      Nat.lt_log2_self.trans_le (Nat.pow_le_pow_right (by decide) (by omega))
    calc a < 2 ^ (53 + scale) * den := (Nat.div_lt_iff_lt_mul hden).1 hlt
      _ = 2 ^ 53 * b := by rw [hb, pow_add]; ring
  constructor
  · by_contra hlarge
    have hmul : (2 ^ 53 + 1) * b ≤ roundDiv a b * b := Nat.mul_le_mul_right b (by omega)
    rw [Nat.add_mul] at hmul
    omega
  · rcases Nat.eq_zero_or_pos scale with hzero | hpos
    · exact Or.inl hzero
    · have hne : a / den ≠ 0 := by
        intro h
        simp [h] at hscale
        omega
      have hle : 2 ^ 52 * b ≤ a := by
        have hpow : 2 ^ (52 + scale) ≤ a / den := by
          rw [show 52 + scale = (a / den).log2 by omega]
          exact Nat.log2_self_le hne
        calc 2 ^ 52 * b = 2 ^ (52 + scale) * den := by rw [hb, pow_add]; ring
          _ ≤ a := (Nat.le_div_iff_mul_le hden).1 hpow
      refine Or.inr ⟨hle, ?_⟩
      by_contra hsmall
      have hmul : (roundDiv a b + 1) * b ≤ 2 ^ 52 * b := Nat.mul_le_mul_right b (by omega)
      rw [Nat.add_mul] at hmul
      omega

/-- A quotient is read as a finite number just if it is put together below the magnitude of
infinity. -/
theorem isFinite_ofRatio_iff {negative : Bool} {num den : Nat} :
    (ofRatio negative num den).isFinite = true ↔ roundingScale (num * twoTo 1074) den * 2 ^ 52 +
      roundDiv (num * twoTo 1074) (roundingUnit (num * twoTo 1074) den) < infiniteMagnitude := by
  have hlt := (Nat.min_le_left infiniteMagnitude (roundingScale (num * twoTo 1074) den * 2 ^ 52 +
    roundDiv (num * twoTo 1074) (roundingUnit (num * twoTo 1074) den))).trans_lt
      infiniteMagnitude_lt
  rw [isFinite_iff, ofRatio_eq_ofMagnitude, magnitude_ofMagnitude hlt]
  exact min_lt_iff.trans (or_iff_right (lt_irrefl _))

theorem magnitude_ofRatio {negative : Bool} {num den : Nat}
    (hfin : (ofRatio negative num den).isFinite = true) :
    (ofRatio negative num den).magnitude = roundingScale (num * twoTo 1074) den * 2 ^ 52 +
      roundDiv (num * twoTo 1074) (roundingUnit (num * twoTo 1074) den) := by
  have hlt := isFinite_ofRatio_iff.1 hfin
  rw [ofRatio_eq_ofMagnitude, Nat.min_eq_right hlt.le,
    magnitude_ofMagnitude (hlt.trans infiniteMagnitude_lt)]

/-- A rounded quotient is the multiple of its unit that is rounded to. -/
theorem units_ofRatio {num den : Nat} (hden : 0 < den) {negative : Bool}
    (hfin : (ofRatio negative num den).isFinite = true) :
    (ofRatio negative num den).units * den =
      roundDiv (num * twoTo 1074) (roundingUnit (num * twoTo 1074) den) *
        roundingUnit (num * twoTo 1074) den := by
  obtain ⟨hhigh, hlow⟩ := roundDiv_bounds (num * twoTo 1074) hden
  have hlt := isFinite_ofRatio_iff.1 hfin
  rw [ofRatio_eq_ofMagnitude, Nat.min_eq_right hlt.le,
    units_ofMagnitude negative (hlow.imp_right fun h => h.2) hhigh hlt]
  generalize roundDiv (num * twoTo 1074) (roundingUnit (num * twoTo 1074) den) = r
  rw [roundingUnit]
  ring

/-- For each number there is a multiple of the unit of a rounded quotient that is nearer to the
quotient, or is the number. -/
theorem exists_multiple_near (a : Nat) {den : Nat} (hden : 0 < den) (y : Binary64) :
    ∃ j, y.units * den = j * roundingUnit a den ∨
      |((j * roundingUnit a den : Nat) : ℤ) - a| < |((y.units * den : Nat) : ℤ) - a| := by
  obtain ⟨-, hlow⟩ := roundDiv_bounds a hden
  rcases Nat.lt_or_ge y.scale (roundingScale a den) with hfine | hcoarse
  · -- a number below the smallest one with the unit
    obtain ⟨hle, -⟩ := hlow.resolve_left (by omega)
    have hy : y.units * den ≤ 2 ^ 52 * roundingUnit a den := by
      have hsig := y.significand_lt
      have hpow : 2 ^ (y.scale + 1) ≤ 2 ^ roundingScale a den :=
        Nat.pow_le_pow_right (by decide) hfine
      calc y.units * den = y.significand * 2 ^ y.scale * den := by rw [units, Decimal.twoTo_eq]
        _ ≤ 2 ^ 53 * 2 ^ y.scale * den := by gcongr
        _ = 2 ^ 52 * 2 ^ (y.scale + 1) * den := by rw [pow_succ]; ring
        _ ≤ 2 ^ 52 * 2 ^ roundingScale a den * den := by gcongr
        _ = 2 ^ 52 * roundingUnit a den := by rw [roundingUnit]; ring
    refine ⟨2 ^ 52, ?_⟩
    rcases Nat.eq_or_lt_of_le hy with heq | hlt
    · exact Or.inl heq
    · right
      rw [abs_of_nonpos (by omega), abs_of_nonpos (by omega)]
      omega
  · -- a multiple of the unit
    refine ⟨y.significand * 2 ^ (y.scale - roundingScale a den), Or.inl ?_⟩
    obtain ⟨k, hk⟩ := Nat.exists_eq_add_of_le hcoarse
    rw [units, Decimal.twoTo_eq, roundingUnit, hk, Nat.add_sub_cancel_left, pow_add]
    ring

/-- In units of the finest place, no number is nearer to a quotient than the one that it is read
as. -/
theorem ofRatio_nearest_units {num den : Nat} (hden : 0 < den) {negative : Bool}
    (hfin : (ofRatio negative num den).isFinite = true) (y : Binary64) :
    |(((ofRatio negative num den).units * den : Nat) : ℤ) - (num * twoTo 1074 : Nat)| ≤
      |((y.units * den : Nat) : ℤ) - (num * twoTo 1074 : Nat)| := by
  rw [units_ofRatio hden hfin]
  obtain ⟨j, hj | hj⟩ := exists_multiple_near (num * twoTo 1074) hden y
  · rw [hj]
    exact Decimal.roundDiv_nearest (roundingUnit_pos _ hden) j
  · exact (Decimal.roundDiv_nearest (roundingUnit_pos _ hden) j).trans hj.le

/-! ### Values -/

/-- The distance of a number from a quotient, in units of the finest place. -/
theorem abs_absValue_sub {den : Nat} (hden : 0 < den) (num : Nat) (x : Binary64) :
    |x.absValue - (num : ℚ) / den| * (twoTo 1074 * den) =
      ((|((x.units * den : Nat) : ℤ) - (num * twoTo 1074 : Nat)| : ℤ) : ℚ) := by
  have hd : (0 : ℚ) < den := by exact_mod_cast hden
  have ht := twoTo_pos_rat
  have hclear : (x.absValue - (num : ℚ) / den) * (twoTo 1074 * den) =
      x.units * den - num * twoTo 1074 := by
    calc (x.absValue - (num : ℚ) / den) * (twoTo 1074 * den)
        = x.absValue * twoTo 1074 * den - num / den * den * twoTo 1074 := by ring
      _ = x.units * den - num * twoTo 1074 := by rw [absValue_mul, div_mul_cancel₀ _ hd.ne']
  rw [← abs_of_pos (mul_pos ht hd), ← abs_mul, hclear]
  generalize twoTo 1074 = t
  push_cast
  rfl

/-- **No finite number is nearer to a quotient than the one that it is read as.** -/
theorem ofRatio_nearest {num den : Nat} (hden : 0 < den) {negative : Bool}
    (hfin : (ofRatio negative num den).isFinite = true) (y : Binary64) :
    |(ofRatio negative num den).absValue - (num : ℚ) / den| ≤ |y.absValue - (num : ℚ) / den| := by
  have hd : (0 : ℚ) < den := by exact_mod_cast hden
  have ht := twoTo_pos_rat
  refine le_of_mul_le_mul_right ?_ (mul_pos ht hd)
  rw [abs_absValue_sub hden, abs_absValue_sub hden]
  exact_mod_cast ofRatio_nearest_units hden hfin y

/-- The value of a finite number. -/
def value (x : Binary64) : ℚ :=
  if x.negative then -x.absValue else x.absValue

/-- Whether a number is finite and no other finite one is nearer to an integer. -/
def IsNearest (x : Binary64) (n : Int) : Prop :=
  x.isFinite = true ∧ ∀ y : Binary64, y.isFinite = true → |x.value - n| ≤ |y.value - n|

theorem abs_value (x : Binary64) : |x.value| = x.absValue := by
  have hnonneg : 0 ≤ x.absValue := by
    rw [absValue]
    positivity
  rw [value]
  split
  · rw [abs_neg, abs_of_nonneg hnonneg]
  · rw [abs_of_nonneg hnonneg]

theorem negative_ofRatio (negative : Bool) (num den : Nat) :
    (ofRatio negative num den).negative = negative :=
  negative_ofMagnitude ((Nat.min_le_left _ _).trans_lt infiniteMagnitude_lt) negative

/-- **An integer in the range of the finite numbers becomes the nearest one.** -/
theorem isNearest_ofInt {n : Int} (h : (ofInt n).isFinite = true) : (ofInt n).IsNearest n := by
  refine ⟨h, fun y _ => ?_⟩
  have hone := ofRatio_nearest Nat.one_pos h y
  rw [Nat.cast_one, div_one, ← ofInt] at hone
  have habs : ((n.natAbs : Nat) : ℚ) = |(n : ℚ)| := by
    rw [Nat.cast_natAbs, Int.cast_abs]
  have hvalue : |(ofInt n).value - n| = |(ofInt n).absValue - (n.natAbs : ℚ)| := by
    rw [value, ofInt, negative_ofRatio, habs]
    rcases Int.lt_or_le n 0 with hneg | hpos
    · have hn : |(n : ℚ)| = -n := abs_of_neg (by exact_mod_cast hneg)
      rw [if_pos (by simpa using hneg), hn, ← abs_neg]
      congr 1
      ring
    · have hn : |(n : ℚ)| = n := abs_of_nonneg (by exact_mod_cast hpos)
      rw [if_neg (by simpa using hpos), hn]
  have hother : |y.absValue - (n.natAbs : ℚ)| ≤ |y.value - n| := by
    rw [habs, ← abs_value]
    exact abs_abs_sub_abs_le _ _
  rw [hvalue]
  exact hone.trans hother

end Binary64

end PagePlan
