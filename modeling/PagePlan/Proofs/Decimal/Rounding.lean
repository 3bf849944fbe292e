/-
# Rounding to the nearest number

Reading a quotient rounds its exact value once.  Three facts about it carry everything that is
said about the texts of numbers:

* a quotient within one part in `2 ^ 54` of a finite number is read as that number
  (`ofRatio_eq_of_near`);
* equal quotients are read alike (`ofRatio_congr`);
* a decimal is read as the quotient that it denotes, the shortcuts for very large and very small
  exponents included (`ofDecimal_eq_ofRatio`).
-/
import PagePlan.Decimal.Binary64
import Mathlib.Data.Rat.Cast.Order
import Mathlib.Tactic.FieldSimp
import Mathlib.Tactic.Linarith
import Mathlib.Tactic.Positivity
import Mathlib.Tactic.Ring

namespace PagePlan

namespace Decimal

theorem twoTo_eq (k : Nat) : twoTo k = 2 ^ k := rfl

theorem tenTo_eq (k : Nat) : tenTo k = 10 ^ k := rfl

theorem twoTo_pos (k : Nat) : 0 < twoTo k := Nat.pow_pos (by decide)

theorem tenTo_pos (k : Nat) : 0 < tenTo k := Nat.pow_pos (by decide)

/-- The integer within less than a half of a quotient is the one that it is rounded to. -/
theorem roundDiv_eq {num den n : Nat} (hlow : 2 * (n * den) < 2 * num + den)
    (hhigh : 2 * num < 2 * (n * den) + den) : roundDiv num den = n := by
  have hden : 0 < den := by
    by_contra hzero
    obtain rfl : den = 0 := by omega
    omega
  have hsplit : den * (num / den) + num % den = num := Nat.div_add_mod num den
  have hrest : num % den < den := Nat.mod_lt _ hden
  have hcases : num / den = n ∨ num / den + 1 = n := by
    have hle : num / den < n + 1 := by
      rw [Nat.div_lt_iff_lt_mul hden, Nat.add_mul]
      omega
    have hge : n < num / den + 2 := by
      by_contra hfar
      have hmul : den * (num / den) + 2 * den ≤ n * den := by
        calc den * (num / den) + 2 * den = (num / den + 2) * den := by ring
          _ ≤ n * den := Nat.mul_le_mul_right den (by omega)
      omega
    omega
  simp only [roundDiv]
  rcases hcases with hq | hq
  · rw [hq] at hsplit ⊢
    rw [if_pos (by rw [Nat.mul_comm n den] at hhigh; omega)]
  · have hn : n * den = den * (num / den) + den := by rw [← hq]; ring
    rw [if_neg (by omega), if_pos (by omega), hq]

/-- Rounding to an integer moves a quotient by a half at most. -/
theorem roundDiv_near {den : Nat} (hden : 0 < den) (num : Nat) :
    2 * (roundDiv num den * den) ≤ 2 * num + den ∧
      2 * num ≤ 2 * (roundDiv num den * den) + den := by
  have hsplit : num / den * den + num % den = num := Nat.div_add_mod' num den
  have hrest : num % den < den := Nat.mod_lt _ hden
  have hnext : (num / den + 1) * den = num / den * den + den := Nat.succ_mul _ _
  simp only [roundDiv]
  split
  · omega
  · split
    · omega
    · split <;> omega

/-- Rounding depends on the quotient alone. -/
theorem roundDiv_mul_left {k : Nat} (hk : 0 < k) (num den : Nat) :
    roundDiv (k * num) (k * den) = roundDiv num den := by
  have hlt (a b : Nat) : k * a < k * b ↔ a < b := Nat.mul_lt_mul_left hk
  simp only [roundDiv, Nat.mul_div_mul_left _ _ hk, Nat.mul_mod_mul_left,
    Nat.mul_left_comm 2 k, hlt]

end Decimal

namespace Binary64

open Decimal (twoTo tenTo roundDiv twoTo_pos tenTo_pos)

/-! ### The parts of a number -/

theorem infiniteMagnitude_lt : infiniteMagnitude < twoTo 63 := by decide

/-- A number is put together from its sign and its magnitude. -/
@[simp] theorem ofMagnitude_magnitude (x : Binary64) :
    ofMagnitude x.negative x.magnitude = x := by
  have hbits : x.bits.toNat < 2 ^ 64 := x.bits.toNat_lt
  have hsum : x.magnitude % twoTo 63 + (if x.negative = true then twoTo 63 else 0) =
      x.bits.toNat := by
    have hsplit := Nat.div_add_mod x.bits.toNat (twoTo 63)
    simp only [magnitude, negative, decide_eq_true_eq, Nat.mod_mod]
    split
    · next h => rw [Decimal.twoTo_eq] at *; omega
    · next h => rw [Decimal.twoTo_eq] at *; omega
  rw [ofMagnitude, hsum, UInt64.ofNat_toNat]

theorem toNat_bits_ofMagnitude {m : Nat} (hm : m < twoTo 63) (negative : Bool) :
    (ofMagnitude negative m).bits.toNat = m + if negative then twoTo 63 else 0 := by
  have hmod : m % twoTo 63 = m := Nat.mod_eq_of_lt hm
  rw [Decimal.twoTo_eq] at hm
  simp only [ofMagnitude, hmod, UInt64.toNat_ofNat']
  apply Nat.mod_eq_of_lt
  cases negative
  · simp only [Bool.false_eq_true, if_false]; omega
  · simp only [if_true, Decimal.twoTo_eq]; omega

@[simp] theorem magnitude_ofMagnitude {m : Nat} (hm : m < twoTo 63) (negative : Bool) :
    (ofMagnitude negative m).magnitude = m := by
  rw [magnitude, toNat_bits_ofMagnitude hm]
  cases negative
  · simp [Nat.mod_eq_of_lt hm]
  · simp [Nat.mod_eq_of_lt hm]

@[simp] theorem negative_ofMagnitude {m : Nat} (hm : m < twoTo 63) (negative : Bool) :
    (ofMagnitude negative m).negative = negative := by
  rw [Binary64.negative, toNat_bits_ofMagnitude hm]
  cases negative
  · simpa using hm
  · simp

/-- The bits below the sign are the scale and the significand, added up. -/
theorem scale_add_significand (x : Binary64) :
    x.scale * twoTo 52 + x.significand = x.magnitude := by
  have hsplit := Nat.div_add_mod x.magnitude (twoTo 52)
  simp only [scale, significand]
  split
  · next h => simp [Nat.div_eq_of_lt h]
  · next h =>
    have hpos : 1 ≤ x.magnitude / twoTo 52 :=
      (Nat.one_le_div_iff (twoTo_pos 52)).2 (Nat.le_of_not_lt h)
    obtain ⟨k, hk⟩ : ∃ k, x.magnitude / twoTo 52 = k + 1 := ⟨_, (Nat.sub_add_cancel hpos).symm⟩
    rw [hk] at hsplit ⊢
    calc (k + 1 - 1) * twoTo 52 + (x.magnitude % twoTo 52 + twoTo 52)
        = twoTo 52 * (k + 1) + x.magnitude % twoTo 52 := by rw [Nat.add_sub_cancel]; ring
      _ = x.magnitude := hsplit

theorem significand_lt (x : Binary64) : x.significand < 2 ^ 53 := by
  have hmod : x.magnitude % twoTo 52 < twoTo 52 := Nat.mod_lt _ (twoTo_pos 52)
  simp only [significand]
  split
  · next h => rw [Decimal.twoTo_eq] at h; omega
  · rw [Decimal.twoTo_eq] at hmod ⊢; omega

/-- All but the smallest numbers use all bits of the significand. -/
theorem scale_eq_zero_or (x : Binary64) : x.scale = 0 ∨ 2 ^ 52 ≤ x.significand := by
  simp only [scale, significand]
  split
  · next h => exact Or.inl (by simp [Nat.div_eq_of_lt h])
  · exact Or.inr (Nat.le_add_left _ _)

theorem isFinite_iff {x : Binary64} : x.isFinite = true ↔ x.magnitude < infiniteMagnitude := by
  simp [isFinite]

/-! ### Quotients near a number -/

/-- The logarithm of a quotient that lies between two powers of two. -/
theorem log2_div_eq {num den k : Nat} (hden : 0 < den) (hlow : 2 ^ k * den ≤ num)
    (hhigh : num < 2 ^ (k + 1) * den) : (num / den).log2 = k := by
  have hle : 2 ^ k ≤ num / den := (Nat.le_div_iff_mul_le hden).2 hlow
  have hlt : num / den < 2 ^ (k + 1) := (Nat.div_lt_iff_lt_mul hden).2 hhigh
  have hne : num / den ≠ 0 := by
    have := Nat.two_pow_pos k
    omega
  exact (Nat.log2_eq_iff hne).2 ⟨hle, hlt⟩

/-- A quotient, in units of the finest place, within one part in `2 ^ 54` of a finite number is
read as that number. -/
theorem ofRatio_eq_of_units {x : Binary64} (hfin : x.isFinite = true) {num den : Nat}
    (hden : 0 < den)
    (hlow : (2 ^ 54 - 1) * (x.units * den) < 2 ^ 54 * (num * twoTo 1074))
    (hhigh : 2 ^ 54 * (num * twoTo 1074) < (2 ^ 54 + 1) * (x.units * den)) :
    ofRatio x.negative num den = x := by
  have hsum := x.scale_add_significand
  have hsig := x.significand_lt
  have hor := x.scale_eq_zero_or
  have hmag : x.magnitude < infiniteMagnitude := isFinite_iff.1 hfin
  simp only [units, Decimal.twoTo_eq] at hlow hhigh hsum
  simp only [ofRatio, Decimal.twoTo_eq]
  -- `b` is one unit in the last place of the number, times the denominator
  obtain ⟨b, hb⟩ : ∃ b, b = 2 ^ x.scale * den := ⟨_, rfl⟩
  obtain ⟨p, hp⟩ : ∃ p, p = x.significand * b := ⟨_, rfl⟩
  have hunits : x.significand * 2 ^ x.scale * den = p := by rw [hp, hb]; ring
  have hbpos : 0 < b := hb ▸ Nat.mul_pos (Nat.two_pow_pos _) hden
  have hpb : p + b ≤ 2 ^ 53 * b := by
    calc p + b = (x.significand + 1) * b := by rw [hp]; ring
      _ ≤ 2 ^ 53 * b := Nat.mul_le_mul_right b (by omega)
  rw [hunits] at hlow hhigh
  generalize num * 2 ^ 1074 = a at hlow hhigh ⊢
  have hup : 2 * a < 2 * p + b := by omega
  have hdown : 2 * p < 2 * a + b := by omega
  have hround : roundDiv a b = x.significand := by
    apply Decimal.roundDiv_eq
    · rw [← hp]; exact hdown
    · rw [← hp]; exact hup
  have hresult : (a / den).log2 - 52 = x.scale →
      ofMagnitude x.negative (min infiniteMagnitude (((a / den).log2 - 52) * 2 ^ 52 +
        roundDiv a (den * 2 ^ ((a / den).log2 - 52)))) = x := by
    intro hscale
    rw [hscale, Nat.mul_comm den, ← hb, hround, hsum, Nat.min_eq_right hmag.le,
      ofMagnitude_magnitude]
  rcases Nat.eq_zero_or_pos x.scale with hzero | hpos
  · -- the smallest numbers: the scale cannot be less than zero
    apply hresult
    have hbden : b = den := by rw [hb, hzero]; ring
    have hlt : a / den < 2 ^ 53 := (Nat.div_lt_iff_lt_mul hden).2 (by rw [← hbden]; omega)
    have hlog : (a / den).log2 < 53 := by
      rcases Nat.eq_zero_or_pos (a / den) with h0 | h0
      · simp [h0]
      · exact (Nat.log2_lt (by omega)).2 hlt
    omega
  · have hfull : 2 ^ 52 ≤ x.significand := hor.resolve_left (by omega)
    obtain ⟨k, hk⟩ : ∃ k, x.scale = k + 1 := ⟨x.scale - 1, by omega⟩
    -- half a unit in the last place
    obtain ⟨c, hc⟩ : ∃ c, c = 2 ^ k * den := ⟨_, rfl⟩
    have hbc : b = 2 * c := by rw [hb, hc, hk, pow_succ]; ring
    have hpc : 2 ^ 52 * b ≤ p := by rw [hp]; exact Nat.mul_le_mul_right b hfull
    by_cases hbelow : 2 ^ 52 * b ≤ a
    · -- the quotient has as many places as the number
      apply hresult
      have hlog : (a / den).log2 = 52 + x.scale := by
        apply log2_div_eq hden
        · calc 2 ^ (52 + x.scale) * den = 2 ^ 52 * b := by rw [hb, pow_add]; ring
            _ ≤ a := hbelow
        · calc a < 2 ^ 53 * b := by omega
            _ = 2 ^ (52 + x.scale + 1) * den := by rw [hb, pow_succ, pow_add]; ring
      omega
    · -- the number is a power of two, and the quotient below it has one place less
      have hpow : x.significand = 2 ^ 52 := by
        by_contra hne
        have hnext : 2 ^ 52 * b + b ≤ p := by
          calc 2 ^ 52 * b + b = (2 ^ 52 + 1) * b := by ring
            _ ≤ p := by rw [hp]; exact Nat.mul_le_mul_right b (by omega)
        omega
      have hpeq : p = 2 ^ 52 * b := by rw [hp, hpow]
      have hlog : (a / den).log2 = 52 + k := by
        apply log2_div_eq hden
        · calc 2 ^ (52 + k) * den = 2 ^ 52 * c := by rw [hc, pow_add]; ring
            _ ≤ a := by omega
        · calc a < 2 ^ 53 * c := by omega
            _ = 2 ^ (52 + k + 1) * den := by rw [hc, pow_succ, pow_add]; ring
      have hscale : (a / den).log2 - 52 = k := by omega
      have hup' : roundDiv a c = 2 ^ 53 := by
        apply Decimal.roundDiv_eq <;> omega
      have hmagnitude : k * 2 ^ 52 + 2 ^ 53 = x.magnitude := by
        rw [← hsum, hk, hpow]
        ring
      rw [hscale, Nat.mul_comm den, ← hc, hup', hmagnitude, Nat.min_eq_right hmag.le,
        ofMagnitude_magnitude]

/-- There are units in one. -/
theorem twoTo_pos_rat : (0 : ℚ) < twoTo 1074 := by
  exact_mod_cast twoTo_pos 1074

/-- The absolute value of a finite number. -/
def absValue (x : Binary64) : ℚ := x.units / twoTo 1074

theorem absValue_mul (x : Binary64) : x.absValue * twoTo 1074 = x.units := by
  rw [absValue, div_mul_cancel₀ _ twoTo_pos_rat.ne']

/-- **A quotient near a number is read as it.**  Near means within one part in `2 ^ 54`, which is
half a unit in the last place, or less where the number is a power of two. -/
theorem ofRatio_eq_of_near {x : Binary64} (hfin : x.isFinite = true) {num den : Nat}
    (hden : 0 < den) (hnear : 2 ^ 54 * |(num : ℚ) / den - x.absValue| < x.absValue) :
    ofRatio x.negative num den = x := by
  have hd : (0 : ℚ) < den := by exact_mod_cast hden
  have ht := twoTo_pos_rat
  have hlt : |(num : ℚ) / den - x.absValue| < x.absValue / 2 ^ 54 := by
    rw [lt_div_iff₀ (by positivity)]
    linarith
  obtain ⟨hl, hr⟩ := abs_lt.1 hlt
  -- both bounds, cleared of their denominators
  have hnum : (num : ℚ) / den * (den * twoTo 1074) = num * twoTo 1074 := by field_simp
  have hval : x.absValue * (den * twoTo 1074) = x.units * den := by
    rw [mul_comm (den : ℚ), ← mul_assoc, absValue_mul]
  have hscale : (0 : ℚ) < den * twoTo 1074 := mul_pos hd ht
  apply ofRatio_eq_of_units hfin hden
  · have h : (2 ^ 54 - 1) * x.absValue < 2 ^ 54 * ((num : ℚ) / den) := by linarith
    have h' := mul_lt_mul_of_pos_right h hscale
    rw [mul_assoc, mul_assoc, hnum, hval] at h'
    generalize twoTo 1074 = t at h' ⊢
    have hcast : (((2 ^ 54 - 1) * (x.units * den) : Nat) : ℚ) <
        ((2 ^ 54 * (num * t) : Nat) : ℚ) := by
      push_cast
      norm_num at h' ⊢
      exact h'
    exact_mod_cast hcast
  · have h : 2 ^ 54 * ((num : ℚ) / den) < (2 ^ 54 + 1) * x.absValue := by linarith
    have h' := mul_lt_mul_of_pos_right h hscale
    rw [mul_assoc, mul_assoc, hnum, hval] at h'
    exact_mod_cast h'

/-! ### Equal quotients -/

theorem ofRatio_mul_left {k : Nat} (hk : 0 < k) (negative : Bool) (num den : Nat) :
    ofRatio negative (k * num) (k * den) = ofRatio negative num den := by
  simp only [ofRatio, Nat.mul_assoc k, Nat.mul_div_mul_left _ _ hk, Decimal.roundDiv_mul_left hk]

/-- Equal quotients are read alike. -/
theorem ofRatio_congr {num den num' den' : Nat} (hden : 0 < den) (hden' : 0 < den')
    (h : num * den' = num' * den) (negative : Bool) :
    ofRatio negative num den = ofRatio negative num' den' := by
  rw [← ofRatio_mul_left hden' negative num den, ← ofRatio_mul_left hden negative num' den',
    Nat.mul_comm den' num, Nat.mul_comm den num', h, Nat.mul_comm den' den]

/-! ### Decimals -/

/-- A quotient below half of the smallest number is read as zero. -/
theorem ofRatio_eq_zero {num den : Nat} (h : 2 * (num * twoTo 1074) < den) (negative : Bool) :
    ofRatio negative num den = ofMagnitude negative 0 := by
  have hdiv : num * twoTo 1074 / den = 0 := Nat.div_eq_of_lt (by omega)
  have hone : twoTo 0 = 1 := rfl
  have hround : roundDiv (num * twoTo 1074) den = 0 :=
    Decimal.roundDiv_eq (by omega) (by omega)
  simp [ofRatio, hdiv, hone, hround]

/-- A quotient beyond the finite numbers is read as an infinity. -/
theorem ofRatio_eq_infinity {num den k : Nat} (hden : 0 < den) (hk : 1025 ≤ k)
    (h : 2 ^ k * den ≤ num) (negative : Bool) : ofRatio negative num den = infinity negative := by
  have hle : 2 ^ (k + 1074) ≤ num * twoTo 1074 / den := by
    rw [Nat.le_div_iff_mul_le hden, Decimal.twoTo_eq, pow_add, Nat.mul_right_comm]
    exact Nat.mul_le_mul_right _ h
  have hne : num * twoTo 1074 / den ≠ 0 := (lt_of_lt_of_le (Nat.two_pow_pos _) hle).ne'
  have hlog : k + 1074 ≤ (num * twoTo 1074 / den).log2 := (Nat.le_log2 hne).2 hle
  have hscale : infiniteMagnitude ≤ ((num * twoTo 1074 / den).log2 - 52) * twoTo 52 :=
    Nat.mul_le_mul_right _ (by omega)
  simp only [ofRatio, infinity, Nat.min_eq_left (hscale.trans (Nat.le_add_right _ _))]

/-- Three binary digits are less than a decimal one. -/
theorem two_pow_le_ten_pow {m k : Nat} (h : m ≤ 3 * k) : 2 ^ m ≤ 10 ^ k := by
  calc 2 ^ m ≤ 2 ^ (3 * k) := Nat.pow_le_pow_right (by decide) h
    _ = (2 ^ 3) ^ k := pow_mul 2 3 k
    _ ≤ 10 ^ k := Nat.pow_le_pow_left (by decide) k

/-- A number has no more decimal digits than a third of its binary ones, and one more. -/
theorem lt_tenTo_log2 (n : Nat) : n < 10 ^ (n.log2 / 3 + 1) := by
  calc n < 2 ^ (n.log2 + 1) := Nat.lt_log2_self
    _ ≤ 10 ^ (n.log2 / 3 + 1) := two_pow_le_ten_pow (by omega)

/-- **A decimal is read as the quotient that it denotes.**  The exponents that are answered at once
are no exception. -/
theorem ofDecimal_eq_ofRatio (negative : Bool) (digits : Nat) (e : Int) :
    ofDecimal negative digits e =
      ofRatio negative (digits * tenTo e.toNat) (tenTo (-e).toNat) := by
  unfold ofDecimal
  split
  · next h =>
    subst h
    rw [Nat.zero_mul, ofRatio_eq_zero (by simpa using tenTo_pos _)]
  · next hdigits =>
    split
    · next hlarge =>
      have hzero : (-e).toNat = 0 := by omega
      rw [hzero, ofRatio_eq_infinity (tenTo_pos 0) (k := 3 * e.toNat) (by omega)]
      calc 2 ^ (3 * e.toNat) * tenTo 0 = 2 ^ (3 * e.toNat) := Nat.mul_one _
        _ ≤ tenTo e.toNat := two_pow_le_ten_pow (Nat.le_refl _)
        _ ≤ digits * tenTo e.toNat := Nat.le_mul_of_pos_left _ (by omega)
    · split
      · next hsmall =>
        have hzero : e.toNat = 0 := by omega
        rw [hzero, ofRatio_eq_zero]
        obtain ⟨k, hk⟩ : ∃ k, (-e).toNat = (digits.log2 / 3 + 1) + (400 + k) :=
          ⟨(-e).toNat - (digits.log2 / 3 + 1) - 400, by omega⟩
        have htwo : 2 * twoTo 1074 ≤ 10 ^ (400 + k) := by
          rw [Decimal.twoTo_eq, ← pow_succ']
          exact two_pow_le_ten_pow (by omega)
        have hone : tenTo 0 = 1 := rfl
        have hpos : 0 < 2 * twoTo 1074 := Nat.mul_pos (by decide) (twoTo_pos _)
        rw [hk, hone, Decimal.tenTo_eq, pow_add, Nat.mul_one]
        calc 2 * (digits * twoTo 1074) = digits * (2 * twoTo 1074) := Nat.mul_left_comm _ _ _
          _ < 10 ^ (digits.log2 / 3 + 1) * (2 * twoTo 1074) :=
              Nat.mul_lt_mul_of_pos_right (lt_tenTo_log2 digits) hpos
          _ ≤ 10 ^ (digits.log2 / 3 + 1) * 10 ^ (400 + k) := Nat.mul_le_mul_left _ htwo
      · split
        · next hpos =>
          have hzero : (-e).toNat = 0 := by omega
          rw [hzero]
          rfl
        · next hneg =>
          have hzero : e.toNat = 0 := by omega
          have hone : tenTo 0 = 1 := rfl
          rw [hzero, hone, Nat.mul_one]

/-- The quotient that a decimal denotes. -/
theorem decimal_eq_quotient (digits : Nat) (e : Int) :
    (digits : ℚ) * 10 ^ e =
      ((digits * tenTo e.toNat : Nat) : ℚ) / ((tenTo (-e).toNat : Nat) : ℚ) := by
  simp only [Decimal.tenTo_eq, Nat.cast_mul, Nat.cast_pow, Nat.cast_ofNat]
  rcases Int.le_total 0 e with h | h
  · obtain ⟨n, rfl⟩ := Int.eq_ofNat_of_zero_le h
    simp
  · obtain ⟨n, hn⟩ := Int.eq_ofNat_of_zero_le (Int.neg_nonneg_of_nonpos h)
    obtain rfl : e = -(n : Int) := by omega
    simp [div_eq_mul_inv]

/-- A decimal near a number is read as it. -/
theorem ofDecimal_eq_of_near {x : Binary64} (hfin : x.isFinite = true) {digits : Nat} {e : Int}
    (hnear : 2 ^ 54 * |(digits : ℚ) * 10 ^ e - x.absValue| < x.absValue) :
    ofDecimal x.negative digits e = x := by
  rw [decimal_eq_quotient] at hnear
  rw [ofDecimal_eq_ofRatio]
  exact ofRatio_eq_of_near hfin (tenTo_pos _) hnear

/-- Equal decimals are read alike. -/
theorem ofDecimal_congr {digits digits' : Nat} {e e' : Int}
    (h : (digits : ℚ) * 10 ^ e = digits' * 10 ^ e') (negative : Bool) :
    ofDecimal negative digits e = ofDecimal negative digits' e' := by
  rw [ofDecimal_eq_ofRatio, ofDecimal_eq_ofRatio]
  apply ofRatio_congr (tenTo_pos _) (tenTo_pos _)
  rw [decimal_eq_quotient, decimal_eq_quotient,
    div_eq_div_iff (by exact_mod_cast (tenTo_pos _).ne') (by exact_mod_cast (tenTo_pos _).ne')] at h
  exact_mod_cast h

end Binary64

end PagePlan
