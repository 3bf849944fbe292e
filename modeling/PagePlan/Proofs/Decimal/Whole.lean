/-
# Whole numbers and where shortest decimals begin

A finite number is whole if its units make whole ones; it is its integer part then, and it is read
from the digits of that part.  Any number that is not whole is below `2 ^ 53`.  With the order of
decimals this tells where the shortest decimal of such a number begins: with sixteen digits before
the point at most, and with no more than three zeros behind it just from `0.0001` up.

* `value_of_isWhole`, `same_ofDecimal_truncate` — whole numbers and their integer parts.
* `shortestPoint_le`, `lt_shortestPoint_iff` — where the shortest decimal of a number begins.
-/
import PagePlan.Proofs.Decimal.Exact
import PagePlan.Proofs.Decimal.Layout

namespace PagePlan

namespace Binary64

variable {x : Binary64}

/-! ### Whole numbers -/

theorem units_lt_of_scale_le {k : Nat} (h : x.scale ≤ k) : x.units < 2 ^ 53 * Decimal.twoTo k := by
  rw [units, Decimal.twoTo_eq, Decimal.twoTo_eq]
  calc x.significand * 2 ^ x.scale < 2 ^ 53 * 2 ^ x.scale :=
        Nat.mul_lt_mul_of_pos_right x.significand_lt (Nat.two_pow_pos _)
    _ ≤ 2 ^ 53 * 2 ^ k := Nat.mul_le_mul_left _ (Nat.pow_le_pow_right (by decide) h)

/-- A number that is not whole is below `2 ^ 53`. -/
theorem absValue_lt_of_not_isWhole (hfin : x.isFinite = true) (hwhole : x.isWhole = false) :
    x.absValue < 2 ^ 53 := by
  have hscale : x.scale ≤ 1074 := by
    by_contra hlt
    have hpow {j k : Nat} (h : j ≤ k) : Decimal.twoTo j ∣ Decimal.twoTo k := Nat.pow_dvd_pow 2 h
    have hdvd : Decimal.twoTo 1074 ∣ x.units :=
      Dvd.dvd.mul_left (hpow (Nat.not_le.1 hlt).le) x.significand
    rw [isWhole, hfin, Nat.mod_eq_zero_of_dvd hdvd] at hwhole
    cases hwhole
  have hunits := units_lt_of_scale_le hscale
  rw [absValue, div_lt_iff₀ twoTo_pos_rat]
  generalize Decimal.twoTo 1074 = t at hunits ⊢
  exact_mod_cast hunits

/-- The integer part without its sign. -/
theorem natAbs_truncate (x : Binary64) : x.truncate.natAbs = x.units / Decimal.twoTo 1074 := by
  rw [truncate]
  split
  · exact Int.natAbs_neg _
  · rfl

/-- A whole number is its integer part. -/
theorem absValue_of_isWhole (h : x.isWhole = true) : x.absValue = x.truncate.natAbs := by
  rw [isWhole, Bool.and_eq_true, beq_iff_eq] at h
  have hmul := Nat.div_mul_cancel (Nat.dvd_of_mod_eq_zero h.2)
  rw [natAbs_truncate, absValue, div_eq_iff twoTo_pos_rat.ne']
  exact_mod_cast hmul.symm

theorem value_of_isWhole (h : x.isWhole = true) : x.value = x.truncate := by
  have habs := absValue_of_isWhole h
  rw [natAbs_truncate] at habs
  rw [value, truncate, habs]
  generalize x.units / Decimal.twoTo 1074 = n
  split <;> simp

/-- A finite number has few digits before the point. -/
theorem length_ofNat_truncate_le (hfin : x.isFinite = true) :
    (Decimal.ofNat x.truncate.natAbs).length ≤ 1077 := by
  obtain ⟨k, hk⟩ : ∃ k, k = 1024 := ⟨_, rfl⟩
  have hscale : x.scale ≤ k + 1074 := by
    have hmag : x.magnitude < 2047 * Decimal.twoTo 52 := isFinite_iff.1 hfin
    have hdiv : x.magnitude / Decimal.twoTo 52 < 2047 :=
      (Nat.div_lt_iff_lt_mul (Decimal.twoTo_pos 52)).2 hmag
    rw [scale]
    omega
  have hunits := units_lt_of_scale_le hscale
  have hlt : x.truncate.natAbs < 2 ^ (53 + k) := by
    rw [natAbs_truncate, Nat.div_lt_iff_lt_mul (Decimal.twoTo_pos 1074)]
    rwa [Decimal.twoTo_eq, pow_add, ← mul_assoc, ← pow_add, ← Decimal.twoTo_eq 1074] at hunits
  rcases Nat.eq_zero_or_pos x.truncate.natAbs with hzero | hpos
  · rw [hzero, Decimal.ofNat, if_pos (by decide)]
    decide
  · have hlow := Decimal.ten_pow_pred_length_ofNat_le hpos
    have hten : 2 ^ (53 + k) ≤ 10 ^ (53 + k) := Nat.pow_le_pow_left (by decide) _
    have hlength := (Nat.pow_lt_pow_iff_right (by decide)).1 (hlow.trans_lt (hlt.trans_le hten))
    omega

theorem isWhole_of_isZero (hfin : x.isFinite = true) (hzero : x.isZero = true) :
    x.isWhole = true := by
  have hmag : x.magnitude = 0 := by simpa [isZero] using hzero
  have hsig : x.significand = 0 := by
    rw [significand, if_pos (hmag ▸ Decimal.twoTo_pos 52), hmag]
  rw [isWhole, hfin, units, hsig, Nat.zero_mul, Nat.zero_mod]
  rfl

theorem absValue_pos (hzero : x.isZero = false) : 0 < x.absValue :=
  div_pos (by exact_mod_cast units_pos hzero) twoTo_pos_rat

theorem natAbs_truncate_pos (hwhole : x.isWhole = true) (hzero : x.isZero = false) :
    0 < x.truncate.natAbs := by
  have hpos := absValue_pos hzero
  rw [absValue_of_isWhole hwhole] at hpos
  exact_mod_cast hpos

/-- Whole numbers other than zero are read from their digits as they are. -/
theorem ofDecimal_truncate (hwhole : x.isWhole = true) (hzero : x.isZero = false) :
    ofDecimal (decide (x.truncate < 0)) x.truncate.natAbs 0 = x := by
  have hfin : x.isFinite = true := (Bool.and_eq_true _ _ ▸ hwhole : _ ∧ _).1
  have habs := absValue_of_isWhole hwhole
  have hsign : decide (x.truncate < 0) = x.negative := by
    have hne := natAbs_truncate_pos hwhole hzero
    rw [natAbs_truncate] at hne
    rw [truncate]
    generalize x.units / Decimal.twoTo 1074 = n at hne ⊢
    cases x.negative
    · simp
    · simpa using hne
  rw [hsign]
  apply ofDecimal_eq_of_near hfin
  rw [zpow_zero, mul_one, habs, sub_self, abs_zero, mul_zero, ← habs]
  exact absValue_pos hzero

/-! ### Where the point of a shortest decimal stands -/

/-- The digits of a shortest decimal with an exponent are no less than the power of ten at which the
first of them stands. -/
theorem ten_zpow_le_digits {k e : Int} (hfin : x.isFinite = true) (hzero : x.isZero = false)
    (hk : k < (Decimal.ofNat x.shortest.digits).length + e) :
    ((1 : ℕ) : ℚ) * 10 ^ k ≤ x.shortest.digits * 10 ^ e := by
  obtain ⟨n, hn⟩ : ∃ n, (Decimal.ofNat x.shortest.digits).length = n + 1 :=
    ⟨_, (Nat.sub_add_cancel (Decimal.length_ofNat_pos _)).symm⟩
  have hlow : 10 ^ n ≤ x.shortest.digits := by
    have h := Decimal.ten_pow_pred_length_ofNat_le (digits_shortest_pos hfin hzero)
    rwa [hn, Nat.add_sub_cancel] at h
  calc ((1 : ℕ) : ℚ) * 10 ^ k = 10 ^ k := by rw [Nat.cast_one, one_mul]
    _ ≤ 10 ^ ((n : ℤ) + e) := zpow_le_zpow_right₀ (by norm_num) (by omega)
    _ = 10 ^ n * 10 ^ e := by rw [zpow_add₀ (by norm_num), zpow_natCast]
    _ ≤ x.shortest.digits * 10 ^ e := by
        refine mul_le_mul_of_nonneg_right ?_ (zpow_nonneg (by norm_num) _)
        exact_mod_cast hlow

/-- A power of ten that is read as a number no less is no greater than a number whose shortest
decimal begins further to the left. -/
theorem le_absValue_of_lt_shortestPoint {k : Int} (hfin : x.isFinite = true)
    (hzero : x.isZero = false) (hpower : (ofDecimal x.negative 1 k).isFinite = true)
    (hle : (10 : ℚ) ^ k ≤ (ofDecimal x.negative 1 k).absValue) (hk : k < x.shortestPoint) :
    (10 : ℚ) ^ k ≤ x.absValue := by
  have hread := ofDecimal_shortest hfin hzero
  have hmono := absValue_ofDecimal_mono (ten_zpow_le_digits hfin hzero hk) hpower
    ((congrArg isFinite hread).trans hfin)
  rw [hread] at hmono
  exact hle.trans hmono

/-- Numbers that are not whole are written with sixteen digits before the point at most. -/
theorem shortestPoint_le (hfin : x.isFinite = true) (hwhole : x.isWhole = false) :
    x.shortestPoint ≤ 16 := by
  have hzero : x.isZero = false := by
    by_contra h
    rw [isWhole_of_isZero hfin (by simpa using h)] at hwhole
    cases hwhole
  by_contra hnot
  have hlarge : 16 < x.shortestPoint := Int.not_le.1 hnot
  have hpower : ∀ negative, (ofDecimal negative 1 16).isFinite = true ∧
      10 ^ 16 * Decimal.twoTo 1074 ≤ (ofDecimal negative 1 16).units := by decide +kernel
  obtain ⟨hfinite, hunits⟩ := hpower x.negative
  have hle : (10 : ℚ) ^ (16 : ℤ) ≤ (ofDecimal x.negative 1 16).absValue := by
    rw [absValue, le_div_iff₀ twoTo_pos_rat]
    generalize Decimal.twoTo 1074 = t at hunits ⊢
    exact_mod_cast hunits
  have hbelow := absValue_lt_of_not_isWhole hfin hwhole
  have habove := le_absValue_of_lt_shortestPoint hfin hzero hfinite hle hlarge
  norm_num at habove hbelow
  linarith

/-- The numbers from `0.0001` up have no zeros but three between the point and the first digit. -/
theorem lt_shortestPoint_iff (hfin : x.isFinite = true) (hzero : x.isZero = false) :
    -4 < x.shortestPoint ↔ 1 / 10 ^ 4 ≤ x.absValue := by
  have hpow : (10 : ℚ) ^ (-4 : ℤ) = 1 / 10 ^ 4 := by norm_num
  constructor
  · intro hpoint
    have hpower : ∀ negative, (ofDecimal negative 1 (-4)).isFinite = true ∧
        Decimal.twoTo 1074 ≤ 10 ^ 4 * (ofDecimal negative 1 (-4)).units := by decide +kernel
    obtain ⟨hfinite, hunits⟩ := hpower x.negative
    have hle : (10 : ℚ) ^ (-4 : ℤ) ≤ (ofDecimal x.negative 1 (-4)).absValue := by
      rw [absValue, hpow, div_le_div_iff₀ (by positivity) twoTo_pos_rat]
      generalize Decimal.twoTo 1074 = t at hunits ⊢
      rw [one_mul, mul_comm]
      exact_mod_cast hunits
    rw [← hpow]
    exact le_absValue_of_lt_shortestPoint hfin hzero hfinite hle hpoint
  · intro hle
    have hlt := absValue_lt_of_shortest hfin hzero
    rw [← hpow] at hle
    exact (zpow_lt_zpow_iff_right₀ (by norm_num)).1 (hle.trans_lt hlt)

/-! ### Sameness -/

/-- Finite numbers are the same if they are one number or both zero. -/
theorem same_iff_of_isFinite (hfin : x.isFinite = true) (hzero : x.isZero = false) (y : Binary64) :
    y.same x = true ↔ y = x := by
  have hnan : x.isNaN = false := by simp [isNaN, (isFinite_iff.1 hfin).le]
  constructor
  · intro h
    simp only [same, hzero, Bool.and_false, Bool.or_false, Bool.and_eq_true, beq_iff_eq] at h
    cases x
    cases y
    exact congrArg _ h.2
  · rintro rfl
    simp [same, hnan]

/-- The digits of a number below `0.0001` with the point after the first one are another number. -/
theorem ofDecimal_ne_of_lt (hfin : x.isFinite = true) (hzero : x.isZero = false)
    (hsmall : x.absValue < 1 / 10 ^ 4) :
    ofDecimal x.negative x.shortest.digits (1 - ((Decimal.ofNat x.shortest.digits).length : Int)) ≠
      x := by
  intro heq
  have hone : ∀ negative, (ofDecimal negative 1 0).isFinite = true ∧
      Decimal.twoTo 1074 ≤ (ofDecimal negative 1 0).units := by decide +kernel
  obtain ⟨hfinite, hunits⟩ := hone x.negative
  have hle : (1 : ℚ) ≤ (ofDecimal x.negative 1 0).absValue := by
    rw [absValue, one_le_div twoTo_pos_rat]
    generalize Decimal.twoTo 1074 = t at hunits ⊢
    exact_mod_cast hunits
  have hmono := absValue_ofDecimal_mono
    (ten_zpow_le_digits (k := 0) hfin hzero (by omega)) hfinite
    ((congrArg isFinite heq).trans hfin)
  rw [heq] at hmono
  have hlarge : (1 : ℚ) / 10 ^ 4 < 1 := by norm_num
  exact absurd (hle.trans hmono) (not_le.2 (hsmall.trans hlarge))

/-- A whole number other than zero is no less than one. -/
theorem one_le_absValue (hwhole : x.isWhole = true) (hzero : x.isZero = false) :
    1 ≤ x.absValue := by
  rw [absValue_of_isWhole hwhole]
  exact_mod_cast natAbs_truncate_pos hwhole hzero

/-- Zero is read as a zero, whatever its sign. -/
theorem same_ofDecimal_zero (hzero : x.isZero = true) :
    (ofDecimal (decide ((0 : Int) < 0)) (0 : Int).natAbs 0).same x = true := by
  have hmag : x.magnitude = 0 := by simpa [isZero] using hzero
  have hnan : x.isNaN = false := by simp [isNaN, hmag]
  have hread : (ofDecimal (decide ((0 : Int) < 0)) (0 : Int).natAbs 0).isZero = true ∧
      (ofDecimal (decide ((0 : Int) < 0)) (0 : Int).natAbs 0).isNaN = false := by decide +kernel
  rw [same, hread.1, hread.2, hzero, hnan]
  simp

/-- Whole numbers are read from their digits, up to the sign of a zero. -/
theorem same_ofDecimal_truncate (hwhole : x.isWhole = true) :
    (ofDecimal (decide (x.truncate < 0)) x.truncate.natAbs 0).same x = true := by
  cases hzero : x.isZero with
  | false =>
    have hfin : x.isFinite = true := (Bool.and_eq_true _ _ ▸ hwhole : _ ∧ _).1
    exact (same_iff_of_isFinite hfin hzero _).2 (ofDecimal_truncate hwhole hzero)
  | true =>
    have habs := absValue_of_isWhole hwhole
    rw [absValue_of_isZero hzero] at habs
    have htruncate : x.truncate = 0 := Int.natAbs_eq_zero.1 (by exact_mod_cast habs.symm)
    rw [htruncate]
    exact same_ofDecimal_zero hzero

end Binary64

end PagePlan
