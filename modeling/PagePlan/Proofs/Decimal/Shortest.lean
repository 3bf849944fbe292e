/-
# The shortest decimal reads back

Every grid that is tried is accepted only for a point that reads back, so all that is to be shown
is that some grid is accepted.  On the grid of seventeen digits the nearest point is less than one
part in `2 ^ 54` away from the number, and such a decimal is read as it.

* `ofDecimal_shortest` — the shortest decimal of a finite number other than zero reads back.
-/
import PagePlan.Decimal.Shortest
import PagePlan.Proofs.Decimal.Rounding

namespace PagePlan

namespace Decimal

/-! ### How many digits a number has -/

theorem length_ofNat_pos (n : Nat) : 0 < (ofNat n).length := by
  rw [ofNat]
  split <;> simp

theorem ofNat_ne_nil (n : Nat) : ofNat n ≠ [] :=
  List.ne_nil_of_length_pos (length_ofNat_pos n)

/-- A number is less than ten to the number of its digits. -/
theorem lt_ten_pow_length_ofNat (n : Nat) : n < 10 ^ (ofNat n).length := by
  rw [ofNat]
  split
  · simpa
  · have ih := lt_ten_pow_length_ofNat (n / 10)
    rw [List.length_append, List.length_singleton, pow_succ]
    omega
termination_by n
decreasing_by omega

/-- The first digit of a number other than zero is no zero. -/
theorem ten_pow_pred_length_ofNat_le {n : Nat} (h : 0 < n) :
    10 ^ ((ofNat n).length - 1) ≤ n := by
  rw [ofNat]
  split
  · simpa
  · have ih := ten_pow_pred_length_ofNat_le (n := n / 10) (by omega)
    have hlength : (ofNat (n / 10)).length = (ofNat (n / 10)).length - 1 + 1 :=
      (Nat.sub_add_cancel (length_ofNat_pos _)).symm
    rw [List.length_append, List.length_singleton, Nat.add_sub_cancel, hlength, pow_succ]
    omega
termination_by n
decreasing_by omega

theorem roundDiv_eq_or (num den : Nat) :
    roundDiv num den = num / den ∨ roundDiv num den = num / den + 1 := by
  simp only [roundDiv]
  split
  · exact Or.inl rfl
  · split
    · exact Or.inr rfl
    · split
      · exact Or.inl rfl
      · exact Or.inr rfl

theorem abs_roundDiv_sub_le {den : Nat} (hden : 0 < den) (num : Nat) :
    |(roundDiv num den : ℚ) - num / den| ≤ 1 / 2 := by
  have hd : (0 : ℚ) < den := by exact_mod_cast hden
  obtain ⟨hup, hdown⟩ := roundDiv_near hden num
  have hup' : (2 : ℚ) * (roundDiv num den * den) ≤ 2 * num + den := by exact_mod_cast hup
  have hdown' : (2 : ℚ) * num ≤ 2 * (roundDiv num den * den) + den := by exact_mod_cast hdown
  have hnum : (num : ℚ) / den * den = num := div_mul_cancel₀ _ hd.ne'
  rw [abs_le]
  constructor
  · refine le_of_mul_le_mul_right ?_ hd
    rw [sub_mul, hnum]
    linarith
  · refine le_of_mul_le_mul_right ?_ hd
    rw [sub_mul, hnum]
    linarith

end Decimal

namespace Binary64

open Decimal (twoTo tenTo roundDiv twoTo_pos tenTo_pos)

/-! ### The power of ten above a quotient -/

/-- The power of ten below the one above a quotient is no greater than the quotient. -/
theorem ten_zpow_pred_powerAbove_le {num den : Nat} (hnum : 0 < num) (hden : 0 < den) :
    (10 : ℚ) ^ (powerAbove num den - 1) ≤ num / den := by
  have hn : (0 : ℚ) < num := by exact_mod_cast hnum
  have hd : (0 : ℚ) < den := by exact_mod_cast hden
  unfold powerAbove
  split
  · next hle =>
    obtain ⟨q, hq⟩ : ∃ q, q = num / den := ⟨_, rfl⟩
    have hpos : 0 < q := hq ▸ Nat.div_pos hle hden
    have hlow : 10 ^ ((Decimal.ofNat q).length - 1) ≤ q := Decimal.ten_pow_pred_length_ofNat_le hpos
    have hexp : ((Decimal.ofNat q).length : Int) - 1 = ((Decimal.ofNat q).length - 1 : Nat) := by
      have := Decimal.length_ofNat_pos q
      omega
    rw [← hq, hexp, zpow_natCast, le_div_iff₀ hd]
    have hmul : 10 ^ ((Decimal.ofNat q).length - 1) * den ≤ num :=
      (Nat.mul_le_mul_right den hlow).trans (hq ▸ Nat.div_mul_le_self num den)
    exact_mod_cast hmul
  · next hlt =>
    obtain ⟨i, hi⟩ : ∃ i, i = den / num := ⟨_, rfl⟩
    obtain ⟨k, hk⟩ : ∃ k, (Decimal.ofNat i).length = k + 1 :=
      ⟨_, (Nat.sub_add_cancel (Decimal.length_ofNat_pos i)).symm⟩
    simp only [← hi, hk, Nat.add_sub_cancel]
    split
    · next hexact =>
      have hexp : (2 : Int) - ((k + 1 : Nat) : Int) - 1 = -(k : Int) := by omega
      rw [hexp, hexact, Decimal.tenTo_eq, zpow_neg, zpow_natCast]
      push_cast
      rw [div_mul_eq_div_div, div_self hn.ne', one_div]
    · have hexp : (1 : Int) - ((k + 1 : Nat) : Int) - 1 = -((k + 1 : Nat) : Int) := by omega
      have hhigh : den < 10 ^ (k + 1) * num := by
        rw [← Nat.div_lt_iff_lt_mul hnum, ← hi, ← hk]
        exact Decimal.lt_ten_pow_length_ofNat i
      have hcast : (den : ℚ) ≤ 10 ^ (k + 1) * num := by exact_mod_cast hhigh.le
      rw [hexp, zpow_neg, zpow_natCast, inv_eq_one_div, div_le_div_iff₀ (by positivity) hd]
      linarith

/-- The power of ten above a quotient is greater than the quotient. -/
theorem lt_ten_zpow_powerAbove {num den : Nat} (hnum : 0 < num) (hden : 0 < den) :
    (num : ℚ) / den < 10 ^ powerAbove num den := by
  have hn : (0 : ℚ) < num := by exact_mod_cast hnum
  have hd : (0 : ℚ) < den := by exact_mod_cast hden
  unfold powerAbove
  split
  · have hlt : num < 10 ^ (Decimal.ofNat (num / den)).length * den :=
      (Nat.div_lt_iff_lt_mul hden).1 (Decimal.lt_ten_pow_length_ofNat _)
    rw [zpow_natCast, div_lt_iff₀ hd]
    exact_mod_cast hlt
  · next hlt =>
    obtain ⟨i, hi⟩ : ∃ i, i = den / num := ⟨_, rfl⟩
    obtain ⟨k, hk⟩ : ∃ k, (Decimal.ofNat i).length = k + 1 :=
      ⟨_, (Nat.sub_add_cancel (Decimal.length_ofNat_pos i)).symm⟩
    simp only [← hi, hk, Nat.add_sub_cancel, Decimal.tenTo_eq]
    have hlow : num * 10 ^ k ≤ den := by
      have hpos : 0 < i := hi ▸ Nat.div_pos (by omega) hnum
      have hle := Decimal.ten_pow_pred_length_ofNat_le hpos
      rw [hk, Nat.add_sub_cancel, hi, Nat.le_div_iff_mul_le hnum] at hle
      rwa [Nat.mul_comm]
    have hpow : (0 : ℚ) < 10 ^ k := by positivity
    split
    · next hexact =>
      have hexp : (2 : Int) - ((k + 1 : Nat) : Int) = 1 - (k : Int) := by omega
      rw [hexp, zpow_sub₀ (by norm_num), zpow_one, zpow_natCast, hexact, div_lt_div_iff₀]
      · push_cast
        nlinarith
      · rw [← hexact]
        exact hd
      · exact hpow
    · next hother =>
      have hexp : (1 : Int) - ((k + 1 : Nat) : Int) = -(k : Int) := by omega
      have hcast : (num : ℚ) * 10 ^ k < den := by
        exact_mod_cast lt_of_le_of_ne hlow (Ne.symm hother)
      rw [hexp, zpow_neg, zpow_natCast, inv_eq_one_div, div_lt_div_iff₀ hd hpow]
      linarith

/-! ### The grids -/

/-- The two neighbours in units of the grid: the first one is the nearest integer to a quotient, and
neither is below its integer part. -/
theorem exists_neighbours_quotient {den : Nat} (hden : 0 < den) (num : Nat) (step : Int) :
    ∃ n d : Nat, 0 < d ∧ (num : ℚ) / den = n / d * 10 ^ step ∧
      (neighbours num den step).1 = roundDiv n d ∧ n / d ≤ (neighbours num den step).2 := by
  have hd : (0 : ℚ) < den := by exact_mod_cast hden
  refine ⟨if step < 0 then num * tenTo (-step).toNat else num,
    if step < 0 then den else den * tenTo step.toNat, ?_, ?_, ?_⟩
  · split
    · exact hden
    · exact Nat.mul_pos hden (tenTo_pos _)
  · split
    · next h =>
      obtain ⟨k, rfl⟩ : ∃ k : Nat, step = -(k : Int) := ⟨(-step).toNat, by omega⟩
      simp [Decimal.tenTo_eq]
      field_simp
    · next h =>
      obtain ⟨k, rfl⟩ := Int.eq_ofNat_of_zero_le (Int.not_lt.1 h)
      simp [Decimal.tenTo_eq]
      field_simp
  · simp only [neighbours]
    generalize (if step < 0 then num * tenTo (-step).toNat else num) = n
    generalize (if step < 0 then den else den * tenTo step.toNat) = d
    split
    · next h => exact ⟨h.symm, Nat.le_succ _⟩
    · next h => exact ⟨((Decimal.roundDiv_eq_or _ _).resolve_left h).symm, le_rfl⟩

/-- The first neighbour is the nearest point of the grid. -/
theorem abs_neighbours_fst_sub_le {den : Nat} (hden : 0 < den) (num : Nat) (step : Int) :
    |((neighbours num den step).1 : ℚ) * 10 ^ step - num / den| ≤ 10 ^ step / 2 := by
  obtain ⟨n, d, hdpos, hvalue, hfirst, -⟩ := exists_neighbours_quotient hden num step
  have hstep : (0 : ℚ) < 10 ^ step := zpow_pos (by norm_num) _
  calc |((neighbours num den step).1 : ℚ) * 10 ^ step - num / den|
      = |(roundDiv n d : ℚ) - n / d| * 10 ^ step := by
        rw [hfirst, hvalue, ← sub_mul, abs_mul, abs_of_pos hstep]
    _ ≤ 1 / 2 * 10 ^ step :=
        mul_le_mul_of_nonneg_right (Decimal.abs_roundDiv_sub_le hdpos n) hstep.le
    _ = 10 ^ step / 2 := by ring

/-- What is accepted on a grid reads back. -/
theorem ofDecimal_of_onGrid {x : Binary64} {width : Nat} {s : Decimal.Scientific}
    (h : x.onGrid width = some s) : ofDecimal x.negative s.digits s.exponent = x := by
  simp only [onGrid] at h
  split at h
  · next hread =>
    simp only [Option.some.injEq] at h
    rw [← h, hread]
  · split at h
    · next hread =>
      simp only [Option.some.injEq] at h
      rw [← h, hread]
    · exact absurd h (by simp)

theorem units_pos {x : Binary64} (hzero : x.isZero = false) : 0 < x.units := by
  have hmag : x.magnitude ≠ 0 := by simpa [isZero] using hzero
  have hsig : 0 < x.significand := by
    simp only [significand]
    split
    · omega
    · exact Nat.add_pos_right _ (twoTo_pos 52)
  exact Nat.mul_pos hsig (twoTo_pos _)

/-- Seventeen digits are enough. -/
theorem onGrid_seventeen_isSome {x : Binary64} (hfin : x.isFinite = true)
    (hzero : x.isZero = false) : (x.onGrid 17).isSome = true := by
  have hlow := ten_zpow_pred_powerAbove_le (units_pos hzero) (twoTo_pos 1074)
  obtain ⟨p, hp⟩ : ∃ p, p = powerAbove x.units (twoTo 1074) := ⟨_, rfl⟩
  obtain ⟨step, hstep⟩ : ∃ step, step = p - 17 := ⟨_, rfl⟩
  rw [← hp] at hlow
  have hnear := abs_neighbours_fst_sub_le (twoTo_pos 1074) x.units step
  have hpos : (0 : ℚ) < 10 ^ step := zpow_pos (by norm_num) _
  -- the number has seventeen digits before the end of the grid
  have hbelow : (10 : ℚ) ^ 16 * 10 ^ step ≤ x.absValue := by
    calc (10 : ℚ) ^ 16 * 10 ^ step = 10 ^ (p - 1) := by
          rw [← zpow_natCast, ← zpow_add₀ (by norm_num), hstep]
          congr 1
          push_cast
          ring
      _ ≤ x.absValue := hlow
  have hread : ofDecimal x.negative (neighbours x.units (twoTo 1074) step).1 step = x := by
    apply ofDecimal_eq_of_near hfin
    calc 2 ^ 54 * |((neighbours x.units (twoTo 1074) step).1 : ℚ) * 10 ^ step - x.absValue|
        ≤ 2 ^ 54 * (10 ^ step / 2) := mul_le_mul_of_nonneg_left hnear (by positivity)
      _ < 10 ^ 16 * 10 ^ step := by linarith
      _ ≤ x.absValue := hbelow
  simp [onGrid, ← hp, ← hstep, hread]

/-- Some grid is accepted. -/
theorem exists_onGrid {x : Binary64} (hfin : x.isFinite = true) (hzero : x.isZero = false) :
    ∃ s, (List.range 18).tail.findSome? x.onGrid = some s := by
  rw [← Option.isSome_iff_exists, List.isSome_findSome?]
  exact List.any_eq_true.2 ⟨17, by decide, onGrid_seventeen_isSome hfin hzero⟩

/-- **The shortest decimal of a number reads back as the number.** -/
theorem ofDecimal_shortest {x : Binary64} (hfin : x.isFinite = true) (hzero : x.isZero = false) :
    ofDecimal x.negative x.shortest.digits x.shortest.exponent = x := by
  obtain ⟨s, hs⟩ := exists_onGrid hfin hzero
  obtain ⟨width, -, hwidth⟩ := List.exists_of_findSome?_eq_some hs
  rw [shortest, hs]
  exact ofDecimal_of_onGrid hwidth

/-- Where a quotient has a number of digits before the end of a grid, so have both neighbours. -/
theorem le_length_neighbours {num den width digits : Nat} {step : Int} (hden : 0 < den)
    (hlow : (10 : ℚ) ^ width * 10 ^ step ≤ num / den)
    (h : digits = (neighbours num den step).1 ∨ digits = (neighbours num den step).2) :
    width + 1 ≤ (Decimal.ofNat digits).length := by
  obtain ⟨n, d, hd, hvalue, hfirst, hsecond⟩ := exists_neighbours_quotient hden num step
  have hfloor : n / d ≤ digits := by
    rcases h with h | h
    · rw [h, hfirst]
      rcases Decimal.roundDiv_eq_or n d with h | h <;> omega
    · rw [h]
      exact hsecond
  have hnat : 10 ^ width ≤ n / d := by
    have hstep : (0 : ℚ) < 10 ^ step := zpow_pos (by norm_num) _
    rw [hvalue, mul_le_mul_iff_left₀ hstep, le_div_iff₀ (by exact_mod_cast hd)] at hlow
    rw [Nat.le_div_iff_mul_le hd]
    exact_mod_cast hlow
  exact (Nat.pow_lt_pow_iff_right (by decide)).1
    ((hnat.trans hfloor).trans_lt (Decimal.lt_ten_pow_length_ofNat digits))

/-- What is accepted on a grid has the first digit where the number has it, or further to the
left. -/
theorem powerAbove_le_of_onGrid {x : Binary64} (hzero : x.isZero = false) {width : Nat}
    (hpos : 0 < width) {s : Decimal.Scientific} (h : x.onGrid width = some s) :
    powerAbove x.units (twoTo 1074) ≤ (Decimal.ofNat s.digits).length + s.exponent := by
  obtain ⟨p, hp⟩ : ∃ p, p = powerAbove x.units (twoTo 1074) := ⟨_, rfl⟩
  have hlow := ten_zpow_pred_powerAbove_le (units_pos hzero) (twoTo_pos 1074)
  have hwidth : (10 : ℚ) ^ (width - 1) * 10 ^ (p - (width : ℤ)) ≤ x.units / twoTo 1074 := by
    have hexp : ((width - 1 : ℕ) : ℤ) + (p - width) = p - 1 := by omega
    rw [← zpow_natCast, ← zpow_add₀ (by norm_num), hexp, hp]
    exact hlow
  simp only [onGrid, ← hp] at h ⊢
  split at h
  · obtain rfl := Option.some.inj h
    have hle := le_length_neighbours (twoTo_pos 1074) hwidth (Or.inl rfl)
    dsimp only
    omega
  · split at h
    · obtain rfl := Option.some.inj h
      have hle := le_length_neighbours (twoTo_pos 1074) hwidth (Or.inr rfl)
      dsimp only
      omega
    · cases h

/-- A number is below the power of ten above its shortest decimal. -/
theorem absValue_lt_of_shortest {x : Binary64} (hfin : x.isFinite = true)
    (hzero : x.isZero = false) :
    x.absValue < 10 ^ ((Decimal.ofNat x.shortest.digits).length + x.shortest.exponent) := by
  obtain ⟨s, hs⟩ := exists_onGrid hfin hzero
  obtain ⟨width, hmem, hwidth⟩ := List.exists_of_findSome?_eq_some hs
  have hpos : 0 < width := by
    have all : ∀ w ∈ (List.range 18).tail, 0 < w := by decide
    exact all width hmem
  rw [shortest, hs, Option.getD_some]
  exact (lt_ten_zpow_powerAbove (units_pos hzero) (twoTo_pos 1074)).trans_le
    (zpow_le_zpow_right₀ (by norm_num) (powerAbove_le_of_onGrid hzero hpos hwidth))

end Binary64

end PagePlan
