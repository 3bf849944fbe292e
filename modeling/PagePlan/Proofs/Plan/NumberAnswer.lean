/-
# Numbers that queries answer with

A query may answer with a number.  It is put into words first, a whole one in its digits and any
other in its shortest decimal, and the words are then read as a text of the page would be: the
characters that no number has are dropped.  An exponent does not survive that.  Only numbers below
`0.0001` are written with one, since a number that is not whole is below `2 ^ 53`, and of these the
digits are read with the point after the first one.

* `extractPrimitive_number` — what a field of numbers and a field of whole numbers give for a
  finite number.
-/
import PagePlan.Proofs.Decimal.Whole
import PagePlan.Proofs.Plan.Numeral

namespace PagePlan

namespace Numeral

/-! ### Texts that are scanned -/

theorem isNumberChar_of_isDigit {c : Char} (h : c.isDigit = true) : isNumberChar c = true := by
  simp [isNumberChar, isIntegerChar, h]

theorem isNumberChar_eq_false_of_isBlank {c : Char} (h : Text.isBlank c = true) :
    isNumberChar c = false := by
  rw [Bool.eq_false_iff]
  intro hc
  have hnone : decimalChars.all (fun c => !Text.isBlank c) = true := by decide
  have hc := List.all_eq_true.1 hnone c (mem_decimalChars_iff.2 hc)
  rw [h] at hc
  cases hc

/-- Digits, a point and digits are scanned as what stands before and after the point. -/
theorem leadingNumeral?_point {whole places rest : List Char}
    (hwhole : ∀ c ∈ whole, c.isDigit = true) (hne : whole ≠ [])
    (hplaces : ∀ c ∈ places, c.isDigit = true) (hrest : ∀ c ∈ rest.head?, c.isDigit = false) :
    leadingNumeral? (whole ++ '.' :: (places ++ rest)) = some (whole, places) := by
  have htake : (whole ++ '.' :: (places ++ rest)).takeWhile Char.isDigit = whole :=
    takeWhile_append_of_digits hwhole (by simp)
  have hdrop : (whole ++ '.' :: (places ++ rest)).dropWhile Char.isDigit =
      '.' :: (places ++ rest) := by
    rw [List.dropWhile_append_of_pos hwhole]
    rfl
  simp [leadingNumeral?, htake, hdrop, takeWhile_append_of_digits hplaces hrest, hne]

/-- Digits without a point are scanned as they are. -/
theorem leadingNumeral?_whole {whole rest : List Char} (hwhole : ∀ c ∈ whole, c.isDigit = true)
    (hne : whole ≠ []) (hrest : ∀ c ∈ rest.head?, c.isDigit = false ∧ c ≠ '.') :
    leadingNumeral? (whole ++ rest) = some (whole, []) := by
  have htake : (whole ++ rest).takeWhile Char.isDigit = whole :=
    takeWhile_append_of_digits hwhole fun c hc => (hrest c hc).1
  have hdrop : (whole ++ rest).dropWhile Char.isDigit = rest := by
    rw [List.dropWhile_append_of_pos hwhole]
    cases rest with
    | nil => rfl
    | cons c rest => simp [(hrest c (by simp)).1]
  unfold leadingNumeral?
  simp only [htake, hdrop]
  split
  · exact absurd rfl (hrest '.' (by simp)).2
  · simp [hne]

theorem toNumber_splitDash (raw : String) : toNumber raw =
    match leadingNumeral? (splitDash (raw.toList.filter isNumberChar)).2 with
    | none => .zero
    | some (whole, places) => .ofDecimal (splitDash (raw.toList.filter isNumberChar)).1
        (Decimal.toNat (whole ++ places)) (-(places.length : Int)) := rfl

/-- A text whose kept characters are a sign and a numeral is read as the decimal. -/
theorem toNumber_eq {raw : String} {negative : Bool} {s whole places : List Char}
    (hkept : raw.toList.filter isNumberChar = dash negative ++ s) (hs : ∀ c ∈ s.head?, c ≠ '-')
    (hscan : leadingNumeral? s = some (whole, places)) :
    toNumber raw =
      .ofDecimal negative (Decimal.toNat (whole ++ places)) (-(places.length : Int)) := by
  have hsplit : splitDash (dash negative ++ s) = (negative, s) := by
    cases negative with
    | true => rfl
    | false =>
      show splitDash s = (false, s)
      unfold splitDash
      split
      · exact absurd rfl (hs '-' (by simp))
      · rfl
  rw [toNumber_splitDash, hkept, hsplit, hscan]

end Numeral

/-! ### Texts of numbers -/

namespace Numeral

variable {x : Binary64} {raw : String}

theorem filter_signChars (x : Binary64) :
    x.signChars.filter isNumberChar = dash x.negative := by
  unfold Binary64.signChars dash
  split <;> rfl

/-- The text of a number in positional notation is read as the number. -/
theorem toNumber_of_positional (hfin : x.isFinite = true) (hzero : x.isZero = false)
    (hlow : -4 < x.shortestPoint) (hlimit : x.shortestPoint ≤ 16)
    (hraw : raw.toList.filter isNumberChar = x.text.toList.filter isNumberChar) :
    toNumber raw = x := by
  obtain ⟨whole, places, hsplits⟩ := Decimal.Layout.place_positional
    (fun _ => Binary64.isDigit_of_mem_shortestDigits) (Binary64.shortestDigits_ne_nil hfin hzero)
    (Binary64.head_shortestDigits hfin hzero) (l := Decimal.numberLayout) rfl hlow hlimit
  have hkept : raw.toList.filter isNumberChar =
      dash x.negative ++ (whole ++ '.' :: (places ++ [])) := by
    have hall : ∀ c ∈ whole ++ '.' :: places, isNumberChar c = true := by
      intro c hc
      simp only [List.mem_append, List.mem_cons] at hc
      rcases hc with hc | rfl | hc
      · exact isNumberChar_of_isDigit (hsplits.isWhole.digits c hc)
      · rfl
      · exact isNumberChar_of_isDigit (hsplits.isDigit c hc)
    rw [hraw, Binary64.text, Binary64.write_of_isFinite _ hfin hzero, hsplits.text_eq,
      List.filter_append, filter_signChars, List.filter_eq_self.2 hall, List.append_nil]
  have hhead : ∀ c ∈ (whole ++ '.' :: (places ++ [])).head?, c ≠ '-' := by
    obtain ⟨d, ds, rfl⟩ := List.exists_cons_of_ne_nil hsplits.isWhole.ne_nil
    have hd := hsplits.isWhole.digits d List.mem_cons_self
    rintro c hc rfl
    obtain rfl : d = '-' := by simpa using hc
    exact absurd hd (by decide)
  rw [toNumber_eq hkept hhead (leadingNumeral?_point hsplits.isWhole.digits hsplits.isWhole.ne_nil
    hsplits.isDigit (by simp)), Binary64.ofDecimal_congr hsplits.value_eq]
  exact Binary64.ofDecimal_shortestDigits hfin hzero

/-- Of a number below `0.0001` the digits are read with the point after the first one. -/
theorem toNumber_of_exponent (hfin : x.isFinite = true) (hzero : x.isZero = false)
    (hlow : x.shortestPoint ≤ -4)
    (hraw : raw.toList.filter isNumberChar = x.text.toList.filter isNumberChar) :
    toNumber raw = .ofDecimal x.negative x.shortest.digits
      (1 - ((Decimal.ofNat x.shortest.digits).length : Int)) := by
  obtain ⟨d, places, hds⟩ :=
    List.exists_cons_of_ne_nil (Binary64.shortestDigits_ne_nil hfin hzero)
  have hall : ∀ c ∈ d :: places, c.isDigit = true := by
    rw [← hds]
    exact fun _ => Binary64.isDigit_of_mem_shortestDigits
  have hd : ∀ c ∈ [d], c.isDigit = true := by simpa using hall d List.mem_cons_self
  have hplaces : ∀ c ∈ places, c.isDigit = true :=
    fun c hc => hall c (List.mem_cons_of_mem d hc)
  -- the letter before the exponent is dropped, and the dash after it ends the numeral
  obtain ⟨tail, htail⟩ : ∃ tail, (Decimal.exponentText Decimal.numberLayout.exponentWidth
      (x.shortestPoint - 1)).filter isNumberChar = '-' :: tail := by
    rw [Decimal.exponentText, if_pos (by omega)]
    exact ⟨_, rfl⟩
  have hkept : raw.toList.filter isNumberChar =
      dash x.negative ++ (d :: (Decimal.Layout.pointText places ++ '-' :: tail)) := by
    have hpoint : (Decimal.Layout.pointText places).filter isNumberChar =
        Decimal.Layout.pointText places := by
      refine List.filter_eq_self.2 fun c hc => ?_
      unfold Decimal.Layout.pointText at hc
      split at hc
      · cases hc
      · rcases List.mem_cons.1 hc with rfl | hc
        · rfl
        · exact isNumberChar_of_isDigit (hplaces c hc)
    have hlayout : ¬(Decimal.numberLayout.lowest < x.shortestPoint ∧
        x.shortestPoint ≤ Decimal.numberLayout.limit) := by
      rintro ⟨h, -⟩
      exact absurd h (Int.not_lt.2 hlow)
    have he : isNumberChar 'e' = false := rfl
    rw [hraw, Binary64.text, Binary64.write_of_isFinite _ hfin hzero, hds,
      Decimal.Layout.place_exponent hlayout, List.filter_append, ← List.cons_append,
      List.filter_append, List.filter_cons_of_pos (isNumberChar_of_isDigit (hd d (by simp))),
      hpoint, List.filter_cons_of_neg (by simp [he]), htail, filter_signChars, List.cons_append]
  have hhead : ∀ c ∈ (d :: (Decimal.Layout.pointText places ++ '-' :: tail)).head?, c ≠ '-' := by
    rintro c hc rfl
    obtain rfl : d = '-' := by simpa using hc
    exact absurd (hd '-' (by simp)) (by decide)
  have hscan : leadingNumeral? (d :: (Decimal.Layout.pointText places ++ '-' :: tail)) =
      some ([d], places) := by
    unfold Decimal.Layout.pointText
    split
    · next hnil =>
      rw [hnil]
      exact leadingNumeral?_whole hd (by simp) (by simp)
    · exact leadingNumeral?_point hd (by simp) hplaces (by simp)
  rw [toNumber_eq hkept hhead hscan]
  apply Binary64.ofDecimal_congr
  have hmul := x.shortestDigits_mul
  rw [hds, Binary64.shortestPoint, List.length_cons] at hmul
  have hten : (10 : ℚ) ≠ 0 := by norm_num
  obtain ⟨n, hn⟩ : ∃ n, n = (Decimal.ofNat x.shortest.digits).length := ⟨_, rfl⟩
  rw [← hn] at hmul ⊢
  rw [List.singleton_append]
  obtain ⟨k, hk⟩ : ∃ k, k = 1 - (n : ℤ) - x.shortest.exponent := ⟨_, rfl⟩
  have hleft : -(places.length : ℤ) =
      (n : ℤ) + x.shortest.exponent - (places.length + 1 : ℕ) + k := by omega
  have hright : (1 : ℤ) - n = x.shortest.exponent + k := by omega
  rw [hleft, hright, zpow_add₀ hten, zpow_add₀ hten x.shortest.exponent, ← mul_assoc, ← mul_assoc,
    hmul]

end Numeral

/-! ### What fields give -/

namespace Answer

open Numeral

variable {x : Binary64}

/-- Trimming changes nothing of what is kept of the words for a number. -/
theorem filter_strip_numberText {q : Char → Bool} (hq : ∀ c, isNumberChar c = false → q c = false) :
    (Text.strip (numberText x)).toList.filter q = (numberText x).toList.filter q := by
  rw [Text.strip, String.toList_ofList]
  exact Text.filter_trim (fun c hc => hq c (isNumberChar_eq_false_of_isBlank hc)) _

theorem numberText_of_isWhole (h : x.isWhole = true) :
    (numberText x).toList = Decimal.ofInt x.truncate := by
  rw [numberText, if_pos h, String.toList_ofList]

theorem filter_numberText_of_not_isWhole (h : x.isWhole = false) :
    (Text.strip (numberText x)).toList.filter isNumberChar =
      x.text.toList.filter isNumberChar := by
  rw [filter_strip_numberText fun _ => id, numberText, h]
  rfl

/-- A whole number is read from its words as it is. -/
theorem toInteger_numberText (hwhole : x.isWhole = true) :
    toInteger (Text.strip (numberText x)) = .ok x.truncate := by
  have hfin : x.isFinite = true := (Bool.and_eq_true _ _ ▸ hwhole : _ ∧ _).1
  have hclass (c : Char) (hc : isNumberChar c = false) : decide (c ∈ wholeChars) = false := by
    rw [decide_eq_false_iff_not]
    intro hmem
    rw [mem_decimalChars_iff.1 (List.mem_cons_of_mem _ hmem)] at hc
    cases hc
  have hkept : (Text.strip (numberText x)).toList.filter (· ∈ wholeChars) =
      Decimal.ofInt x.truncate := by
    rw [filter_strip_numberText hclass, numberText_of_isWhole hwhole]
    exact List.filter_eq_self.2 fun c hc => decide_eq_true (mem_wholeChars_of_mem_ofInt hc)
  have hread := toInteger_eq hkept
  rw [leadingInteger_ofInt] at hread
  rw [hread ((Binary64.length_ofNat_truncate_le hfin).trans (by decide)), Decimal.toNat_ofNat,
    withSign_natAbs]

/-- The same number is read from its digits as a number. -/
theorem same_toNumber_of_isWhole (hwhole : x.isWhole = true) :
    (toNumber (Text.strip (numberText x))).same x = true := by
  have hall : ∀ c ∈ Decimal.ofInt x.truncate, isNumberChar c = true := fun c hc =>
    mem_decimalChars_iff.1 (List.mem_cons_of_mem _ (mem_wholeChars_of_mem_ofInt hc))
  have hdigits : ∀ c ∈ Decimal.ofNat x.truncate.natAbs, c.isDigit = true :=
    fun _ => Decimal.isDigit_of_mem_ofNat
  have hkept : (Text.strip (numberText x)).toList.filter isNumberChar =
      dash (decide (x.truncate < 0)) ++ (Decimal.ofNat x.truncate.natAbs ++ []) := by
    rw [filter_strip_numberText fun _ => id, numberText_of_isWhole hwhole,
      List.filter_eq_self.2 hall, dash_append_ofNat, List.append_nil]
  have hhead : ∀ c ∈ (Decimal.ofNat x.truncate.natAbs ++ []).head?, c ≠ '-' := by
    rw [List.append_nil]
    rintro c hc rfl
    exact absurd (hdigits '-' (List.mem_of_mem_head? hc)) (by decide)
  rw [toNumber_eq hkept hhead (leadingNumeral?_whole hdigits (Decimal.ofNat_ne_nil _) (by simp)),
    List.append_nil, Decimal.toNat_ofNat, List.length_nil, Nat.cast_zero, neg_zero]
  exact Binary64.same_ofDecimal_truncate hwhole

/-- Zero and the numbers from `0.0001` up are read from their words as they are. -/
theorem same_toNumber_numberText (hfin : x.isFinite = true)
    (h : x.isZero = true ∨ 1 / 10 ^ 4 ≤ x.absValue) :
    (toNumber (Text.strip (numberText x))).same x = true := by
  cases hwhole : x.isWhole with
  | true => exact same_toNumber_of_isWhole hwhole
  | false =>
    have hzero : x.isZero = false := by
      by_contra hzero
      rw [Binary64.isWhole_of_isZero hfin (by simpa using hzero)] at hwhole
      cases hwhole
    have hlow := (Binary64.lt_shortestPoint_iff hfin hzero).2 (h.resolve_left (by simp [hzero]))
    rw [Binary64.same_iff_of_isFinite hfin hzero]
    exact toNumber_of_positional hfin hzero hlow (Binary64.shortestPoint_le hfin hwhole)
      (filter_numberText_of_not_isWhole hwhole)

/-- The words for a hundred-thousandth are read as one. -/
example : toNumber "1e-05" = .one := by decide +kernel

/-- Of the other numbers the digits are read with the point after the first one. -/
theorem toNumber_numberText_of_lt (hfin : x.isFinite = true) (hzero : x.isZero = false)
    (hsmall : x.absValue < 1 / 10 ^ 4) :
    toNumber (Text.strip (numberText x)) = .ofDecimal x.negative x.shortest.digits
      (1 - ((Decimal.ofNat x.shortest.digits).length : Int)) := by
  have hwhole : x.isWhole = false := by
    by_contra h
    have hone := Binary64.one_le_absValue (by simpa using h) hzero
    have hlarge : (1 : ℚ) / 10 ^ 4 < 1 := by norm_num
    exact absurd hone (not_le.2 (hsmall.trans hlarge))
  have hlow : ¬-4 < x.shortestPoint :=
    fun h => absurd ((Binary64.lt_shortestPoint_iff hfin hzero).1 h) (not_le.2 hsmall)
  exact toNumber_of_exponent hfin hzero (Int.not_lt.1 hlow)
    (filter_numberText_of_not_isWhole hwhole)

end Answer

namespace Evaluator

variable {γ : Type} {ev : Evaluator γ}

/-- A number that is answered is put into words, trimmed and coerced. -/
theorem extractPrimitive_of_number {c : γ} {p : Primitive} {x : Binary64}
    (h : (ev.answer c p.xpath).outcome = .ok (.number x)) :
    (ev.extractPrimitive c p).outcome = coerce (Text.strip (Answer.numberText x)) p.type := by
  rw [extractPrimitive_outcome h]
  rfl

/-- **What fields give for a finite number.**  A field of numbers gives the number itself, up to the
sign of a zero, if it is zero or no less than `0.0001`.  Of a smaller one, which is written with an
exponent, it gives the digits with the point after the first one.  A field of whole numbers gives a
whole number as it is. -/
theorem extractPrimitive_number {c : γ} {q : String} {x : Binary64}
    (h : (ev.answer c q).outcome = .ok (.number x)) (hfin : x.isFinite = true)
    (transform : Option String) :
    (∃ y, (ev.extractPrimitive c ⟨q, .number, transform⟩).outcome = .ok (.float y) ∧
      (y.same x = true ↔ x.isZero = true ∨ 1 / 10 ^ 4 ≤ |x.value|) ∧
      (x.isZero = false → |x.value| < 1 / 10 ^ 4 → y = .ofDecimal x.negative x.shortest.digits
        (1 - ((Decimal.ofNat x.shortest.digits).length : Int)))) ∧
    (x.isWhole = true → ∃ n : Int, x.value = n ∧
      (ev.extractPrimitive c ⟨q, .integer, transform⟩).outcome = .ok (.int n)) := by
  rw [extractPrimitive_of_number h, extractPrimitive_of_number h, Binary64.abs_value]
  have hmisread := Answer.toNumber_numberText_of_lt hfin
  refine ⟨⟨_, rfl, ⟨fun hsame => ?_, Answer.same_toNumber_numberText hfin⟩, hmisread⟩,
    fun hwhole => ⟨x.truncate, Binary64.value_of_isWhole hwhole, ?_⟩⟩
  · by_contra hnot
    rw [not_or, Bool.not_eq_true, not_le] at hnot
    obtain ⟨hzero, hsmall⟩ := hnot
    rw [hmisread hzero hsmall, Binary64.same_iff_of_isFinite hfin hzero] at hsame
    exact Binary64.ofDecimal_ne_of_lt hfin hzero hsmall hsame
  · rw [coerce, Answer.toInteger_numberText hwhole]
    rfl

/-- An evaluator that answers every query with a hundred-thousandth. -/
def tiny : Evaluator Unit where
  answer _ _ := return .number (.ofDecimal false 1 (-5))
  isElement _ := false
  textOf _ := ""

/-- A field of numbers gives another number for a hundred-thousandth. -/
theorem extractPrimitive_tiny :
    (tiny.answer () "1 div 100000").outcome = .ok (.number (.ofDecimal false 1 (-5))) ∧
    (Binary64.ofDecimal false 1 (-5)).isFinite = true ∧
    ∃ y, (tiny.extractPrimitive () ⟨"1 div 100000", .number, none⟩).outcome = .ok (.float y) ∧
      y.same (.ofDecimal false 1 (-5)) = false := by
  have hanswer : (tiny.answer () "1 div 100000").outcome =
      .ok (.number (.ofDecimal false 1 (-5))) := rfl
  have hfin : (Binary64.ofDecimal false 1 (-5)).isFinite = true := by decide +kernel
  have hzero : (Binary64.ofDecimal false 1 (-5)).isZero = false := by decide +kernel
  have hsmall : (Binary64.ofDecimal false 1 (-5)).absValue < 1 / 10 ^ 4 := by
    have hunits : (Binary64.ofDecimal false 1 (-5)).units * 10 ^ 4 < 1 * Decimal.twoTo 1074 := by
      decide +kernel
    rw [Binary64.absValue, div_lt_div_iff₀ Binary64.twoTo_pos_rat (by norm_num)]
    generalize Decimal.twoTo 1074 = t at hunits ⊢
    generalize (Binary64.ofDecimal false 1 (-5)).units = u at hunits ⊢
    exact_mod_cast hunits
  obtain ⟨⟨y, hy, hsame, -⟩, -⟩ := extractPrimitive_number hanswer hfin none
  refine ⟨hanswer, hfin, y, hy, ?_⟩
  rw [hzero, Binary64.abs_value] at hsame
  exact Bool.eq_false_iff.2 fun h => (hsame.1 h).elim Bool.false_ne_true (not_le.2 hsmall)

end Evaluator

end PagePlan
