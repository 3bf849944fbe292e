/-
# Decimals laid out

A shortest decimal is written as digits before a point, digits after it and an exponent, of which
the layout leaves out what it can.  What is written is taken apart here: in positional notation
into the digits on either side of the point, which put together denote the decimal again, and
otherwise into the digits with the point after the first one, and an exponent.  Zeros at the end of
the digits are not written, and are made up for by the exponent.

* `Layout.place_positional`, `Layout.place_exponent` — the two notations.
* `ofDecimal_shortestDigits` — the digits that are written read back.
* `Layout.writes_of_mem_write` — the characters that a number is written with.
-/
import PagePlan.Proofs.Decimal.Shortest

namespace PagePlan

namespace Decimal

/-! ### Runs of digits -/

theorem toNat_append (ds es : List Char) :
    toNat (ds ++ es) = toNat ds * 10 ^ es.length + toNat es := by
  have hfold (n : Nat) : es.foldl (fun n c => 10 * n + digitValue c) n =
      n * 10 ^ es.length + toNat es := by
    induction es generalizing n with
    | nil => simp [toNat]
    | cons e es ih =>
      simp only [toNat, List.foldl_cons, List.length_cons] at ih ⊢
      rw [ih, ih (10 * 0 + digitValue e), pow_succ]
      ring
  rw [toNat, List.foldl_append, hfold]
  rfl

@[simp] theorem toNat_replicate_zero (n : Nat) : toNat (List.replicate n '0') = 0 := by
  induction n with
  | zero => rfl
  | succ n ih => simpa [toNat, List.replicate_succ, digitValue] using ih

theorem digitValue_le (c : Char) : digitValue c ≤ 9 := by
  unfold digitValue
  split
  · next h =>
    have hle : c.toNat ≤ 57 := by
      simp only [Char.isDigit, Bool.and_eq_true, decide_eq_true_eq] at h
      exact UInt32.le_iff_toNat_le.1 h.2
    omega
  · omega

/-- A run of digits denotes less than ten to its length. -/
theorem toNat_lt (ds : List Char) : toNat ds < 10 ^ ds.length := by
  induction ds with
  | nil => simp [toNat]
  | cons d ds ih =>
    have hsplit : toNat (d :: ds) = digitValue d * 10 ^ ds.length + toNat ds := by
      rw [← List.singleton_append, toNat_append]
      simp [toNat]
    have hle : digitValue d * 10 ^ ds.length ≤ 9 * 10 ^ ds.length :=
      Nat.mul_le_mul_right _ (digitValue_le d)
    rw [hsplit, List.length_cons, pow_succ]
    omega

/-- A number has no more digits than any run of digits that denotes it. -/
theorem length_ofNat_toNat_le {ds : List Char} (h : ds ≠ []) :
    (ofNat (toNat ds)).length ≤ ds.length := by
  have hpos : 0 < ds.length := List.length_pos_of_ne_nil h
  rcases Nat.eq_zero_or_pos (toNat ds) with hzero | hn
  · rw [hzero, ofNat]
    exact Nat.succ_le_of_lt hpos
  · have hlow := ten_pow_pred_length_ofNat_le hn
    have hlt : (ofNat (toNat ds)).length - 1 < ds.length :=
      (Nat.pow_lt_pow_iff_right (by decide)).1 (hlow.trans_lt (toNat_lt ds))
    omega

/-- The digits of a number begin with zero only where the number is zero. -/
theorem head_ofNat_ne_zero {n : Nat} (hn : 0 < n) : (ofNat n).head? ≠ some '0' := by
  rw [ofNat]
  split
  · next h =>
    have all : ∀ d, d < 10 → 0 < d → digitChar d ≠ '0' := by decide
    simpa using all n h hn
  · have ih := head_ofNat_ne_zero (n := n / 10) (by omega)
    rw [List.head?_append_of_ne_nil _ (ofNat_ne_nil _)]
    exact ih
termination_by n
decreasing_by omega

/-- Digits before the point, as they are written: a zero stands alone or not at the front. -/
structure IsWhole (ds : List Char) : Prop where
  ne_nil : ds ≠ []
  digits : ∀ c ∈ ds, c.isDigit = true
  leading : ds.head? = some '0' → ds = ['0']

theorem isWhole_ofNat (n : Nat) : IsWhole (ofNat n) where
  ne_nil := ofNat_ne_nil n
  digits _ := isDigit_of_mem_ofNat
  leading h := by
    rcases Nat.eq_zero_or_pos n with rfl | hn
    · rw [ofNat]
      rfl
    · exact absurd h (head_ofNat_ne_zero hn)

/-! ### Zeros at the end -/

/-- What is dropped at the end of a run of digits is zeros. -/
theorem dropFinalZeros_append (ds : List Char) :
    ∃ n, ds = dropFinalZeros ds ++ List.replicate n '0' := by
  obtain ⟨zs, hzs⟩ : ∃ zs, zs = ds.reverse.takeWhile (· == '0') := ⟨_, rfl⟩
  have hzeros : zs = List.replicate zs.length '0' := by
    apply List.eq_replicate_of_mem
    intro c hc
    have hall := List.all_takeWhile (l := ds.reverse) (p := (· == '0'))
    rw [← hzs, List.all_eq_true] at hall
    simpa using hall c hc
  have hsplit : zs ++ ds.reverse.dropWhile (· == '0') = ds.reverse := by
    rw [hzs]
    exact List.takeWhile_append_dropWhile
  refine ⟨zs.length, ?_⟩
  calc ds = (zs ++ ds.reverse.dropWhile (· == '0')).reverse := by rw [hsplit, List.reverse_reverse]
    _ = dropFinalZeros ds ++ zs.reverse := List.reverse_append
    _ = dropFinalZeros ds ++ List.replicate zs.length '0' := by
        rw [hzeros, List.reverse_replicate, List.length_replicate]

/-- The digits of a number without the zeros at the end: how many there are of these tells the
power of ten that the number is divided by. -/
theorem dropFinalZeros_ofNat (n : Nat) :
    ∃ k, n = toNat (dropFinalZeros (ofNat n)) * 10 ^ k ∧
      (ofNat n).length = (dropFinalZeros (ofNat n)).length + k := by
  obtain ⟨k, hk⟩ := dropFinalZeros_append (ofNat n)
  refine ⟨k, ?_, ?_⟩
  · calc n = toNat (ofNat n) := (toNat_ofNat n).symm
      _ = toNat (dropFinalZeros (ofNat n) ++ List.replicate k '0') := by rw [← hk]
      _ = toNat (dropFinalZeros (ofNat n)) * 10 ^ k := by
          rw [toNat_append, toNat_replicate_zero, List.length_replicate, Nat.add_zero]
  · calc (ofNat n).length = (dropFinalZeros (ofNat n) ++ List.replicate k '0').length := by rw [← hk]
      _ = (dropFinalZeros (ofNat n)).length + k := by
          rw [List.length_append, List.length_replicate]

theorem isDigit_of_mem_dropFinalZeros {n : Nat} {c : Char}
    (h : c ∈ dropFinalZeros (ofNat n)) : c.isDigit = true := by
  obtain ⟨k, hk⟩ := dropFinalZeros_append (ofNat n)
  apply isDigit_of_mem_ofNat (n := n)
  rw [hk]
  exact List.mem_append_left _ h

theorem dropFinalZeros_ofNat_ne_nil {n : Nat} (hn : 0 < n) : dropFinalZeros (ofNat n) ≠ [] := by
  intro hnil
  obtain ⟨k, hk, -⟩ := dropFinalZeros_ofNat n
  have hzero : n = 0 := by simpa [hnil, toNat] using hk
  omega

theorem head_dropFinalZeros_ofNat_ne_zero {n : Nat} (hn : 0 < n) :
    (dropFinalZeros (ofNat n)).head? ≠ some '0' := by
  obtain ⟨k, hk⟩ := dropFinalZeros_append (ofNat n)
  rw [← List.head?_append_of_ne_nil _ (dropFinalZeros_ofNat_ne_nil hn), ← hk]
  exact head_ofNat_ne_zero hn

/-! ### Parts -/

theorem isWhole_zero : IsWhole ['0'] :=
  ⟨by simp, by simp, fun _ => rfl⟩

theorem isDigit_of_mem_replicate_zero {n : Nat} {c : Char} (h : c ∈ List.replicate n '0') :
    c.isDigit = true := by
  rw [List.eq_of_mem_replicate h]
  rfl

namespace Layout

variable {l : Layout} {ds : List Char}

/-- The digits on either side of the point in a text, with the exponent that puts them in place:
the text denotes what the digits `ds` with the exponent `e` denote. -/
structure Splits (text ds : List Char) (e : Int) (whole places : List Char) : Prop where
  text_eq : text = whole ++ '.' :: places
  isWhole : IsWhole whole
  isDigit : ∀ c ∈ places, c.isDigit = true
  ne_nil : places ≠ []
  value_eq : (toNat (whole ++ places) : ℚ) * 10 ^ (-(places.length : ℤ)) = toNat ds * 10 ^ e

/-- The point stands before the digits. -/
theorem splits_pointBefore (hds : ∀ c ∈ ds, c.isDigit = true) (hne : ds ≠ []) (n : Nat) :
    Splits ('0' :: '.' :: List.replicate n '0' ++ ds) ds (-(n : ℤ) - ds.length)
      ['0'] (List.replicate n '0' ++ ds) where
  text_eq := rfl
  isWhole := isWhole_zero
  isDigit c hc := (List.mem_append.1 hc).elim isDigit_of_mem_replicate_zero (hds c)
  ne_nil := List.append_ne_nil_of_right_ne_nil _ hne
  value_eq := by
    have hvalue : toNat (['0'] ++ (List.replicate n '0' ++ ds)) = toNat ds := by
      rw [← List.append_assoc, toNat_append]
      simp [← List.replicate_succ]
    have hexponent : -((List.replicate n '0' ++ ds).length : ℤ) = -(n : ℤ) - ds.length := by
      rw [List.length_append, List.length_replicate]
      omega
    rw [hvalue, hexponent]

/-- The point stands behind the digits and some zeros. -/
theorem splits_pointBehind (hds : ∀ c ∈ ds, c.isDigit = true) (hne : ds ≠ [])
    (hhead : ds.head? ≠ some '0') (n : Nat) :
    Splits (ds ++ List.replicate n '0' ++ ['.', '0']) ds n (ds ++ List.replicate n '0') ['0'] where
  text_eq := rfl
  isWhole :=
    { ne_nil := List.append_ne_nil_of_left_ne_nil hne _
      digits := fun c hc => (List.mem_append.1 hc).elim (hds c) isDigit_of_mem_replicate_zero
      leading := fun h => by
        rw [List.head?_append_of_ne_nil _ hne] at h
        exact absurd h hhead }
  isDigit := isWhole_zero.digits
  ne_nil := isWhole_zero.ne_nil
  value_eq := by
    -- the zero behind the point is one more digit, and one more place
    rw [List.append_assoc, ← List.replicate_succ', toNat_append, toNat_replicate_zero,
      List.length_replicate, Nat.add_zero, List.length_singleton]
    push_cast
    rw [zpow_neg_one, zpow_natCast, pow_succ]
    field_simp

/-- The point stands among the digits. -/
theorem splits_pointAmong (hds : ∀ c ∈ ds, c.isDigit = true) (hhead : ds.head? ≠ some '0')
    {n : Nat} (hpos : 0 < n) (hlt : n < ds.length) :
    Splits (ds.take n ++ '.' :: ds.drop n) ds ((n : ℤ) - ds.length) (ds.take n) (ds.drop n) where
  text_eq := rfl
  isWhole :=
    { ne_nil := List.ne_nil_of_length_pos (by rw [List.length_take]; omega)
      digits := fun c hc => hds c (List.mem_of_mem_take hc)
      leading := fun h => by
        rw [List.head?_take, if_neg (by omega)] at h
        exact absurd h hhead }
  isDigit c hc := hds c (List.mem_of_mem_drop hc)
  ne_nil := List.ne_nil_of_length_pos (by rw [List.length_drop]; omega)
  value_eq := by
    have hexponent : -((ds.drop n).length : ℤ) = (n : ℤ) - ds.length := by
      rw [List.length_drop]
      omega
    rw [List.take_append_drop, hexponent]

/-- **In positional notation the digits on either side of the point denote the decimal.** -/
theorem place_positional (hds : ∀ c ∈ ds, c.isDigit = true) (hne : ds ≠ [])
    (hhead : ds.head? ≠ some '0') (hend : l.wholeEnd = ".0") {point : Int}
    (hlow : l.lowest < point) (hlimit : point ≤ l.limit) :
    ∃ whole places, Splits (l.place ds point) ds (point - ds.length) whole places := by
  simp only [place, hlow, hlimit, decide_true, Bool.and_self, if_true]
  split
  · next hpoint =>
    obtain ⟨n, rfl⟩ : ∃ n : Nat, point = -(n : Int) := ⟨(-point).toNat, by omega⟩
    simpa using ⟨_, _, splits_pointBefore hds hne n⟩
  · next hpoint =>
    obtain ⟨n, rfl⟩ : ∃ n : Nat, point = n := ⟨point.toNat, by omega⟩
    rw [Int.toNat_natCast]
    split
    · next hlength =>
      have hexponent : (n : Int) - ds.length = ((n - ds.length : Nat) : Int) := by omega
      rw [hend, hexponent]
      exact ⟨_, _, splits_pointBehind hds hne hhead (n - ds.length)⟩
    · next hlength =>
      exact ⟨_, _, splits_pointAmong hds hhead (by omega) (by omega)⟩

/-- What stands behind the first digit before an exponent. -/
def pointText (places : List Char) : List Char := if places = [] then [] else '.' :: places

/-- **In the other notation the point stands after the first digit.** -/
theorem place_exponent {d : Char} {places : List Char} {point : Int}
    (h : ¬(l.lowest < point ∧ point ≤ l.limit)) :
    l.place (d :: places) point =
      d :: pointText places ++ 'e' :: exponentText l.exponentWidth (point - 1) := by
  have hnot : ¬(decide (l.lowest < point) && decide (point ≤ l.limit)) = true := by
    simpa using h
  cases places with
  | nil => simp only [place, if_neg hnot, pointText, if_true, List.cons_append, List.nil_append]
  | cons p places =>
    rw [place, if_neg hnot, pointText, if_neg (List.cons_ne_nil p places)]

end Layout

end Decimal

namespace Binary64

/-- The shortest decimal of a finite number other than zero is not zero. -/
theorem digits_shortest_pos {x : Binary64} (hfin : x.isFinite = true) (hzero : x.isZero = false) :
    0 < x.shortest.digits := by
  have hvalue := ofDecimal_shortest hfin hzero
  by_contra hnot
  rw [Nat.eq_zero_of_not_pos hnot, ofDecimal, if_pos rfl] at hvalue
  rw [← hvalue, isZero, magnitude_ofMagnitude (Decimal.twoTo_pos 63)] at hzero
  simp at hzero

/-- The digits that are written of a number. -/
def shortestDigits (x : Binary64) : List Char :=
  Decimal.dropFinalZeros (Decimal.ofNat x.shortest.digits)

/-- The place of the point, counted from the front of the digits. -/
def shortestPoint (x : Binary64) : Int :=
  (Decimal.ofNat x.shortest.digits).length + x.shortest.exponent

section Digits

variable {x : Binary64}

theorem isDigit_of_mem_shortestDigits {c : Char} (h : c ∈ x.shortestDigits) :
    c.isDigit = true :=
  Decimal.isDigit_of_mem_dropFinalZeros h

theorem shortestDigits_ne_nil (hfin : x.isFinite = true) (hzero : x.isZero = false) :
    x.shortestDigits ≠ [] :=
  Decimal.dropFinalZeros_ofNat_ne_nil (digits_shortest_pos hfin hzero)

theorem head_shortestDigits (hfin : x.isFinite = true) (hzero : x.isZero = false) :
    x.shortestDigits.head? ≠ some '0' :=
  Decimal.head_dropFinalZeros_ofNat_ne_zero (digits_shortest_pos hfin hzero)

end Digits

/-- The zeros that are dropped are made up for by the exponent. -/
theorem shortestDigits_mul (x : Binary64) :
    (Decimal.toNat x.shortestDigits : ℚ) * 10 ^ (x.shortestPoint - x.shortestDigits.length) =
      x.shortest.digits * 10 ^ x.shortest.exponent := by
  obtain ⟨k, hk, hlength⟩ := Decimal.dropFinalZeros_ofNat x.shortest.digits
  have hexponent : x.shortestPoint - x.shortestDigits.length = k + x.shortest.exponent := by
    rw [shortestPoint, shortestDigits]
    omega
  have hcast : (x.shortest.digits : ℚ) = Decimal.toNat x.shortestDigits * 10 ^ k := by
    exact_mod_cast hk
  rw [hexponent, zpow_add₀ (by norm_num), zpow_natCast, ← mul_assoc, ← hcast]

/-- The digits that are written read back. -/
theorem ofDecimal_shortestDigits {x : Binary64} (hfin : x.isFinite = true)
    (hzero : x.isZero = false) :
    ofDecimal x.negative (Decimal.toNat x.shortestDigits)
      (x.shortestPoint - x.shortestDigits.length) = x :=
  (ofDecimal_congr x.shortestDigits_mul _).trans (ofDecimal_shortest hfin hzero)

/-- The sign of a number as it is written. -/
def signChars (x : Binary64) : List Char := if x.negative = true then ['-'] else []

/-- Zero has no shortest decimal: it is written as the digit, with a sign. -/
theorem write_of_isZero (l : Decimal.Layout) {x : Binary64} (hzero : x.isZero = true) :
    (l.write x).toList = x.signChars ++ '0' :: l.wholeEnd.toList := by
  have hmagnitude : x.magnitude = 0 := by simpa [isZero] using hzero
  have hnan : x.isNaN = false := by simp [isNaN, hmagnitude]
  have hinf : x.isInfinite = false := by
    simp [isInfinite, hmagnitude, infiniteMagnitude, (Decimal.twoTo_pos 52).ne']
  simp [Decimal.Layout.write, hnan, hinf, hzero, signChars]

/-- Any other finite number has the digits of its shortest decimal laid out. -/
theorem write_of_isFinite (l : Decimal.Layout) {x : Binary64} (hfin : x.isFinite = true)
    (hzero : x.isZero = false) :
    (l.write x).toList = x.signChars ++ l.place x.shortestDigits x.shortestPoint := by
  have hmag : x.magnitude < infiniteMagnitude := isFinite_iff.1 hfin
  have hnan : x.isNaN = false := by simp [isNaN, hmag.le]
  have hinf : x.isInfinite = false := by simp [isInfinite, hmag.ne]
  simp [Decimal.Layout.write, hnan, hinf, hzero, signChars, shortestDigits, shortestPoint]

end Binary64

namespace Decimal

/-! ### The characters of a number -/

/-- A character that numbers are written with under a layout. -/
def Layout.Writes (l : Layout) (c : Char) : Prop :=
  c.isDigit = true ∨ c ∈ ['.', '-', '+', 'e'] ∨
    c ∈ l.wholeEnd.toList ++ l.infinity.toList ++ l.nan.toList

theorem Layout.writes_of_mem_exponentText {l : Layout} {width : Nat} {e : Int} {c : Char}
    (h : c ∈ exponentText width e) : l.Writes c := by
  rw [exponentText, List.cons_append, List.mem_cons, List.mem_append, List.mem_replicate] at h
  rcases h with rfl | ⟨-, rfl⟩ | h
  · right; left
    split <;> decide
  · exact .inl rfl
  · exact .inl (isDigit_of_mem_ofNat h)

theorem Layout.writes_of_mem_place {l : Layout} {ds : List Char} (hds : ∀ c ∈ ds, l.Writes c)
    {point : Int} {c : Char} (h : c ∈ l.place ds point) : l.Writes c := by
  have hzero : l.Writes '0' := .inl rfl
  have hpoint : l.Writes '.' := .inr (.inl (by decide))
  have hmark : l.Writes 'e' := .inr (.inl (by decide))
  unfold Layout.place at h
  split at h
  · split at h
    · simp only [List.cons_append, List.mem_cons, List.mem_append, List.mem_replicate] at h
      rcases h with rfl | rfl | ⟨-, rfl⟩ | h
      exacts [hzero, hpoint, hzero, hds c h]
    · split at h
      · simp only [List.mem_append, List.mem_replicate] at h
        rcases h with (h | ⟨-, rfl⟩) | h
        · exact hds c h
        · exact hzero
        · exact .inr (.inr (by simp [h]))
      · simp only [List.mem_append, List.mem_cons] at h
        rcases h with h | rfl | h
        exacts [hds c (List.mem_of_mem_take h), hpoint, hds c (List.mem_of_mem_drop h)]
  · rw [List.mem_append, List.mem_cons] at h
    rcases h with h | rfl | h
    · split at h
      · simp only [List.mem_cons] at h
        rcases h with rfl | rfl | h
        · exact hds _ (by simp)
        · exact hpoint
        · exact hds c (by simp [h])
      · exact hds c h
    · exact hmark
    · exact writes_of_mem_exponentText h

/-- Numbers are written with digits, marks and the names of the numbers that have one. -/
theorem Layout.writes_of_mem_write {l : Layout} {x : Binary64} {c : Char}
    (h : c ∈ (l.write x).toList) : l.Writes c := by
  have hsign {cs : List Char} (hcs : ∀ d ∈ cs, l.Writes d) :
      ∀ d ∈ (if x.negative = true then ['-'] else []) ++ cs, l.Writes d := by
    intro d hd
    rcases List.mem_append.1 hd with hd | hd
    · split at hd
      · obtain rfl := List.mem_singleton.1 hd
        exact .inr (.inl (by decide))
      · cases hd
    · exact hcs d hd
  simp only [Layout.write] at h
  split at h
  · exact .inr (.inr (by simp [h]))
  · split at h
    · rw [String.toList_ofList] at h
      exact hsign (fun d hd => .inr (.inr (by simp [hd]))) c h
    · split at h
      · rw [String.toList_ofList] at h
        refine hsign (fun d hd => ?_) c h
        rcases List.mem_cons.1 hd with rfl | hd
        · exact .inl rfl
        · exact .inr (.inr (by simp [hd]))
      · rw [String.toList_ofList] at h
        refine hsign (fun d hd => writes_of_mem_place (fun e he => ?_) hd) c h
        exact .inl (isDigit_of_mem_dropFinalZeros he)

end Decimal

end PagePlan
