/-
# Numbers read off a text

A text is coerced to a number in two steps: the characters that no number has are dropped, and the
longest numeral at the front of what is left is converted.  The numerals and what they denote are
said here by a grammar of their own: a whole numeral is digits, maybe after a dash; a decimal one
may have a point behind its digits or in front of them.  A greedy scan finds the longest, because a
numeral can only be prolonged by a character that the scan takes.

* `coerceNamed_reads_numeral` — the number and the whole number that a text is coerced to, and how
  integers with other characters among their digits and integers as they are printed are read.
-/
import PagePlan.Proofs.Decimal.Exact
import PagePlan.Proofs.Json.Number
import PagePlan.Proofs.Plan.Coercion
import PagePlan.Proofs.Plan.Conformance
import Mathlib.Data.Nat.Digits.Defs

namespace PagePlan

namespace Numeral

/-! ### Numerals -/

/-- The decimal digits in the order of their values. -/
def digits : List Char := "0123456789".toList

/-- The characters of whole numerals. -/
def wholeChars : List Char := '-' :: digits

/-- The characters of decimal numerals. -/
def decimalChars : List Char := '.' :: wholeChars

/-- A run of digits, maybe an empty one. -/
def IsRun (ds : List Char) : Prop := ∀ c ∈ ds, c ∈ digits

/-- The number that a run of digits denotes. -/
def valueOf (ds : List Char) : Nat := Nat.ofDigits 10 (ds.reverse.map digits.idxOf)

/-- The value of a run of digits behind a point. -/
def fractionOf (ds : List Char) : ℚ := valueOf ds / 10 ^ ds.length

/-- The whole numerals with the integers that they denote. -/
inductive Whole : List Char → Int → Prop
  | plain {ds : List Char} : IsRun ds → ds ≠ [] → Whole ds (valueOf ds)
  | minus {ds : List Char} : IsRun ds → ds ≠ [] → Whole ('-' :: ds) (-valueOf ds)

/-- The decimal numerals without a sign, with the values that they denote. -/
inductive Unsigned : List Char → ℚ → Prop
  | whole {ds : List Char} : IsRun ds → ds ≠ [] → Unsigned ds (valueOf ds)
  | point {ds ps : List Char} : IsRun ds → ds ≠ [] → IsRun ps →
      Unsigned (ds ++ '.' :: ps) (valueOf ds + fractionOf ps)
  | pointFirst {ps : List Char} : IsRun ps → ps ≠ [] → Unsigned ('.' :: ps) (fractionOf ps)

/-- The decimal numerals with the values that they denote, and whether there is a dash. -/
inductive Signed : List Char → Bool → ℚ → Prop
  | plain {s : List Char} {r : ℚ} : Unsigned s r → Signed s false r
  | minus {s : List Char} {r : ℚ} : Unsigned s r → Signed ('-' :: s) true (-r)

/-- The longest text of a kind at the front of a text. -/
structure IsLongest (Kind : List Char → Prop) (s p : List Char) : Prop where
  kind : Kind p
  front : p <+: s
  longest : ∀ q, Kind q → q <+: s → q.length ≤ p.length

/-- The integer of the longest whole numeral at the front of a text, zero where there is none. -/
def ReadsWhole (s : List Char) (n : Int) : Prop :=
  (∃ p, IsLongest (fun q => ∃ m, Whole q m) s p ∧ Whole p n) ∨
    (∀ p m, p <+: s → ¬Whole p m) ∧ n = 0

/-- The number to which the longest decimal numeral at the front of a text is rounded, zero where
there is none.  A zero has the sign of its numeral. -/
def ReadsDecimal (s : List Char) (x : Binary64) : Prop :=
  (∃ p negative r, IsLongest (fun q => ∃ negative r, Signed q negative r) s p ∧
      Signed p negative r ∧ x.IsRounding r ∧ x.negative = negative) ∨
    (∀ p negative r, p <+: s → ¬Signed p negative r) ∧ x = .zero

/-- A text with other characters than those of whole numerals put in, anywhere and any number of
them. -/
inductive Interspersed (s : List Char) : List Char → Prop
  | same : Interspersed s s
  | insert {before after : List Char} {c : Char} : Interspersed s (before ++ after) →
      c ∉ wholeChars → Interspersed s (before ++ c :: after)

/-! ### Characters and runs of digits -/

theorem mem_digits_iff {c : Char} : c ∈ digits ↔ c.isDigit = true := by
  constructor
  · have all : ∀ c ∈ digits, c.isDigit = true := List.all_eq_true.1 (by decide)
    exact all c
  · intro h
    have all : ∀ n < 58, 48 ≤ n → Char.ofNat n ∈ digits := by decide
    have hrange : 48 ≤ c.toNat ∧ c.toNat ≤ 57 := by
      simp only [Char.isDigit, Bool.and_eq_true, decide_eq_true_eq] at h
      exact ⟨UInt32.le_iff_toNat_le.1 h.1, UInt32.le_iff_toNat_le.1 h.2⟩
    have hmem := all c.toNat (by omega) hrange.1
    rwa [Char.ofNat_toNat] at hmem

theorem isRun_iff {ds : List Char} : IsRun ds ↔ ∀ c ∈ ds, c.isDigit = true := by
  simp only [IsRun, mem_digits_iff]

theorem mem_wholeChars_iff {c : Char} : c ∈ wholeChars ↔ isIntegerChar c = true := by
  rw [wholeChars, List.mem_cons, mem_digits_iff, isIntegerChar]
  simp [or_comm]

theorem mem_decimalChars_iff {c : Char} : c ∈ decimalChars ↔ isNumberChar c = true := by
  rw [decimalChars, List.mem_cons, mem_wholeChars_iff, isNumberChar]
  simp [or_comm]

/-- Both ways to take the value of a run of digits agree. -/
theorem valueOf_eq {ds : List Char} (h : IsRun ds) : valueOf ds = Decimal.toNat ds := by
  induction ds using List.reverseRecOn with
  | nil => rfl
  | append_singleton ds c ih =>
    have hvalue : digits.all (fun c => digits.idxOf c == Decimal.digitValue c) = true := by decide
    have hc : digits.idxOf c = Decimal.digitValue c :=
      beq_iff_eq.1 (List.all_eq_true.1 hvalue c (h c (by simp)))
    have hds := ih fun d hd => h d (List.mem_append_left _ hd)
    rw [valueOf] at hds
    rw [valueOf, List.reverse_append, List.reverse_singleton, List.singleton_append, List.map_cons,
      Nat.ofDigits_cons, hds, hc, Decimal.toNat_append]
    simp only [Decimal.toNat, List.length_singleton, List.foldl_cons, List.foldl_nil]
    omega

/-- Digits before and after a point are read as one run. -/
theorem valueOf_add_fractionOf {ds ps : List Char} (hds : IsRun ds) (hps : IsRun ps) :
    valueOf ds + fractionOf ps =
      (Decimal.toNat (ds ++ ps) : ℚ) * 10 ^ (-(ps.length : ℤ)) := by
  have hten : (10 : ℚ) ^ ps.length ≠ 0 := pow_ne_zero _ (by norm_num)
  rw [fractionOf, valueOf_eq hds, valueOf_eq hps, Decimal.toNat_append, zpow_neg, zpow_natCast,
    ← div_eq_mul_inv, Nat.cast_add, Nat.cast_mul, Nat.cast_pow, add_div, Nat.cast_ofNat,
    mul_div_cancel_right₀ _ hten]

theorem isRun_nil : IsRun [] := by simp [IsRun]

theorem isRun_takeWhile (s : List Char) : IsRun (s.takeWhile Char.isDigit) :=
  isRun_iff.2 (List.all_eq_true.1 List.all_takeWhile)

/-- A run of digits at the front of a text is no longer than the digits at its front. -/
theorem length_le_of_isRun {ds s : List Char} (h : IsRun ds) (hfront : ds <+: s) :
    ds.length ≤ (s.takeWhile Char.isDigit).length := by
  obtain ⟨t, rfl⟩ := hfront
  rw [List.takeWhile_append_of_pos (isRun_iff.1 h), List.length_append]
  omega

/-- A text that begins with a dash begins with no digit. -/
theorem IsRun.ne_dash {ds s : List Char} (h : IsRun ds) (hne : ds ≠ []) :
    ¬ds <+: '-' :: s := by
  obtain ⟨d, ds, rfl⟩ := List.exists_cons_of_ne_nil hne
  intro hfront
  obtain rfl := (List.cons_prefix_cons.1 hfront).1
  exact absurd (h '-' List.mem_cons_self) (by decide)

/-! ### The longest whole numeral -/

/-- A dash, or nothing. -/
def dash (negative : Bool) : List Char := if negative then ['-'] else []

/-- An integer with a sign. -/
def withSign (negative : Bool) (n : Nat) : Int := if negative then -n else n

/-- What is scanned for an integer stands at the front of the text. -/
theorem leadingInteger_front (s : List Char) :
    dash (leadingInteger s).1 ++ (leadingInteger s).2 <+: s := by
  unfold leadingInteger
  split
  · exact List.cons_prefix_cons.2 ⟨rfl, List.takeWhile_prefix _⟩
  · exact List.takeWhile_prefix _

theorem isRun_leadingInteger (s : List Char) : IsRun (leadingInteger s).2 := by
  unfold leadingInteger
  split <;> exact isRun_takeWhile _

/-- Digits that are scanned are a whole numeral with the dash before them. -/
theorem whole_leadingInteger {s : List Char} (hne : (leadingInteger s).2 ≠ []) :
    Whole (dash (leadingInteger s).1 ++ (leadingInteger s).2)
      (withSign (leadingInteger s).1 (Decimal.toNat (leadingInteger s).2)) := by
  have hrun := isRun_leadingInteger s
  rw [← valueOf_eq hrun]
  cases (leadingInteger s).1
  · exact .plain hrun hne
  · exact .minus hrun hne

/-- A whole numeral at the front of a text is scanned, and more if it can be prolonged. -/
theorem length_le_leadingInteger {s q : List Char} {m : Int} (h : Whole q m) (hfront : q <+: s) :
    (leadingInteger s).2 ≠ [] ∧
      q.length ≤ (dash (leadingInteger s).1 ++ (leadingInteger s).2).length := by
  unfold leadingInteger
  cases h with
  | plain hrun hne =>
    split
    · exact absurd hfront (hrun.ne_dash hne)
    · have hle := length_le_of_isRun hrun hfront
      have hpos := List.length_pos_of_ne_nil hne
      exact ⟨List.ne_nil_of_length_pos (hpos.trans_le hle), by simpa [dash] using hle⟩
  | minus hrun hne =>
    split
    · have hle := length_le_of_isRun hrun (List.cons_prefix_cons.1 hfront).2
      have hpos := List.length_pos_of_ne_nil hne
      exact ⟨List.ne_nil_of_length_pos (hpos.trans_le hle), by simpa [dash] using hle⟩
    · next hno =>
      obtain ⟨t, ht⟩ := hfront
      exact absurd ht.symm (hno _)

/-- The scan for an integer finds the longest whole numeral at the front. -/
theorem readsWhole_leadingInteger (s : List Char) :
    ReadsWhole s (withSign (leadingInteger s).1 (Decimal.toNat (leadingInteger s).2)) := by
  by_cases hne : (leadingInteger s).2 = []
  · refine Or.inr ⟨fun p m hfront hp => (length_le_leadingInteger hp hfront).1 hne, ?_⟩
    rw [hne]
    cases (leadingInteger s).1 <;> rfl
  · have hwhole := whole_leadingInteger hne
    refine Or.inl ⟨_, ⟨⟨_, hwhole⟩, leadingInteger_front s, ?_⟩, hwhole⟩
    rintro q ⟨m, hq⟩ hfront
    exact (length_le_leadingInteger hq hfront).2

/-! ### The longest decimal numeral -/

/-- Digits, a point and digits at the front of a text are found by the scan at these places. -/
theorem scan_of_point {ds ps s : List Char} (hds : IsRun ds) (hps : IsRun ps)
    (hfront : ds ++ '.' :: ps <+: s) :
    s.takeWhile Char.isDigit = ds ∧ ∃ rest, s.dropWhile Char.isDigit = '.' :: rest ∧
      ps.length ≤ (rest.takeWhile Char.isDigit).length := by
  obtain ⟨t, rfl⟩ := hfront
  rw [List.append_assoc, List.cons_append]
  refine ⟨takeWhile_append_of_digits (isRun_iff.1 hds) (by simp), ps ++ t, ?_, ?_⟩
  · rw [List.dropWhile_append_of_pos (isRun_iff.1 hds)]
    rfl
  · exact length_le_of_isRun hps (List.prefix_append ps t)

/-- Digits around a point are a numeral, if there are any. -/
theorem unsigned_of_point {ds ps : List Char} (hds : IsRun ds) (hps : IsRun ps)
    (hne : ds ≠ [] ∨ ps ≠ []) :
    Unsigned (ds ++ '.' :: ps) ((Decimal.toNat (ds ++ ps) : ℚ) * 10 ^ (-(ps.length : ℤ))) := by
  rw [← valueOf_add_fractionOf hds hps]
  cases ds with
  | cons d ds => exact .point hds (List.cons_ne_nil d ds) hps
  | nil =>
    have hzero : (valueOf [] : ℚ) = 0 := by simp [valueOf]
    rw [hzero, zero_add]
    exact .pointFirst hps (hne.resolve_left fun h => h rfl)

/-- Where a point follows the digits at the front, the longest numeral goes on to the digits after
it. -/
theorem length_le_of_point {s q rest : List Char} {r : ℚ}
    (htail : s.dropWhile Char.isDigit = '.' :: rest) (h : Unsigned q r) (hfront : q <+: s) :
    (s.takeWhile Char.isDigit ≠ [] ∨ rest.takeWhile Char.isDigit ≠ []) ∧
      q.length ≤ (s.takeWhile Char.isDigit ++ '.' :: rest.takeWhile Char.isDigit).length := by
  cases h with
  | whole hrun hne =>
    have hle := length_le_of_isRun hrun hfront
    refine ⟨Or.inl (List.ne_nil_of_length_pos ((List.length_pos_of_ne_nil hne).trans_le hle)), ?_⟩
    rw [List.length_append]
    omega
  | point hds hne hps =>
    obtain ⟨hwhole, rest', hrest', hle⟩ := scan_of_point hds hps hfront
    obtain rfl := List.tail_eq_of_cons_eq (hrest'.symm.trans htail)
    rw [hwhole]
    refine ⟨Or.inl hne, ?_⟩
    simpa using hle
  | pointFirst hps hne =>
    obtain ⟨hwhole, rest', hrest', hle⟩ := scan_of_point isRun_nil hps hfront
    obtain rfl := List.tail_eq_of_cons_eq (hrest'.symm.trans htail)
    rw [hwhole]
    refine ⟨Or.inr (List.ne_nil_of_length_pos ((List.length_pos_of_ne_nil hne).trans_le hle)), ?_⟩
    simpa using hle

/-- Where no point follows them, the longest numeral is the digits at the front. -/
theorem length_le_of_no_point {s q : List Char} {r : ℚ}
    (htail : ∀ rest, s.dropWhile Char.isDigit ≠ '.' :: rest) (h : Unsigned q r)
    (hfront : q <+: s) :
    s.takeWhile Char.isDigit ≠ [] ∧ q.length ≤ (s.takeWhile Char.isDigit).length := by
  cases h with
  | whole hrun hne =>
    have hle := length_le_of_isRun hrun hfront
    exact ⟨List.ne_nil_of_length_pos ((List.length_pos_of_ne_nil hne).trans_le hle), hle⟩
  | point hds _ hps =>
    obtain ⟨-, rest, hrest, -⟩ := scan_of_point hds hps hfront
    exact absurd hrest (htail rest)
  | pointFirst hps _ =>
    obtain ⟨-, rest, hrest, -⟩ := scan_of_point isRun_nil hps hfront
    exact absurd hrest (htail rest)

/-- What the scan for a number without a sign finds at the front of a text: the longest numeral
with its value, or nothing where there is none. -/
def Scanned (s : List Char) : Option (List Char × List Char) → Prop
  | some (whole, places) => ∃ p, IsLongest (fun q => ∃ r, Unsigned q r) s p ∧
      Unsigned p ((Decimal.toNat (whole ++ places) : ℚ) * 10 ^ (-(places.length : ℤ)))
  | none => ∀ p r, p <+: s → ¬Unsigned p r

theorem scanned_leadingNumeral? (s : List Char) : Scanned s (leadingNumeral? s) := by
  have hds := isRun_takeWhile s
  have hsplit : s.takeWhile Char.isDigit ++ s.dropWhile Char.isDigit = s :=
    List.takeWhile_append_dropWhile
  unfold leadingNumeral?
  split
  · next rest htail =>
    have hps := isRun_takeWhile rest
    dsimp only
    split
    · next hempty =>
      simp only [Bool.and_eq_true, List.isEmpty_iff] at hempty
      intro p r hfront hp
      rcases (length_le_of_point htail hp hfront).1 with h | h
      · exact h hempty.1
      · exact h hempty.2
    · next hsome =>
      simp only [Bool.and_eq_true, List.isEmpty_iff, not_and_or] at hsome
      have hnumeral := unsigned_of_point hds hps hsome
      refine ⟨_, ⟨⟨_, hnumeral⟩, ?_, ?_⟩, hnumeral⟩
      · conv_rhs => rw [← hsplit, htail]
        exact List.prefix_append_right_inj _ |>.2
          (List.cons_prefix_cons.2 ⟨rfl, List.takeWhile_prefix _⟩)
      · rintro q ⟨r, hq⟩ hfront
        exact (length_le_of_point htail hq hfront).2
  · next hno =>
    dsimp only
    split
    · next hempty =>
      simp only [List.isEmpty_nil, Bool.and_true, List.isEmpty_iff] at hempty
      intro p r hfront hp
      exact (length_le_of_no_point hno hp hfront).1 hempty
    · next hsome =>
      simp only [List.isEmpty_nil, Bool.and_true, List.isEmpty_iff] at hsome
      have hnumeral : Unsigned (s.takeWhile Char.isDigit)
          ((Decimal.toNat (s.takeWhile Char.isDigit ++ []) : ℚ) *
            10 ^ (-(([] : List Char).length : ℤ))) := by
        rw [List.append_nil, ← valueOf_eq hds, List.length_nil, Nat.cast_zero, neg_zero, zpow_zero,
          mul_one]
        exact .whole hds hsome
      refine ⟨_, ⟨⟨_, hnumeral⟩, List.takeWhile_prefix _, ?_⟩, hnumeral⟩
      rintro q ⟨r, hq⟩ hfront
      exact (length_le_of_no_point hno hq hfront).2

/-- A numeral without a sign does not begin with a dash. -/
theorem Unsigned.ne_dash {q s : List Char} {r : ℚ} (h : Unsigned q r) : ¬q <+: '-' :: s := by
  cases h with
  | whole hrun hne => exact hrun.ne_dash hne
  | point hrun hne _ =>
    exact fun hfront => hrun.ne_dash hne ((List.prefix_append _ _).trans hfront)
  | pointFirst => exact fun hfront => absurd (List.cons_prefix_cons.1 hfront).1 (by decide)

/-- The number that is scanned after a sign is the longest numeral at the front, rounded. -/
theorem readsDecimal_scan {s t : List Char} {negative : Bool} (hs : s = dash negative ++ t)
    (hdash : negative = false → ∀ u, s ≠ '-' :: u) :
    ReadsDecimal s (match leadingNumeral? t with
      | none => .zero
      | some (whole, places) =>
        .ofDecimal negative (Decimal.toNat (whole ++ places)) (-(places.length : Int))) := by
  -- the numerals at the front of the text are those at the front of the rest, with the sign
  have hsigned (q : List Char) (n : Bool) (r : ℚ) (hfront : q <+: s) (hq : Signed q n r) :
      ∃ u v, q = dash negative ++ u ∧ u <+: t ∧ Unsigned u v := by
    subst hs
    cases hq with
    | plain hu =>
      cases negative with
      | false => exact ⟨_, _, rfl, hfront, hu⟩
      | true => exact absurd hfront hu.ne_dash
    | minus hu =>
      cases negative with
      | false =>
        obtain ⟨w, hw⟩ := hfront
        exact absurd hw.symm (hdash rfl _)
      | true => exact ⟨_, _, rfl, (List.cons_prefix_cons.1 hfront).2, hu⟩
  have hscanned := scanned_leadingNumeral? t
  split
  · next hnone =>
    rw [hnone] at hscanned
    refine Or.inr ⟨fun p n r hfront hp => ?_, rfl⟩
    obtain ⟨u, v, -, hu, hunsigned⟩ := hsigned p n r hfront hp
    exact hscanned u v hu hunsigned
  · next whole places hsome =>
    rw [hsome] at hscanned
    obtain ⟨p, hp, hvalue⟩ := hscanned
    have hkind : Signed (dash negative ++ p) negative
        (Binary64.signed negative
          ((Decimal.toNat (whole ++ places) : ℚ) * 10 ^ (-(places.length : ℤ)))) := by
      cases negative
      · exact .plain hvalue
      · exact .minus hvalue
    obtain ⟨hround, hsign⟩ := Binary64.isRounding_ofDecimal negative
      (Decimal.toNat (whole ++ places)) (-(places.length : Int))
    refine Or.inl ⟨_, _, _, ⟨⟨_, _, hkind⟩, ?_, ?_⟩, hkind, hround, hsign⟩
    · rw [hs]
      exact (List.prefix_append_right_inj _).2 hp.front
    · rintro q ⟨n, r, hq⟩ hfront
      obtain ⟨u, v, rfl, hu, hunsigned⟩ := hsigned q n r hfront hq
      have hle := hp.longest u ⟨v, hunsigned⟩ hu
      simp only [List.length_append]
      omega

/-- Whether a text begins with a dash, and what comes after it. -/
def splitDash : List Char → Bool × List Char
  | '-' :: rest => (true, rest)
  | s => (false, s)

theorem dash_append_splitDash (s : List Char) : s = dash (splitDash s).1 ++ (splitDash s).2 := by
  unfold splitDash
  split <;> rfl

theorem ne_dash_of_splitDash {s : List Char} (h : (splitDash s).1 = false) :
    ∀ u, s ≠ '-' :: u := by
  rintro u rfl
  exact absurd h (by simp [splitDash])

/-- A text is read as the number of the longest numeral at the front of what is kept of it. -/
theorem readsDecimal_toNumber (raw : String) :
    ReadsDecimal (raw.toList.filter isNumberChar) (toNumber raw) :=
  readsDecimal_scan (dash_append_splitDash _) ne_dash_of_splitDash

/-! ### Integers that are printed -/

theorem dash_append_ofNat (n : Int) :
    Decimal.ofInt n = dash (decide (n < 0)) ++ Decimal.ofNat n.natAbs := by
  cases n with
  | ofNat n => rfl
  | negSucc n =>
    rw [decide_eq_true (Int.negSucc_lt_zero n)]
    rfl

/-- An integer that is printed is scanned whole. -/
theorem leadingInteger_ofInt (n : Int) :
    leadingInteger (Decimal.ofInt n) = (decide (n < 0), Decimal.ofNat n.natAbs) := by
  have htake (k : Nat) : (Decimal.ofNat k).takeWhile Char.isDigit = Decimal.ofNat k := by
    have hrest : ∀ c ∈ ([] : List Char).head?, c.isDigit = false := by simp
    simpa using takeWhile_append_of_digits (fun _ => Decimal.isDigit_of_mem_ofNat (n := k)) hrest
  cases n with
  | negSucc k =>
    rw [decide_eq_true (Int.negSucc_lt_zero k)]
    exact congrArg (Prod.mk true) (htake (k + 1))
  | ofNat k =>
    have hrun : IsRun (Decimal.ofNat k) := isRun_iff.2 fun _ => Decimal.isDigit_of_mem_ofNat
    show leadingInteger (Decimal.ofNat k) = _
    unfold leadingInteger
    split
    · next rest heq =>
      exact absurd (heq ▸ List.prefix_rfl) (hrun.ne_dash (s := rest) (Decimal.ofNat_ne_nil k))
    · exact congrArg (Prod.mk false) (htake k)

theorem natAbs_withSign (negative : Bool) (n : Nat) : (withSign negative n).natAbs = n := by
  cases negative <;> simp [withSign]

theorem withSign_natAbs (n : Int) : withSign (decide (n < 0)) n.natAbs = n := by
  unfold withSign
  split
  · next h =>
    have hneg : n < 0 := of_decide_eq_true h
    omega
  · next h =>
    have hpos : ¬n < 0 := by simpa using h
    omega

/-- An integer is printed in the characters of whole numerals. -/
theorem mem_wholeChars_of_mem_ofInt {n : Int} {c : Char} (h : c ∈ Decimal.ofInt n) :
    c ∈ wholeChars := by
  rw [dash_append_ofNat, List.mem_append] at h
  rcases h with h | h
  · have hdash : c = '-' := by
      unfold dash at h
      split at h <;> simp_all
    rw [hdash]
    exact List.mem_cons_self
  · exact List.mem_cons_of_mem _ (mem_digits_iff.2 (Decimal.isDigit_of_mem_ofNat h))

/-- Other characters than those of whole numerals leave what is kept of a text as it is. -/
theorem Interspersed.filter_eq {s t : List Char} (h : Interspersed s t) :
    t.filter (· ∈ wholeChars) = s.filter (· ∈ wholeChars) := by
  induction h with
  | same => rfl
  | insert _ hc ih => simpa [hc] using ih

/-- A text whose leading digits are few enough is read as the integer that is scanned. -/
theorem toInteger_eq {raw : String} {s : List Char} (hkept : raw.toList.filter (· ∈ wholeChars) = s)
    (hshort : (leadingInteger s).2.length ≤ Json.digitLimit) :
    toInteger raw =
      .ok (withSign (leadingInteger s).1 (Decimal.toNat (leadingInteger s).2)) := by
  have hfilter : raw.toList.filter isIntegerChar = s := by
    rw [← hkept]
    exact List.filter_congr fun c _ => by simp [mem_wholeChars_iff]
  have heq : toInteger raw = if Json.digitLimit < (leadingInteger s).2.length then
      .error (.tooManyDigits (leadingInteger s).2.length)
    else .ok (withSign (leadingInteger s).1 (Decimal.toNat (leadingInteger s).2)) := by
    rw [← hfilter]
    rfl
  rw [heq, if_neg (Nat.not_lt.2 hshort)]

/-- An integer with other characters among its digits is read as that integer. -/
theorem toInteger_of_interspersed {n : Int} {s : List Char}
    (hshort : (Decimal.ofNat n.natAbs).length ≤ Json.digitLimit)
    (h : Interspersed (Decimal.ofInt n) s) : toInteger (String.ofList s) = .ok n := by
  have hkept : (String.ofList s).toList.filter (· ∈ wholeChars) = Decimal.ofInt n := by
    rw [String.toList_ofList, h.filter_eq]
    exact List.filter_eq_self.2 fun c hc => decide_eq_true (mem_wholeChars_of_mem_ofInt hc)
  rw [toInteger_eq hkept (by rwa [leadingInteger_ofInt]), leadingInteger_ofInt,
    Decimal.toNat_ofNat, withSign_natAbs]

/-- An integer that is read has no more digits than are scanned. -/
theorem length_ofNat_withSign_le (negative : Bool) {ds : List Char}
    (h : ds.length ≤ Json.digitLimit) :
    (Decimal.ofNat (withSign negative (Decimal.toNat ds)).natAbs).length ≤ Json.digitLimit := by
  rw [natAbs_withSign]
  by_cases hne : ds = []
  · rw [hne, Decimal.ofNat, if_pos (by decide)]
    decide
  · exact (Decimal.length_ofNat_toNat_le hne).trans h

end Numeral

open Numeral

/-- **Coercion to a number reads the longest numeral at the front of what is kept of a text.**
For a number that is the decimal numeral, rounded once; for a whole number, of no more digits than
are converted, the whole numeral.  An integer that was read is read again as it is printed, and an
integer is read whatever other characters stand among its digits. -/
theorem coerceNamed_reads_numeral :
    (∀ raw : String, ∃ x, coerceNamed raw (some "number") = .ok (.float x) ∧
      ReadsDecimal (raw.toList.filter (· ∈ decimalChars)) x) ∧
    (∀ raw : String, digitCount raw ≤ Json.digitLimit →
      ∃ n, coerceNamed raw (some "integer") = .ok (.int n) ∧
        ReadsWhole (raw.toList.filter (· ∈ wholeChars)) n ∧
        coerceNamed (String.ofList (Decimal.ofInt n)) (some "integer") = .ok (.int n)) ∧
    ∀ (n : Int) (s : List Char), (Decimal.ofNat n.natAbs).length ≤ Json.digitLimit →
      Interspersed (Decimal.ofInt n) s →
      coerceNamed (String.ofList s) (some "integer") = .ok (.int n) := by
  have hinteger {raw : String} {n : Int} (h : toInteger raw = .ok n) :
      coerceNamed raw (some "integer") = .ok (.int n) := by
    rw [coerceNamed, ofName_eq_integer_iff.2 rfl, coerce, h]
    rfl
  refine ⟨fun raw => ⟨toNumber raw, rfl, ?_⟩, fun raw hraw => ?_, fun n s hshort hs => ?_⟩
  · have hfilter : raw.toList.filter (· ∈ decimalChars) = raw.toList.filter isNumberChar :=
      List.filter_congr fun c _ => by simp [mem_decimalChars_iff]
    rw [hfilter]
    exact readsDecimal_toNumber raw
  · obtain ⟨s, hs⟩ : ∃ s, s = raw.toList.filter (· ∈ wholeChars) := ⟨_, rfl⟩
    have hshort : (leadingInteger s).2.length ≤ Json.digitLimit := by
      rw [hs]
      exact (length_leadingInteger_le _).trans (List.filter_sublist.countP_le.trans hraw)
    refine ⟨_, hinteger (toInteger_eq hs.symm hshort), hs ▸ readsWhole_leadingInteger s, ?_⟩
    exact hinteger (toInteger_of_interspersed (length_ofNat_withSign_le _ hshort) .same)
  · exact hinteger (toInteger_of_interspersed hshort hs)

/-- A price with a currency and a comma is read as the integer that it shows. -/
theorem coerceNamed_reads_price :
    (digitCount "$-1,204" ≤ Json.digitLimit ∧
      ∃ n, coerceNamed "$-1,204" (some "integer") = .ok (.int n) ∧
        ReadsWhole ("$-1,204".toList.filter (· ∈ wholeChars)) n ∧
        coerceNamed (String.ofList (Decimal.ofInt n)) (some "integer") = .ok (.int n)) ∧
    (Decimal.ofNat (-1204 : Int).natAbs).length ≤ Json.digitLimit ∧
    Interspersed (Decimal.ofInt (-1204)) "$-1,204".toList ∧
    coerceNamed "$-1,204" (some "integer") = .ok (.int (-1204)) := by
  have hcount : digitCount "$-1,204" ≤ Json.digitLimit := by decide
  have hprinted : Decimal.ofInt (-1204) = ['-', '1', '2', '0', '4'] := by
    rw [dash_append_ofNat]
    simp [Decimal.ofNat, dash, Decimal.digitChar]
  have hshort : (Decimal.ofNat (-1204 : Int).natAbs).length ≤ Json.digitLimit := by
    simp [Decimal.ofNat, Json.digitLimit]
  have hcomma : Interspersed (Decimal.ofInt (-1204)) (['-', '1'] ++ ',' :: ['2', '0', '4']) := by
    rw [hprinted]
    exact .insert .same (by decide)
  have hprice : Interspersed (Decimal.ofInt (-1204))
      ([] ++ '$' :: (['-', '1'] ++ ',' :: ['2', '0', '4'])) := .insert hcomma (by decide)
  obtain ⟨-, hwhole, hread⟩ := coerceNamed_reads_numeral
  exact ⟨⟨hcount, hwhole _ hcount⟩, hshort, hprice, hread (-1204) _ hshort hprice⟩

end PagePlan
