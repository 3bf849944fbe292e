/-
# Number texts read back

The text of a number is digits before the point, digits after it and an exponent, of which the
layout leaves out what it can.  Reading puts the digits together and takes the decimal that they
denote, and that is the shortest decimal of the number again, up to zeros at its end.

* `readNumber_ofInt` — an integer with no more digits than are converted reads back.
* `readNumber_writeFloat` — a finite number reads back.
-/
import PagePlan.Json.Reader
import PagePlan.Json.Writer
import PagePlan.Proofs.Decimal.Layout

namespace PagePlan

namespace Json

open Text (Letter letters letters_cons letters_append)
open Decimal (IsWhole)

/-! ### Where a number ends -/

/-- What follows a number in a text: nothing that could be a part of it. -/
def EndsNumber (s : List Letter) : Prop :=
  ∀ c rest, s = .char c :: rest → c.isDigit = false ∧ c ≠ '.' ∧ c ≠ 'e' ∧ c ≠ 'E'

/-- What follows a run of digits. -/
def EndsDigits (s : List Letter) : Prop :=
  ∀ c rest, s = .char c :: rest → c.isDigit = false

theorem EndsNumber.endsDigits {s : List Letter} (h : EndsNumber s) : EndsDigits s :=
  fun c rest hs => (h c rest hs).1

theorem endsNumber_nil : EndsNumber [] := by
  intro c rest h
  cases h

theorem endsDigits_cons {c : Char} (h : c.isDigit = false) (s : List Letter) :
    EndsDigits (.char c :: s) := by
  rintro _ _ ⟨⟩
  exact h

theorem spanDigits_of_endsDigits {s : List Letter} (h : EndsDigits s) : spanDigits s = ([], s) := by
  match s with
  | [] => rfl
  | .half _ :: _ => rfl
  | .char c :: rest => simp [spanDigits, h c rest rfl]

theorem spanDigits_letters {ds : List Char} (hds : ∀ c ∈ ds, c.isDigit = true)
    {rest : List Letter} (hrest : EndsDigits rest) :
    spanDigits (letters ds ++ rest) = (ds, rest) := by
  induction ds with
  | nil => exact spanDigits_of_endsDigits hrest
  | cons d ds ih =>
    have hd : d.isDigit = true := hds d List.mem_cons_self
    have ih := ih fun c hc => hds c (List.mem_cons_of_mem d hc)
    simp [spanDigits, hd, ih]

theorem wholeDigits_letters {ds : List Char} (hds : IsWhole ds) {rest : List Letter}
    (hrest : EndsDigits rest) : wholeDigits (letters ds ++ rest) = (ds, rest) := by
  obtain ⟨d, ds', rfl⟩ := List.exists_cons_of_ne_nil hds.ne_nil
  by_cases hzero : d = '0'
  · have h : d :: ds' = ['0'] := hds.leading (by rw [hzero]; rfl)
    rw [h]
    rfl
  · rw [← spanDigits_letters hds.digits hrest, wholeDigits]
    rintro _ h
    simp only [letters_cons, List.cons_append, List.cons.injEq, Letter.char.injEq] at h
    exact hzero h.1

/-! ### The parts of a number -/

theorem fraction?_letters {places : List Char} (hplaces : ∀ c ∈ places, c.isDigit = true)
    (hne : places ≠ []) {rest : List Letter} (hrest : EndsDigits rest) :
    fraction? (.char '.' :: (letters places ++ rest)) = some (places, rest) := by
  rw [fraction?, spanDigits_letters hplaces hrest]
  split
  · next h => simp_all
  · rfl

theorem fraction?_of_ne_point {s : List Letter} (h : ∀ rest, s ≠ .char '.' :: rest) :
    fraction? s = none := by
  unfold fraction?
  split
  · next rest => exact absurd rfl (h rest)
  · rfl

theorem exponent?_sign (negative : Bool) {ds : List Char} (hds : ∀ c ∈ ds, c.isDigit = true)
    (hne : ds ≠ []) {rest : List Letter} (hrest : EndsDigits rest) :
    exponent? (.char 'e' :: .char (if negative then '-' else '+') :: (letters ds ++ rest)) =
      some (if negative then -(Decimal.toNat ds : Int) else Decimal.toNat ds, rest) := by
  have hspan := spanDigits_letters hds hrest
  generalize letters ds ++ rest = tail at hspan ⊢
  obtain ⟨d, ds', rfl⟩ := List.exists_cons_of_ne_nil hne
  cases negative
  · simp [exponent?, hspan]
  · simp [exponent?, hspan]

/-- An exponent reads back, whatever number of digits it is filled up to. -/
theorem exponent?_exponentText (width : Nat) (e : Int) {rest : List Letter}
    (hrest : EndsDigits rest) :
    exponent? (.char 'e' :: (letters (Decimal.exponentText width e) ++ rest)) = some (e, rest) := by
  obtain ⟨ds, hds⟩ : ∃ ds, ds =
      List.replicate (width - (Decimal.ofNat e.natAbs).length) '0' ++ Decimal.ofNat e.natAbs :=
    ⟨_, rfl⟩
  have hdigits : ∀ c ∈ ds, c.isDigit = true := by
    intro c hc
    rw [hds, List.mem_append] at hc
    rcases hc with hc | hc
    · rw [List.eq_of_mem_replicate hc]
      rfl
    · exact Decimal.isDigit_of_mem_ofNat hc
  have hne : ds ≠ [] := by
    rw [hds]
    exact List.append_ne_nil_of_right_ne_nil _ (Decimal.ofNat_ne_nil _)
  have hvalue : Decimal.toNat ds = e.natAbs := by
    rw [hds, Decimal.toNat_append, Decimal.toNat_replicate_zero, Decimal.toNat_ofNat]
    omega
  have htext : Decimal.exponentText width e = (if decide (e < 0) then '-' else '+') :: ds := by
    simp [Decimal.exponentText, hds]
  rw [htext, letters_cons, List.cons_append, exponent?_sign _ hdigits hne hrest, hvalue]
  congr 2
  split
  · next h =>
    have := of_decide_eq_true h
    omega
  · next h =>
    have := of_decide_eq_false (Bool.not_eq_true _ ▸ h)
    omega

theorem exponent?_of_endsNumber {s : List Letter} (h : EndsNumber s) : exponent? s = none := by
  match s with
  | [] => rfl
  | .half _ :: _ => rfl
  | .char c :: rest =>
    obtain ⟨-, -, hlower, hupper⟩ := h c rest rfl
    simp [exponent?, hlower, hupper]

/-! ### Numbers without a sign -/

theorem readUnsigned_whole (start : Nat) (negative : Bool) {whole : List Char}
    (hwhole : IsWhole whole) (hlimit : whole.length ≤ digitLimit) {rest : List Letter}
    (hrest : EndsNumber rest) :
    readUnsigned start negative (letters whole ++ rest) =
      .ok (.int (if negative then -(Decimal.toNat whole : Int) else Decimal.toNat whole),
        rest) := by
  have hfraction : fraction? rest = none :=
    fraction?_of_ne_point fun r h => (hrest '.' r h).2.1 rfl
  simp [readUnsigned, wholeDigits_letters hwhole hrest.endsDigits, hwhole.ne_nil, hfraction,
    exponent?_of_endsNumber hrest, Nat.not_lt.2 hlimit]

theorem readUnsigned_point (start : Nat) (negative : Bool) {whole places : List Char}
    (hwhole : IsWhole whole) (hplaces : ∀ c ∈ places, c.isDigit = true) (hne : places ≠ [])
    {rest : List Letter} (hrest : EndsNumber rest) :
    readUnsigned start negative (letters whole ++ .char '.' :: (letters places ++ rest)) =
      .ok (.float (.ofDecimal negative (Decimal.toNat (whole ++ places)) (-(places.length : Int))),
        rest) := by
  have hdigits := wholeDigits_letters hwhole
    (endsDigits_cons (c := '.') (by decide) (letters places ++ rest))
  simp [readUnsigned, hdigits, hwhole.ne_nil, fraction?_letters hplaces hne hrest.endsDigits,
    exponent?_of_endsNumber hrest]

theorem readUnsigned_exponent (start : Nat) (negative : Bool) (width : Nat) (e : Int)
    {whole : List Char} (hwhole : IsWhole whole) {rest : List Letter} (hrest : EndsNumber rest) :
    readUnsigned start negative
        (letters whole ++ .char 'e' :: (letters (Decimal.exponentText width e) ++ rest)) =
      .ok (.float (.ofDecimal negative (Decimal.toNat whole) e), rest) := by
  have hexponent := exponent?_exponentText width e hrest.endsDigits
  generalize letters (Decimal.exponentText width e) ++ rest = tail at hexponent ⊢
  have hdigits := wholeDigits_letters hwhole (endsDigits_cons (c := 'e') (by decide) tail)
  have hfraction : fraction? (.char 'e' :: tail) = none := fraction?_of_ne_point (by simp)
  simp [readUnsigned, hdigits, hwhole.ne_nil, hfraction, hexponent]

theorem readUnsigned_point_exponent (start : Nat) (negative : Bool) (width : Nat) (e : Int)
    {whole places : List Char} (hwhole : IsWhole whole)
    (hplaces : ∀ c ∈ places, c.isDigit = true) (hne : places ≠ []) {rest : List Letter}
    (hrest : EndsNumber rest) :
    readUnsigned start negative (letters whole ++ .char '.' ::
        (letters places ++ .char 'e' :: (letters (Decimal.exponentText width e) ++ rest))) =
      .ok (.float (.ofDecimal negative (Decimal.toNat (whole ++ places)) (e - places.length)),
        rest) := by
  have hexponent := exponent?_exponentText width e hrest.endsDigits
  generalize letters (Decimal.exponentText width e) ++ rest = tail at hexponent ⊢
  have hfraction := fraction?_letters hplaces hne (endsDigits_cons (c := 'e') (by decide) tail)
  generalize letters places ++ .char 'e' :: tail = point at hfraction ⊢
  have hdigits := wholeDigits_letters hwhole (endsDigits_cons (c := '.') (by decide) point)
  simp [readUnsigned, hdigits, hwhole.ne_nil, hfraction, hexponent]

/-! ### Layouts -/

section Layout

variable (start : Nat) (negative : Bool) {ds : List Char} {rest : List Letter}

/-- **The layout of a decimal reads back.**  An exponent stands behind the digits where the point
would be too far away from them. -/
theorem readUnsigned_place (hds : ∀ c ∈ ds, c.isDigit = true) (hne : ds ≠ [])
    (hhead : ds.head? ≠ some '0') (point : Int) (hrest : EndsNumber rest) :
    readUnsigned start negative (letters (Decimal.jsonLayout.place ds point) ++ rest) =
      .ok (.float (.ofDecimal negative (Decimal.toNat ds) (point - ds.length)), rest) := by
  by_cases hpositional : Decimal.jsonLayout.lowest < point ∧ point ≤ Decimal.jsonLayout.limit
  · obtain ⟨whole, places, hsplits⟩ :=
      Decimal.Layout.place_positional hds hne hhead rfl hpositional.1 hpositional.2
    have hread := readUnsigned_point start negative hsplits.isWhole hsplits.isDigit hsplits.ne_nil
      hrest
    rw [Binary64.ofDecimal_congr hsplits.value_eq] at hread
    rw [hsplits.text_eq, ← hread]
    simp
  · -- an exponent: one digit stands before the point
    obtain ⟨d, places, rfl⟩ := List.exists_cons_of_ne_nil hne
    rw [Decimal.Layout.place_exponent hpositional]
    have hwhole : IsWhole [d] := by
      refine ⟨by simp, ?_, fun h => absurd (by simpa using h) hhead⟩
      intro c hc
      exact hds c (by simp_all)
    rcases places with - | ⟨p, places⟩
    · have hread := readUnsigned_exponent start negative Decimal.jsonLayout.exponentWidth (point - 1)
        hwhole hrest
      simpa [Decimal.Layout.pointText] using hread
    · have hread := readUnsigned_point_exponent start negative Decimal.jsonLayout.exponentWidth
        (point - 1) hwhole (fun c hc => hds c (List.mem_cons_of_mem d hc)) (by simp) hrest
      have hexponent : point - 1 - ((p :: places).length : Int) =
          point - (d :: p :: places).length := by
        simp only [List.length_cons]
        omega
      rw [hexponent] at hread
      simpa [Decimal.Layout.pointText] using hread

end Layout

/-! ### Numbers with a sign -/

/-- What is read as a number without a sign begins with a digit. -/
theorem exists_digit_of_readUnsigned {start : Nat} {negative : Bool} {s : List Letter}
    {found : Value × List Letter} (h : readUnsigned start negative s = .ok found) :
    ∃ c rest, s = .char c :: rest ∧ c.isDigit = true := by
  match s with
  | [] => simp [readUnsigned, wholeDigits, spanDigits] at h
  | .half n :: rest => simp [readUnsigned, wholeDigits, spanDigits] at h
  | .char c :: rest =>
    refine ⟨c, rest, rfl, ?_⟩
    by_contra hc
    have hne : c ≠ '0' := by
      rintro rfl
      exact hc rfl
    have hwhole : wholeDigits (.char c :: rest) = ([], .char c :: rest) := by
      unfold wholeDigits
      split
      · next heq =>
        simp only [List.cons.injEq, Letter.char.injEq] at heq
        exact absurd heq.1 hne
      · simp [spanDigits, hc]
    simp [readUnsigned, hwhole] at h

/-- A sign in front of a number. -/
def signText (negative : Bool) : List Letter :=
  if negative then [.char '-'] else []

theorem readNumber_signText {negative : Bool} {s : List Letter} {found : Value × List Letter}
    (h : ∀ start, readUnsigned start negative s = .ok found) :
    readNumber (signText negative ++ s) = .ok found := by
  obtain ⟨c, rest, rfl, hc⟩ := exists_digit_of_readUnsigned (h 0)
  have hname : c ≠ 'I' := by
    rintro rfl
    exact absurd hc (by decide)
  have hminus : c ≠ '-' := by
    rintro rfl
    exact absurd hc (by decide)
  cases negative
  · simp [signText, readNumber, Text.afterFront?, Ne.symm hminus, hminus, h]
  · simp [signText, readNumber, Text.afterFront?, Ne.symm hname, h]

/-- **An integer reads back**, if it has no more digits than are converted. -/
theorem readNumber_ofInt {n : Int} (hlimit : (Decimal.ofNat n.natAbs).length ≤ digitLimit)
    {rest : List Letter} (hrest : EndsNumber rest) :
    readNumber (letters (Decimal.ofInt n) ++ rest) = .ok (.int n, rest) := by
  have hread (negative : Bool) := readNumber_signText fun start =>
    readUnsigned_whole start negative (Decimal.isWhole_ofNat n.natAbs) hlimit hrest
  simp only [Decimal.toNat_ofNat] at hread
  cases n with
  | ofNat n => exact hread false
  | negSucc n => exact hread true

/-- **A finite number reads back.** -/
theorem readNumber_writeFloat {x : Binary64} (hfin : x.isFinite = true) {rest : List Letter}
    (hrest : EndsNumber rest) :
    readNumber (letters (writeFloat x) ++ rest) = .ok (.float x, rest) := by
  have hsign : letters x.signChars = signText x.negative := by
    unfold signText Binary64.signChars
    split <;> rfl
  cases hzero : x.isZero with
  | true =>
    have hvalue : Binary64.ofDecimal x.negative 0 (-1) = x := by
      have hmagnitude : x.magnitude = 0 := by simpa [Binary64.isZero] using hzero
      rw [Binary64.ofDecimal, if_pos rfl, ← hmagnitude, Binary64.ofMagnitude_magnitude]
    have hread := readNumber_signText fun start =>
      readUnsigned_point start x.negative Decimal.isWhole_zero Decimal.isWhole_zero.digits
        Decimal.isWhole_zero.ne_nil hrest
    have hdigits : Decimal.toNat (['0'] ++ ['0']) = 0 := rfl
    rw [hdigits, List.length_singleton, Nat.cast_one, hvalue] at hread
    rw [writeFloat, Binary64.write_of_isZero _ hzero, letters_append, hsign, ← hread]
    simp [Decimal.jsonLayout, Decimal.numberLayout]
  | false =>
    have hread := readNumber_signText fun start =>
      readUnsigned_place start x.negative (fun _ => Binary64.isDigit_of_mem_shortestDigits)
        (Binary64.shortestDigits_ne_nil hfin hzero) (Binary64.head_shortestDigits hfin hzero)
        x.shortestPoint hrest
    rw [Binary64.ofDecimal_shortestDigits hfin hzero] at hread
    rw [writeFloat, Binary64.write_of_isFinite _ hfin hzero, letters_append, hsign,
      List.append_assoc, hread]

end Json

end PagePlan
