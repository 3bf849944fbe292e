/-
# Text literals read back

A letter of a text literal is written as itself or as an escape.  Either way reading takes one step
over it and gives the letter back, and the closing quote ends the literal.  There is one exception:
where halves of surrogate pairs are escaped, a high one with a low one right behind it is read as
the character that the two escapes make.

* `readString_writeLetters` — a text without such a pair of halves is read back from its literal.
-/
import PagePlan.Json.Reader
import PagePlan.Json.Writer
import PagePlan.Proofs.Text.Utf8
import Mathlib.Data.List.Chain

namespace PagePlan

/-- Whether a letter is the first half of a surrogate pair. -/
def Text.Letter.isHigh (l : Text.Letter) : Bool :=
  decide (0xD800 ≤ l.code ∧ l.code < 0xDC00)

/-- Whether a letter is the second half of a surrogate pair. -/
def Text.Letter.isLow (l : Text.Letter) : Bool :=
  decide (0xDC00 ≤ l.code ∧ l.code < 0xE000)

/-- No first half of a surrogate pair has a second half right behind it. -/
def Text.Apart (s : List Text.Letter) : Prop :=
  s.IsChain fun l m => l.isHigh = true → m.isLow = false

theorem Text.Letter.not_isHigh_char (c : Char) : (char c).isHigh = false := by
  have hvalid := Text.toNat_valid c
  exact decide_eq_false (by rw [code]; omega)

theorem Text.Letter.not_isLow_char (c : Char) : (char c).isLow = false := by
  have hvalid := Text.toNat_valid c
  exact decide_eq_false (by rw [code]; omega)

theorem Text.Letter.ofCode_toNat (c : Char) : ofCode c.toNat = char c := by
  have hvalid := Text.toNat_valid c
  rw [ofCode, dif_neg (by omega), Char.ofNat_toNat]

namespace Json

open Text (Letter letters letters_nil letters_cons letters_append)

/-- A text that is read back from its literal. -/
def Legible (style : Style) (s : List Letter) : Prop :=
  style = .ascii → Text.Apart s

/-! ### Escapes by code point -/

theorem hexValue?_hexDigit {n : Nat} (h : n < 16) : hexValue? (Text.hexDigit n) = some n := by
  have all : ∀ n, n < 16 → hexValue? (Text.hexDigit n) = some n := by decide
  exact all n h

theorem fourHex?_hexDigits {n : Nat} (h : n < 0x10000) {tail : List Letter} (htail : tail ≠ []) :
    fourHex? (letters (Text.hexDigits 4 n) ++ tail) = some (n, tail) := by
  obtain ⟨l, tail, rfl⟩ := List.exists_cons_of_ne_nil htail
  have hdigit (k : Nat) : hexValue? (Text.hexDigit (k % 16)) = some (k % 16) :=
    hexValue?_hexDigit (Nat.mod_lt _ (by decide))
  simp only [Text.hexDigits, List.nil_append, letters_cons, letters_nil,
    List.cons_append, fourHex?, hdigit, Option.bind_eq_bind, Option.bind_some]
  simp only [Option.pure_def, Option.some.injEq, Prod.mk.injEq, and_true]
  omega

/-- A text that does not begin with the escape of a second half, nor with a broken escape. -/
def Separate (s : List Letter) : Prop :=
  ∀ more, s = .char '\\' :: .char 'u' :: more →
    ∃ low after, fourHex? more = some (low, after) ∧ ¬(0xDC00 ≤ low ∧ low < 0xE000)

/-- One escape is read as the letter of its code point, unless it is that of a first half before
that of a second. -/
theorem readUnits_hexDigits {n : Nat} (h : n < 0x10000) {tail : List Letter} (htail : tail ≠ [])
    (hnext : 0xD800 ≤ n → n < 0xDC00 → Separate tail) :
    readUnits (letters (Text.hexDigits 4 n) ++ tail) = .ok (.ofCode n, tail) := by
  rw [readUnits, fourHex?_hexDigits h htail]
  simp only
  split
  · next more =>
    split
    · next hpair =>
      simp only [Bool.and_eq_true, decide_eq_true_eq] at hpair
      obtain ⟨low, after, hlow, hnot⟩ := hnext hpair.1.1 hpair.1.2 more rfl
      simp only [hlow]
      rw [if_neg (by simpa using hnot)]
    · rfl
  · rfl

/-- The escapes of two halves are read as one character. -/
theorem readUnits_pair {n : Nat} (h : 0x10000 ≤ n) (hn : n < 0x110000) {tail : List Letter}
    (htail : tail ≠ []) :
    readUnits (letters (Text.hexDigits 4 (0xD800 + (n - 0x10000) / 1024)) ++
      letters (unitEscape (0xDC00 + (n - 0x10000) % 1024)) ++ tail) = .ok (.ofCode n, tail) := by
  have hpair : letters (unitEscape (0xDC00 + (n - 0x10000) % 1024)) ++ tail ≠ [] := by
    simp [unitEscape]
  have hhigh := fourHex?_hexDigits (n := 0xD800 + (n - 0x10000) / 1024) (by omega) hpair
  have hlow := fourHex?_hexDigits (n := 0xDC00 + (n - 0x10000) % 1024) (by omega) htail
  have hcode : 0x10000 + (0xD800 + (n - 0x10000) / 1024 - 0xD800) * 1024 +
      (0xDC00 + (n - 0x10000) % 1024 - 0xDC00) = n := by omega
  have hpos := List.length_pos_iff.2 htail
  have hlength :
      5 ≤ (letters (Text.hexDigits 4 (0xDC00 + (n - 0x10000) % 1024)) ++ tail).length := by
    rw [List.length_append, Text.length_letters, Text.length_hexDigits]
    omega
  rw [List.append_assoc, readUnits, hhigh]
  simp only [unitEscape, letters_cons, List.cons_append]
  rw [if_pos (by simp only [Bool.and_eq_true, decide_eq_true_eq]; omega), hlow]
  simp only
  rw [if_pos (by simp only [Bool.and_eq_true, decide_eq_true_eq]; omega), hcode]

/-- The escapes of a character are read as the character. -/
theorem readUnits_char (c : Char) {s tail : List Letter} (htail : tail ≠ [])
    (hs : letters (unitEscapes c.toNat) = .char '\\' :: .char 'u' :: s) :
    readUnits (s ++ tail) = .ok (.char c, tail) := by
  have hvalid := Text.toNat_valid c
  rw [← Letter.ofCode_toNat c]
  unfold unitEscapes at hs
  split at hs
  · next hsmall =>
    simp only [unitEscape, letters_cons, List.cons.injEq, true_and] at hs
    rw [← hs]
    exact readUnits_hexDigits hsmall htail fun _ _ => by omega
  · next hlarge =>
    rw [unitEscape, List.cons_append, List.cons_append] at hs
    simp only [letters_cons, letters_append, List.cons.injEq, true_and] at hs
    rw [← hs]
    exact readUnits_pair (Nat.not_lt.1 hlarge) (by omega) htail

/-! ### One letter -/

/-- A letter that is no quote, no backslash and no control character stands for itself. -/
theorem readString_self (start fuel : Nat) {l : Letter} (hquote : l ≠ .char '\x22')
    (hback : l ≠ .char '\\') (hcode : 32 ≤ l.code) (tail : List Letter) :
    readString start (fuel + 1) (l :: tail) =
      (readString start fuel tail).map fun found => (l :: found.1, found.2) := by
  rw [readString.eq_def]
  simp only [if_neg hquote, if_neg hback, if_neg (Nat.not_lt.2 hcode)]
  cases readString start fuel tail <;> rfl

/-- An escape with a letter of its own. -/
theorem readString_escaped (start fuel : Nat) {e : Letter} {c : Char} (he : escaped? e = some c)
    (tail : List Letter) :
    readString start (fuel + 1) (.char '\\' :: e :: tail) =
      (readString start fuel tail).map fun found => (.char c :: found.1, found.2) := by
  have hu : e ≠ .char 'u' := by
    rintro rfl
    simp [escaped?] at he
  rw [readString.eq_def]
  simp only [if_neg (show Letter.char '\\' ≠ .char '\x22' by decide), if_true]
  simp only [he]
  cases readString start fuel tail <;> rfl

/-- An escape by a code point. -/
theorem readString_units (start fuel : Nat) {s tail : List Letter} {l : Letter}
    (h : readUnits s = .ok (l, tail)) :
    readString start (fuel + 1) (.char '\\' :: .char 'u' :: s) =
      (readString start fuel tail).map fun found => (l :: found.1, found.2) := by
  rw [readString.eq_def]
  simp only [if_neg (show Letter.char '\\' ≠ .char '\x22' by decide), if_true, h]
  change (readString start fuel tail >>= _) = _
  cases readString start fuel tail <;> rfl

/-- The escapes of a character. -/
theorem readString_char (start fuel : Nat) (c : Char) {tail : List Letter} (htail : tail ≠ []) :
    readString start (fuel + 1) (letters (unitEscapes c.toNat) ++ tail) =
      (readString start fuel tail).map fun found => (.char c :: found.1, found.2) := by
  obtain ⟨s, hs⟩ : ∃ s, letters (unitEscapes c.toNat) = .char '\\' :: .char 'u' :: s := by
    rw [unitEscapes]
    split
    · exact ⟨_, rfl⟩
    · exact ⟨_, rfl⟩
  rw [hs]
  exact readString_units start fuel (readUnits_char c htail hs)

/-- Only what JSON requires is escaped. -/
theorem writeChar_unicode (c : Char) : writeChar .unicode c =
    if c == '\x22' || c == '\\' then ['\\', c]
    else if c == '\n' then ['\\', 'n']
    else if c == '\r' then ['\\', 'r']
    else if c == '\t' then ['\\', 't']
    else if c == '\x0c' then ['\\', 'f']
    else if c == '\x08' then ['\\', 'b']
    else if c.toNat < 32 then unitEscape c.toNat
    else [c] := by
  simp [writeChar]

/-- One step of reading takes one letter off a written text. -/
theorem readString_writeLetter {style : Style} (start fuel : Nat) (l : Letter) {tail : List Letter}
    (htail : tail ≠ []) (hnext : style = .ascii → l.isHigh = true → Separate tail) :
    readString start (fuel + 1) (writeLetter style l ++ tail) =
      (readString start fuel tail).map fun found => (l :: found.1, found.2) := by
  cases l with
  | half n =>
    rw [writeLetter]
    split
    · next hascii =>
      have hcode : Letter.ofCode (0xD800 + n) = .half n := by
        rw [Letter.ofCode, dif_pos (by omega)]
        simp
      have hunits := readUnits_hexDigits (n := 0xD800 + n) (by omega) htail fun hlow hhigh =>
        hnext hascii (by simpa [Letter.isHigh, Letter.code] using hhigh)
      rw [hcode] at hunits
      exact readString_units start fuel hunits
    · exact readString_self start fuel (by simp) (by simp) (by simp [Letter.code]; omega) tail
  | char c =>
    have hescaped {e : Char} (he : escaped? (.char e) = some c) :
        readString start (fuel + 1) (letters ['\\', e] ++ tail) =
          (readString start fuel tail).map fun found => (.char c :: found.1, found.2) :=
      readString_escaped start fuel he tail
    simp only [writeLetter, writeChar]
    split
    · -- a quote or a backslash
      next h =>
      rw [Bool.or_eq_true, beq_iff_eq, beq_iff_eq] at h
      rcases h with rfl | rfl
      · exact hescaped rfl
      · exact hescaped rfl
    · next hplain =>
      rw [Bool.or_eq_true, beq_iff_eq, beq_iff_eq, not_or] at hplain
      -- five blanks with escapes of their own, other control characters, what is not ASCII where
      -- that is escaped, and all others
      repeat' split
      · next h => exact hescaped (by rw [eq_of_beq h]; rfl)
      · next h => exact hescaped (by rw [eq_of_beq h]; rfl)
      · next h => exact hescaped (by rw [eq_of_beq h]; rfl)
      · next h => exact hescaped (by rw [eq_of_beq h]; rfl)
      · next h => exact hescaped (by rw [eq_of_beq h]; rfl)
      · next h =>
        have hsmall : unitEscapes c.toNat = unitEscape c.toNat := if_pos (by omega)
        rw [← hsmall]
        exact readString_char start fuel c htail
      · exact readString_char start fuel c htail
      · next h _ =>
        exact readString_self start fuel (l := .char c) (by simpa using hplain.1)
          (by simpa using hplain.2) (Nat.not_lt.1 h) tail

/-! ### Whole literals -/

/-- Every letter is written by at least one. -/
theorem length_le_writeLetters (style : Style) (s : List Letter) :
    s.length ≤ (s.flatMap (writeLetter style)).length := by
  have hunits (n : Nat) : 1 ≤ (unitEscapes n).length := by
    rw [unitEscapes]
    split <;> simp [unitEscape]
  have hone (l : Letter) : 1 ≤ (writeLetter style l).length := by
    cases l with
    | half n =>
      rw [writeLetter]
      split <;> simp [unitEscape]
    | char c =>
      simp only [writeLetter, Text.length_letters, writeChar]
      repeat' split
      all_goals simp [unitEscape, hunits]
  induction s with
  | nil => exact Nat.le_refl 0
  | cons l s ih =>
    rw [List.flatMap_cons, List.length_append, List.length_cons]
    have := hone l
    omega

/-- A letter that is no second half is not written as one. -/
theorem separate_writeLetter {l : Letter} (hl : l.isLow = false) {tail : List Letter}
    (htail : tail ≠ []) : Separate (writeLetter .ascii l ++ tail) := by
  have hunit {n : Nat} (hn : n < 0x10000) (hlow : ¬(0xDC00 ≤ n ∧ n < 0xE000)) {rest : List Letter}
      (hrest : rest ≠ []) : Separate (letters (unitEscape n) ++ rest) := by
    intro more hmore
    simp only [unitEscape, letters_cons, List.cons_append, List.cons.injEq, true_and] at hmore
    rw [← hmore]
    exact ⟨n, rest, fourHex?_hexDigits hn hrest, hlow⟩
  have hfront {c : Char} (hc : c ≠ '\\') (rest : List Letter) : Separate (.char c :: rest) := by
    rintro more ⟨⟩
    exact absurd rfl hc
  have hescape {e : Char} (he : e ≠ 'u') (rest : List Letter) :
      Separate (letters ['\\', e] ++ rest) := by
    rintro more ⟨⟩
    exact absurd rfl he
  cases l with
  | half n =>
    rw [writeLetter, if_pos rfl]
    have hlow : ¬(0xDC00 ≤ 0xD800 + n.val ∧ 0xD800 + n.val < 0xE000) := of_decide_eq_false hl
    exact hunit (by omega) hlow htail
  | char c =>
    have hvalid := Text.toNat_valid c
    simp only [writeLetter, writeChar]
    split
    · next h =>
      rw [Bool.or_eq_true, beq_iff_eq, beq_iff_eq] at h
      refine hescape ?_ tail
      rintro rfl
      rcases h with h | h <;> exact absurd h (by decide)
    · next hplain =>
      rw [Bool.or_eq_true, beq_iff_eq, beq_iff_eq, not_or] at hplain
      repeat' split
      · exact hescape (by decide) tail
      · exact hescape (by decide) tail
      · exact hescape (by decide) tail
      · exact hescape (by decide) tail
      · exact hescape (by decide) tail
      · exact hunit (by omega) (by omega) htail
      · rw [unitEscapes]
        split
        · exact hunit (by omega) (by omega) htail
        · rw [letters_append, List.append_assoc]
          exact hunit (by omega) (by omega) (by simp [unitEscape])
      · exact hfront hplain.2 tail

/-- **A text literal reads back**, whatever follows its closing quote. -/
theorem readString_writeLetters {style : Style} (start : Nat) {s : List Letter}
    (hs : Legible style s) (rest : List Letter) {fuel : Nat} (hfuel : s.length < fuel) :
    readString start fuel (s.flatMap (writeLetter style) ++ .char '\x22' :: rest) =
      .ok (s, rest) := by
  induction s generalizing fuel with
  | nil =>
    obtain ⟨fuel, rfl⟩ : ∃ k, fuel = k + 1 := ⟨fuel - 1, by omega⟩
    rw [List.flatMap_nil, List.nil_append, readString.eq_def]
    rfl
  | cons l s ih =>
    rw [List.length_cons] at hfuel
    obtain ⟨fuel, rfl⟩ : ∃ k, fuel = k + 1 := ⟨fuel - 1, by omega⟩
    have htail : Legible style s := fun hascii => (List.isChain_cons.1 (hs hascii)).2
    have hnext : style = .ascii → l.isHigh = true →
        Separate (s.flatMap (writeLetter style) ++ .char '\x22' :: rest) := by
      rintro rfl hhigh
      cases s with
      | nil => rintro more ⟨⟩
      | cons m s =>
        rw [List.flatMap_cons, List.append_assoc]
        exact separate_writeLetter ((List.isChain_cons.1 (hs rfl)).1 m rfl hhigh) (by simp)
    rw [List.flatMap_cons, List.append_assoc, readString_writeLetter _ _ _ (by simp) hnext,
      ih htail (by omega)]
    rfl

end Json

end PagePlan
