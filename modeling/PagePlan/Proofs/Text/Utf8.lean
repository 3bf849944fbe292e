/-
# Texts survive being written as bytes

Each character has from one to four bytes in UTF-8.  The decoder finds out from the first of them
how many there are, takes the character from them, and goes on behind them.

* `ofUtf8?_toUtf8` — the bytes of a text are decoded to the text.
-/
import PagePlan.Text.Encoding

namespace PagePlan.Text

/-! ### Bytes behind the first -/

theorem isTail_ofNat {n : Nat} (h : n < 64) : isTail (UInt8.ofNat (n + 0x80)) = true := by
  have all : ∀ n, n < 64 → isTail (UInt8.ofNat (n + 0x80)) = true := by decide
  exact all n h

theorem tailBits_ofNat {n : Nat} (h : n < 64) : tailBits (UInt8.ofNat (n + 0x80)) = n := by
  rw [tailBits, UInt8.toNat_ofNat']
  omega

theorem toNat_valid (c : Char) : c.toNat < 0xD800 ∨ 0xDFFF < c.toNat ∧ c.toNat < 0x110000 :=
  c.valid

/-! ### One character -/

/-- The bytes of a character give its code point back. -/
theorem utf8Point?_utf8EncodeChar (c : Char) (rest : List UInt8) :
    utf8Point? (String.utf8EncodeChar c ++ rest) = some (c.toNat, rest) := by
  have hvalid := toNat_valid c
  have hval : c.val.toNat = c.toNat := rfl
  rw [String.utf8EncodeChar]
  simp only [hval]
  split
  · next h =>
    have hbyte : (UInt8.ofNat c.toNat).toNat = c.toNat := by rw [UInt8.toNat_ofNat']; omega
    simp only [List.cons_append, List.nil_append, utf8Point?, hbyte]
    rw [if_pos (by omega)]
  · have htail (k : Nat) : isTail (UInt8.ofNat (k % 64 + 0x80)) = true :=
      isTail_ofNat (Nat.mod_lt _ (by decide))
    have hbits (k : Nat) : tailBits (UInt8.ofNat (k % 64 + 0x80)) = k % 64 :=
      tailBits_ofNat (Nat.mod_lt _ (by decide))
    split
    · -- two bytes
      have hbyte : (UInt8.ofNat (c.toNat / 64 % 32 + 0xC0)).toNat = c.toNat / 64 + 0xC0 := by
        rw [UInt8.toNat_ofNat']
        omega
      simp only [List.cons_append, List.nil_append, utf8Point?, hbyte, htail, hbits, if_true]
      rw [if_neg (by omega), if_pos (by simp; omega), Option.some.injEq, Prod.mk.injEq]
      exact ⟨by omega, rfl⟩
    · split
      · -- three bytes
        have hbyte : (UInt8.ofNat (c.toNat / 4096 % 16 + 0xE0)).toNat = c.toNat / 4096 + 0xE0 := by
          rw [UInt8.toNat_ofNat']
          omega
        simp only [List.cons_append, List.nil_append, utf8Point?, hbyte, htail, hbits]
        rw [if_neg (by omega), if_neg (by simp), if_pos (by simp; omega),
          if_pos (by simp; omega), Option.some.injEq, Prod.mk.injEq]
        exact ⟨by omega, rfl⟩
      · -- four bytes
        have hbyte : (UInt8.ofNat (c.toNat / 262144 % 8 + 0xF0)).toNat = c.toNat / 262144 + 0xF0 := by
          rw [UInt8.toNat_ofNat']
          omega
        simp only [List.cons_append, List.nil_append, utf8Point?, hbyte, htail, hbits]
        rw [if_neg (by omega), if_neg (by simp), if_neg (by simp), if_pos (by simp; omega),
          if_pos (by simp; omega), Option.some.injEq, Prod.mk.injEq]
        exact ⟨by omega, rfl⟩

/-- The bytes of a character are decoded to the character. -/
theorem utf8Front?_utf8EncodeChar (c : Char) (rest : List UInt8) :
    utf8Front? (String.utf8EncodeChar c ++ rest) = some (c, rest) := by
  have hpaired : isSurrogate c.toNat = false := by
    have hvalid := toNat_valid c
    simp only [isSurrogate, Bool.and_eq_false_iff, decide_eq_false_iff_not]
    omega
  simp [utf8Front?, utf8Point?_utf8EncodeChar, hpaired]

/-! ### Whole texts -/

theorem length_le_toUtf8 (cs : List Char) : cs.length ≤ (toUtf8 cs).length := by
  induction cs with
  | nil => exact Nat.le_refl 0
  | cons c cs ih =>
    have hpos : 0 < (String.utf8EncodeChar c).length :=
      List.length_pos_iff.2 String.utf8EncodeChar_ne_nil
    rw [toUtf8, List.flatMap_cons, List.length_append, List.length_cons]
    rw [toUtf8] at ih
    omega

theorem utf8Chars?_toUtf8 (cs : List Char) {fuel : Nat} (hfuel : cs.length ≤ fuel) :
    utf8Chars? fuel (toUtf8 cs) = some cs := by
  induction cs generalizing fuel with
  | nil => cases fuel <;> rfl
  | cons c cs ih =>
    rw [List.length_cons] at hfuel
    obtain ⟨fuel, rfl⟩ : ∃ k, fuel = k + 1 := ⟨fuel - 1, by omega⟩
    obtain ⟨b, bs, hbytes⟩ :=
      List.exists_cons_of_ne_nil (List.append_ne_nil_of_left_ne_nil
        (String.utf8EncodeChar_ne_nil (c := c)) (toUtf8 cs))
    have hsplit : toUtf8 (c :: cs) = String.utf8EncodeChar c ++ toUtf8 cs := rfl
    have hfront := utf8Front?_utf8EncodeChar c (toUtf8 cs)
    rw [hsplit, hbytes, utf8Chars?, ← hbytes, hfront]
    · simp [ih (by omega : cs.length ≤ fuel)]
    · simp

/-- **The bytes of a text are decoded to the text.** -/
theorem ofUtf8?_toUtf8 (cs : List Char) : ofUtf8? (toUtf8 cs) = some cs :=
  utf8Chars?_toUtf8 cs (length_le_toUtf8 cs)

end PagePlan.Text
