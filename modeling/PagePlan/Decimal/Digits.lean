/-
# Decimal digits

Natural numbers in decimal, both ways, and the rounding of an exact quotient to the nearest
integer.  Writing uses as few digits as possible; reading takes any run of digits.
-/

namespace PagePlan.Decimal

/-- The character of a digit. -/
def digitChar (d : Nat) : Char :=
  Char.ofNat (48 + d % 10)

/-- The value of a digit character; other characters count as zero. -/
def digitValue (c : Char) : Nat :=
  if c.isDigit then c.toNat - 48 else 0

/-- The decimal digits of a number, without leading zeros. -/
def ofNat (n : Nat) : List Char :=
  if n < 10 then [digitChar n] else ofNat (n / 10) ++ [digitChar (n % 10)]
termination_by n
decreasing_by omega

/-- The number that a run of digits denotes. -/
def toNat (ds : List Char) : Nat :=
  ds.foldl (fun n c => 10 * n + digitValue c) 0

/-- An integer in decimal, with a minus sign where it is negative. -/
def ofInt : Int → List Char
  | .ofNat n => ofNat n
  | .negSucc n => '-' :: ofNat (n + 1)

theorem digitValue_digitChar {d : Nat} (h : d < 10) : digitValue (digitChar d) = d := by
  have all : ∀ d, d < 10 → digitValue (digitChar d) = d := by decide
  exact all d h

theorem isDigit_digitChar (d : Nat) : (digitChar d).isDigit = true := by
  have all : ∀ d, d < 10 → (digitChar d).isDigit = true := by decide
  have h := all (d % 10) (Nat.mod_lt _ (by decide))
  simpa [digitChar] using h

/-- Reading the digits of a number gives the number back. -/
theorem toNat_ofNat (n : Nat) : toNat (ofNat n) = n := by
  rw [ofNat]
  split
  · simp [toNat, digitValue_digitChar (by assumption)]
  · have ih := toNat_ofNat (n / 10)
    simp only [toNat, List.foldl_append, List.foldl_cons, List.foldl_nil] at ih ⊢
    rw [ih, digitValue_digitChar (by omega)]
    omega
termination_by n
decreasing_by omega

/-- The digits of a number are digits. -/
theorem isDigit_of_mem_ofNat {n : Nat} {c : Char} (h : c ∈ ofNat n) : c.isDigit = true := by
  rw [ofNat] at h
  split at h
  · simp only [List.mem_singleton] at h
    exact h ▸ isDigit_digitChar n
  · simp only [List.mem_append, List.mem_singleton] at h
    rcases h with h | rfl
    · exact isDigit_of_mem_ofNat h
    · exact isDigit_digitChar _
termination_by n
decreasing_by omega

/-- A power of two. -/
def twoTo (k : Nat) : Nat := Nat.pow 2 k

/-- A power of ten. -/
def tenTo (k : Nat) : Nat := Nat.pow 10 k

/-- The integer nearest to `num / den`; of two equally near ones the even one. -/
def roundDiv (num den : Nat) : Nat :=
  let q := num / den
  let r := num % den
  if 2 * r < den then q
  else if den < 2 * r then q + 1
  else if q % 2 = 0 then q else q + 1

end PagePlan.Decimal
