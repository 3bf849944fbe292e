/-
# When coercion gives a value

Coercion of a text to a declared type gives a scalar, with one exception.  For a whole number only
the digits and the dashes of the text are kept, and the digits at the front of these, after one
dash at most, are converted; they are refused where there are more than are ever converted.  Since
the digits of a whole text are run together, the text need hold no number of that length.

* `coerceNamed_eq_error_iff` — why a coercion is refused.
* `coerceNamed_gives_scalar_iff` — when a coercion gives a value.
-/
import PagePlan.Proofs.Outcome
import PagePlan.Proofs.Plan.Isolation

namespace PagePlan

/-- The digits at the front of what a text keeps for a whole number: after them there is no
further digit, and before them there is one dash at most. -/
def LeadingDigits (raw : String) (digits : List Char) : Prop :=
  (∀ c ∈ digits, c.isDigit = true) ∧
    ∃ rest, (∀ c ∈ rest.head?, c.isDigit = false) ∧
      (raw.toList.filter isIntegerChar = digits ++ rest ∨
        raw.toList.filter isIntegerChar = '-' :: (digits ++ rest))

/-! ### The digits that are converted -/

/-- A text is its digits at the front and a part that does not begin with one. -/
theorem exists_rest_of_takeWhile (s : List Char) :
    ∃ rest, (∀ c ∈ rest.head?, c.isDigit = false) ∧ s = s.takeWhile Char.isDigit ++ rest := by
  refine ⟨s.dropWhile Char.isDigit, ?_, List.takeWhile_append_dropWhile.symm⟩
  intro c hc
  have hhead := List.head?_dropWhile_not Char.isDigit s
  rw [Option.mem_def.1 hc] at hhead
  simpa using hhead

/-- Digits with no digit after them are all the digits at the front. -/
theorem takeWhile_append_of_digits {digits rest : List Char}
    (hall : ∀ c ∈ digits, c.isDigit = true) (hrest : ∀ c ∈ rest.head?, c.isDigit = false) :
    (digits ++ rest).takeWhile Char.isDigit = digits := by
  rw [List.takeWhile_append_of_pos hall]
  cases rest with
  | nil => simp
  | cons c rest => simp [hrest c (by simp)]

/-- The digits that are converted are those at the front. -/
theorem leadingDigits_leadingInteger (raw : String) :
    LeadingDigits raw (leadingInteger (raw.toList.filter isIntegerChar)).2 := by
  have hall (s : List Char) : ∀ c ∈ s.takeWhile Char.isDigit, c.isDigit = true :=
    List.all_eq_true.1 List.all_takeWhile
  unfold leadingInteger
  split
  · next rest heq =>
    obtain ⟨after, hafter, hrest⟩ := exists_rest_of_takeWhile rest
    exact ⟨hall rest, after, hafter, Or.inr (heq.trans (congrArg (List.cons '-') hrest))⟩
  · obtain ⟨after, hafter, hrest⟩ := exists_rest_of_takeWhile (raw.toList.filter isIntegerChar)
    exact ⟨hall _, after, hafter, Or.inl hrest⟩

/-- Digits at the front, if there are any, are those that are converted. -/
theorem LeadingDigits.leadingInteger_eq {raw : String} {digits : List Char}
    (h : LeadingDigits raw digits) (hne : digits ≠ []) :
    (leadingInteger (raw.toList.filter isIntegerChar)).2 = digits := by
  obtain ⟨hall, rest, hrest, heq | heq⟩ := h
  · obtain ⟨d, ds, rfl⟩ := List.exists_cons_of_ne_nil hne
    have hdash : d ≠ '-' := by
      rintro rfl
      exact absurd (hall '-' List.mem_cons_self) (by decide)
    rw [heq, leadingInteger]
    · exact takeWhile_append_of_digits hall hrest
    · intro t ht
      exact hdash (List.cons.inj ht).1
  · rw [heq]
    exact takeWhile_append_of_digits hall hrest

/-! ### The one refusal -/

theorem toInteger_eq_error_iff {raw : String} {e : Failure} :
    toInteger raw = .error e ↔
      ∃ digits, LeadingDigits raw digits ∧ Json.digitLimit < digits.length ∧
        e = .tooManyDigits digits.length := by
  have heq : toInteger raw =
      if Json.digitLimit < (leadingInteger (raw.toList.filter isIntegerChar)).2.length then
        .error (.tooManyDigits (leadingInteger (raw.toList.filter isIntegerChar)).2.length)
      else .ok _ := rfl
  rw [heq]
  constructor
  · intro h
    split at h
    · next hlong =>
      exact ⟨_, leadingDigits_leadingInteger raw, hlong, (Except.error.inj h).symm⟩
    · cases h
  · rintro ⟨digits, hdigits, hlong, rfl⟩
    have hne : digits ≠ [] := List.ne_nil_of_length_pos (Nat.zero_lt_of_lt hlong)
    rw [hdigits.leadingInteger_eq hne, if_pos hlong]

/-- Only whole numbers are ever refused. -/
theorem coerce_eq_error_iff {raw : String} {t : ValueType} {e : Failure} :
    coerce raw t = .error e ↔ t = .integer ∧ toInteger raw = .error e := by
  cases t with
  | integer => simp [coerce, except_map_eq_error]
  | string => simp [coerce]
  | number => simp [coerce]
  | boolean => simp [coerce]
  | other name => simp [coerce]

theorem ofName_eq_integer_iff {name : String} :
    ValueType.ofName name = .integer ↔ name = "integer" := by
  unfold ValueType.ofName
  constructor
  · intro h
    split_ifs at h with hstring hinteger
    exact hinteger
  · rintro rfl
    rfl

/-- A coercion is refused only for too many digits at the front of a whole number; how many
there are is told. -/
theorem coerceNamed_eq_error_iff {raw : String} {type : Option String} {e : Failure} :
    coerceNamed raw type = .error e ↔
      type = some "integer" ∧ ∃ digits, LeadingDigits raw digits ∧
        Json.digitLimit < digits.length ∧ e = .tooManyDigits digits.length := by
  cases type with
  | none => simp [coerceNamed]
  | some name =>
    rw [coerceNamed, coerce_eq_error_iff, ofName_eq_integer_iff, toInteger_eq_error_iff,
      Option.some.injEq]

/-- **Coercion of a text to a declared type gives a scalar, unless the type is that of whole
numbers and there are more digits at the front than are ever converted.** -/
theorem coerceNamed_gives_scalar_iff (raw : String) (type : Option String) :
    (∃ v, coerceNamed raw type = .ok v ∧ v.isScalar = true) ↔
      ¬(type = some "integer" ∧
        ∃ digits, LeadingDigits raw digits ∧ Json.digitLimit < digits.length) := by
  constructor
  · rintro ⟨v, hv, -⟩ ⟨htype, digits, hdigits, hlong⟩
    have herror := coerceNamed_eq_error_iff.2 ⟨htype, digits, hdigits, hlong, rfl⟩
    rw [hv] at herror
    cases herror
  · intro hshort
    cases h : coerceNamed raw type with
    | error e =>
      obtain ⟨htype, digits, hdigits, hlong, -⟩ := coerceNamed_eq_error_iff.1 h
      exact absurd ⟨htype, digits, hdigits, hlong⟩ hshort
    | ok v =>
      refine ⟨v, rfl, ?_⟩
      cases type with
      | none =>
        obtain rfl := Except.ok.inj h
        rfl
      | some name => exact Evaluator.isScalar_of_coerce h

/-- A text of too many digits is refused. -/
example {n : Nat} (h : Json.digitLimit < n) :
    coerceNamed (String.ofList (List.replicate n '1')) (some "integer") =
      .error (.tooManyDigits n) := by
  refine coerceNamed_eq_error_iff.2 ⟨rfl, List.replicate n '1', ⟨?_, [], ?_, Or.inl ?_⟩, ?_, ?_⟩
  · intro c hc
    rw [List.eq_of_mem_replicate hc]
    rfl
  · simp
  · simp [isIntegerChar]
  · simpa using h
  · rw [List.length_replicate]

end PagePlan
