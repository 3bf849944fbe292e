/-
# What is read

A value is read off the front of a text, and its parts are read off the front of what is left, with
less fuel.  A property of texts, of the values at their fronts and of the rests behind them holds
of all that is read if it holds of texts, names and numbers, and of a sequence or a mapping
wherever it holds of the parts (`Rules`); the induction on the fuel is done here, once.

* `Rules.of_read` — such a property holds of what the three readers read;
* `Rules.of_readLetters` — and of the value of a whole text.
-/
import PagePlan.Proofs.Json.Number
import PagePlan.Proofs.Outcome

namespace PagePlan

namespace Binary64

theorem isNaN_ofRatio (negative : Bool) (num den : Nat) :
    (ofRatio negative num den).isNaN = false := by
  have hle (m : Nat) : min infiniteMagnitude m ≤ infiniteMagnitude := Nat.min_le_left _ _
  rw [ofRatio, isNaN, magnitude_ofMagnitude ((hle _).trans_lt infiniteMagnitude_lt)]
  simp

theorem isNaN_ofDecimal (negative : Bool) (digits : Nat) (e : Int) :
    (ofDecimal negative digits e).isNaN = false := by
  rw [ofDecimal_eq_ofRatio, isNaN_ofRatio]

theorem isNaN_infinity (negative : Bool) : (infinity negative).isNaN = false := by
  rw [infinity, isNaN, magnitude_ofMagnitude infiniteMagnitude_lt]
  simp

end Binary64

namespace Json

open Text (Letter letters)

/-! ### Names and numbers -/

/-- The values that are written as names. -/
inductive IsNamed : String → Value → Prop
  | null : IsNamed "null" .null
  | yes : IsNamed "true" (.bool true)
  | no : IsNamed "false" (.bool false)
  | nan : IsNamed "NaN" (.float .nan)
  | infinity : IsNamed "Infinity" (.float (.infinity false))

theorem isNamed_of_literal? {s : List Letter} {v : Value} {rest : List Letter}
    (h : literal? s = some (v, rest)) :
    ∃ name, IsNamed name v ∧ Text.afterFront? (letters name.toList) s = some rest := by
  obtain ⟨⟨name, w⟩, hmem, hfound⟩ := List.exists_of_findSome?_eq_some h
  simp only [Option.map_eq_some_iff, Prod.mk.injEq] at hfound
  obtain ⟨tail, hfront, rfl, rfl⟩ := hfound
  refine ⟨name, ?_, hfront⟩
  simp only [List.mem_cons, Prod.mk.injEq, List.not_mem_nil, or_false] at hmem
  rcases hmem with ⟨rfl, rfl⟩ | ⟨rfl, rfl⟩ | ⟨rfl, rfl⟩ | ⟨rfl, rfl⟩ | ⟨rfl, rfl⟩
  · exact .null
  · exact .yes
  · exact .no
  · exact .nan
  · exact .infinity

/-- The numbers that are read from digits: whole ones with no more digits than are converted, and
others, an infinity among them. -/
inductive IsNumber : Value → Prop
  | int {n : Int} (h : (Decimal.ofNat n.natAbs).length ≤ digitLimit) : IsNumber (.int n)
  | float {x : Binary64} (h : x.isNaN = false) : IsNumber (.float x)

theorem isNumber_of_readUnsigned {start : Nat} {negative : Bool} {s : List Letter} {v : Value}
    {rest : List Letter} (h : readUnsigned start negative s = .ok (v, rest)) : IsNumber v := by
  simp only [readUnsigned] at h
  split at h
  · cases h
  · next hne =>
    split at h
    · split at h
      · cases h
      · next hlimit =>
        simp only [Except.ok.injEq, Prod.mk.injEq] at h
        rw [← h.1]
        apply IsNumber.int
        have hnatAbs : (if negative = true then -(Decimal.toNat (wholeDigits s).1 : Int)
            else Decimal.toNat (wholeDigits s).1).natAbs = Decimal.toNat (wholeDigits s).1 := by
          split <;> simp
        rw [hnatAbs]
        exact (Decimal.length_ofNat_toNat_le (by simpa using hne)).trans (Nat.not_lt.1 hlimit)
    · simp only [Except.ok.injEq, Prod.mk.injEq] at h
      rw [← h.1]
      exact .float (Binary64.isNaN_ofDecimal _ _ _)

theorem isNumber_of_readNumber {s : List Letter} {v : Value} {rest : List Letter}
    (h : readNumber s = .ok (v, rest)) : IsNumber v := by
  unfold readNumber at h
  split at h
  · simp only [Except.ok.injEq, Prod.mk.injEq] at h
    rw [← h.1]
    exact .float (Binary64.isNaN_infinity true)
  · split at h
    · exact isNumber_of_readUnsigned h
    · exact isNumber_of_readUnsigned h

/-! ### Values -/

section Rules

variable {V : List Letter → Value → List Letter → Prop}
  {I : List Letter → List Value → List Letter → Prop}
  {M : Entries → List Letter → Entries → List Letter → Prop}

/-- A member at the front of a text: its name, a colon and a value of which `V` holds. -/
inductive IsMember (V : List Letter → Value → List Letter → Prop) :
    List Letter → List Letter → Value → List Letter → Prop
  | mk {start fuel : Nat} {s name afterName t after : List Letter} {v : Value}
      (hname : readString start fuel s = .ok (name, afterName))
      (hcolon : skipBlanks afterName = .char ':' :: t) (hvalue : V (skipBlanks t) v after) :
      IsMember V (.char '\x22' :: s) name v after

/-- Properties of values (`V`), of the items that are left of a sequence (`I`) and of the members
that are left of a mapping, with those before (`M`), that hold wherever they hold of the parts.
Each is about a text, what is read off its front and the rest. -/
structure Rules (V : List Letter → Value → List Letter → Prop)
    (I : List Letter → List Value → List Letter → Prop)
    (M : Entries → List Letter → Entries → List Letter → Prop) : Prop where
  text {start fuel : Nat} {s t rest : List Letter} :
    readString start fuel s = .ok (t, rest) → V (.char '\x22' :: s) (.ofLetters t) rest
  literal {s rest : List Letter} {v : Value} : literal? s = some (v, rest) → V s v rest
  number {s rest : List Letter} {v : Value} : readNumber s = .ok (v, rest) → V s v rest
  emptyDict {s rest : List Letter} :
    skipBlanks s = .char '\x7d' :: rest → V (.char '\x7b' :: s) (.dict []) rest
  dict {s rest : List Letter} {es : Entries} :
    M [] (skipBlanks s) es rest → V (.char '\x7b' :: s) (.dict es) rest
  emptyList {s rest : List Letter} :
    skipBlanks s = .char ']' :: rest → V (.char '[' :: s) (.list []) rest
  list {s rest : List Letter} {vs : List Value} :
    I (skipBlanks s) vs rest → V (.char '[' :: s) (.list vs) rest
  lastItem {s after rest : List Letter} {v : Value} :
    V s v after → skipBlanks after = .char ']' :: rest → I s [v] rest
  item {s after t rest : List Letter} {v : Value} {vs : List Value} :
    V s v after → skipBlanks after = .char ',' :: t → I (skipBlanks t) vs rest →
      I s (v :: vs) rest
  lastMember {es : Entries} {s name after rest : List Letter} {v : Value} :
    IsMember V s name v after → skipBlanks after = .char '\x7d' :: rest →
      M es s (es.set (.ofLetters name) v) rest
  member {es es' : Entries} {s name after t rest : List Letter} {v : Value} :
    IsMember V s name v after → skipBlanks after = .char ',' :: t →
      M (es.set (.ofLetters name) v) (skipBlanks t) es' rest → M es s es' rest

namespace Rules

variable (hrules : Rules V I M) {fuel : Nat}
  (hvalues : ∀ s v rest, readValue fuel s = .ok (v, rest) → V s v rest)
  (hitems : ∀ s vs rest, readItems fuel s = .ok (vs, rest) → I s vs rest)
  (hmembers : ∀ es s es' rest, readMembers fuel es s = .ok (es', rest) → M es s es' rest)
include hrules

include hitems hmembers in
/-- A value has the property if its items and members do, which are read with less fuel. -/
theorem value_step {s rest : List Letter} {v : Value}
    (h : readValue (fuel + 1) s = .ok (v, rest)) : V s v rest := by
  simp only [readValue] at h
  split at h
  · cases h
  · next l s =>
    split at h
    · next hquote =>
      obtain ⟨found, hfound, h⟩ := except_bind_eq_ok.1 h
      cases h
      rw [hquote]
      exact hrules.text hfound
    · split at h
      · next hbrace =>
        rw [hbrace]
        split at h
        · next hend =>
          cases h
          exact hrules.emptyDict hend
        · obtain ⟨⟨es, after⟩, hes, h⟩ := except_bind_eq_ok.1 h
          cases h
          exact hrules.dict (hmembers _ _ _ _ hes)
      · split at h
        · next hbracket =>
          rw [hbracket]
          split at h
          · next hend =>
            cases h
            exact hrules.emptyList hend
          · obtain ⟨⟨vs, after⟩, hvs, h⟩ := except_bind_eq_ok.1 h
            cases h
            exact hrules.list (hitems _ _ _ hvs)
        · split at h
          · next hfound =>
            cases h
            exact hrules.literal hfound
          · exact hrules.number h

include hvalues hitems in
theorem items_step {s rest : List Letter} {vs : List Value}
    (h : readItems (fuel + 1) s = .ok (vs, rest)) : I s vs rest := by
  rw [readItems] at h
  obtain ⟨⟨v, after⟩, hv, h⟩ := except_bind_eq_ok.1 h
  have hfirst := hvalues _ _ _ hv
  simp only at h
  split at h
  · next hend =>
    cases h
    exact hrules.lastItem hfirst hend
  · next hcomma =>
    obtain ⟨⟨others, last⟩, hothers, h⟩ := except_bind_eq_ok.1 h
    cases h
    exact hrules.item hfirst hcomma (hitems _ _ _ hothers)
  · cases h

include hvalues hmembers in
theorem members_step {es es' : Entries} {s rest : List Letter}
    (h : readMembers (fuel + 1) es s = .ok (es', rest)) : M es s es' rest := by
  simp only [readMembers] at h
  split at h
  · obtain ⟨⟨name, after⟩, hname, h⟩ := except_bind_eq_ok.1 h
    simp only at h
    split at h
    · next hcolon =>
      obtain ⟨⟨v, afterValue⟩, hv, h⟩ := except_bind_eq_ok.1 h
      have hmember := IsMember.mk hname hcolon (hvalues _ _ _ hv)
      simp only at h
      split at h
      · next hend =>
        cases h
        exact hrules.lastMember hmember hend
      · next hcomma => exact hrules.member hmember hcomma (hmembers _ _ _ _ h)
      · cases h
    · cases h
  · cases h

/-- **What the three readers read has the properties.** -/
theorem of_read (fuel : Nat) :
    (∀ s v rest, readValue fuel s = .ok (v, rest) → V s v rest) ∧
    (∀ s vs rest, readItems fuel s = .ok (vs, rest) → I s vs rest) ∧
    (∀ es s es' rest, readMembers fuel es s = .ok (es', rest) → M es s es' rest) := by
  induction fuel with
  | zero =>
    refine ⟨?_, ?_, ?_⟩
    · intro s v rest h
      simp [readValue] at h
    · intro s vs rest h
      simp [readItems] at h
    · intro es s es' rest h
      simp [readMembers] at h
  | succ fuel ih =>
    obtain ⟨hvalues, hitems, hmembers⟩ := ih
    exact ⟨fun _ _ _ => hrules.value_step hitems hmembers,
      fun _ _ _ => hrules.items_step hvalues hitems,
      fun _ _ _ _ => hrules.members_step hvalues hmembers⟩

/-- **A whole text is blanks, a value with the property, and blanks.** -/
theorem of_readLetters {s : List Letter} {v : Value} (h : readLetters s = .ok v) :
    ∃ rest, V (skipBlanks s) v rest ∧ skipBlanks rest = [] := by
  have hwhole : readWhole s = .ok v := by
    unfold readLetters at h
    split at h
    · next hread => rw [hread, Except.ok.inj h]
    · cases h
    · cases h
  unfold readWhole at hwhole
  split at hwhole
  · cases hwhole
  · obtain ⟨⟨w, rest⟩, hw, h⟩ := except_bind_eq_ok.1 hwhole
    simp only at h
    split at h
    · next hnothing =>
      cases h
      exact ⟨rest, (hrules.of_read _).1 _ _ _ hw, hnothing⟩
    · cases h

end Rules

end Rules

end Json

end PagePlan
