/-
# Standard JSON text

The grammar of JSON text, said without a reader or a writer: which texts the parts of a value may
have, one rule for each way to form one.  A text literal may hold any character behind an escape or
as itself, but outside the literals there are only the marks, the blanks, the numerals and three
words.  What a text has outside its literals can be told from the text (`Bares`), and in a standard
text there is neither of the capitals with which the numbers beyond JSON begin.

* `not_spells_of_bares` — a text with such a capital outside its literals is not standard.
-/
import PagePlan.Text.Blank
import Mathlib.Data.List.Basic

namespace PagePlan.Json

namespace Standard

/-! ### The grammar -/

/-- Some blanks, or none. -/
def Blanks (s : List Char) : Prop := ∀ c ∈ s, Text.isXmlBlank c = true

/-- One digit or more. -/
def Digits (s : List Char) : Prop := s ≠ [] ∧ ∀ c ∈ s, c.isDigit = true

/-- A whole number without a sign and without zeros in front. -/
inductive Whole : List Char → Prop
  | zero : Whole ['0']
  | other {d : Char} {ds : List Char} : Digits (d :: ds) → d ≠ '0' → Whole (d :: ds)

/-- The places of a numeral. -/
inductive Places : List Char → Prop
  | none : Places []
  | some {ds : List Char} : Digits ds → Places ('.' :: ds)

/-- The exponent of a numeral. -/
inductive Exponent : List Char → Prop
  | none : Exponent []
  | some {e : Char} {sign ds : List Char} : e ∈ ['e', 'E'] → sign ∈ [[], ['-'], ['+']] →
      Digits ds → Exponent (e :: (sign ++ ds))

/-- A numeral. -/
inductive Numeral : List Char → Prop
  | parts {sign whole places exponent : List Char} : sign ∈ [[], ['-']] → Whole whole →
      Places places → Exponent exponent → Numeral (sign ++ whole ++ places ++ exponent)

/-- A digit to the base of sixteen. -/
def isHexDigit (c : Char) : Bool :=
  c.isDigit || ('a' ≤ c && c ≤ 'f') || ('A' ≤ c && c ≤ 'F')

/-- The characters that may follow a backslash as they are. -/
def escaped : List Char := ['\x22', '\\', '/', 'b', 'f', 'n', 'r', 't']

/-- What may stand between the quotes of a text literal. -/
inductive LiteralBody : List Char → Prop
  | nil : LiteralBody []
  | plain {c : Char} {s : List Char} : 32 ≤ c.toNat → c ≠ '\x22' → c ≠ '\\' → LiteralBody s →
      LiteralBody (c :: s)
  | escape {c : Char} {s : List Char} : c ∈ escaped → LiteralBody s → LiteralBody ('\\' :: c :: s)
  | unit {ds s : List Char} : ds.length = 4 → (∀ d ∈ ds, isHexDigit d = true) → LiteralBody s →
      LiteralBody ('\\' :: 'u' :: (ds ++ s))

/-- A text literal. -/
inductive Literal : List Char → Prop
  | quoted {s : List Char} : LiteralBody s → Literal ('\x22' :: (s ++ ['\x22']))

/-- The parts of a text. -/
inductive Part where
  | value
  /-- A value with blanks around it. -/
  | element
  /-- The items of an array, one at least. -/
  | items
  | member
  /-- The members of an object, one at least. -/
  | members

/-- A text is one of a part. -/
inductive Spells : Part → List Char → Prop
  | null : Spells .value "null".toList
  | true : Spells .value "true".toList
  | false : Spells .value "false".toList
  | numeral {s : List Char} : Numeral s → Spells .value s
  | literal {s : List Char} : Literal s → Spells .value s
  | emptyArray {blanks : List Char} : Blanks blanks → Spells .value ('[' :: (blanks ++ [']']))
  | array {s : List Char} : Spells .items s → Spells .value ('[' :: (s ++ [']']))
  | emptyObject {blanks : List Char} : Blanks blanks →
      Spells .value ('\x7b' :: (blanks ++ ['\x7d']))
  | object {s : List Char} : Spells .members s → Spells .value ('\x7b' :: (s ++ ['\x7d']))
  | element {before s after : List Char} : Blanks before → Spells .value s → Blanks after →
      Spells .element (before ++ s ++ after)
  | lastItem {s : List Char} : Spells .element s → Spells .items s
  | moreItems {s rest : List Char} : Spells .element s → Spells .items rest →
      Spells .items (s ++ ',' :: rest)
  | member {before name after s : List Char} : Blanks before → Literal name → Blanks after →
      Spells .element s → Spells .member (before ++ name ++ after ++ ':' :: s)
  | lastMember {s : List Char} : Spells .member s → Spells .members s
  | moreMembers {s rest : List Char} : Spells .member s → Spells .members rest →
      Spells .members (s ++ ',' :: rest)

end Standard

/-- A standard JSON text. -/
def IsStandard (text : String) : Prop := Standard.Spells .element text.toList

namespace Standard

/-! ### Outside the literals -/

mutual

/-- What a text has outside its literals. -/
def bare : List Char → List Char
  | [] => []
  | c :: s => if c = '\x22' then inLiteral s else c :: bare s

/-- `bare` for a text that begins within a literal. -/
def inLiteral : List Char → List Char
  | [] => []
  | '\\' :: _ :: s => inLiteral s
  | c :: s => if c = '\x22' then bare s else inLiteral s

end

/-- A text has its literals closed, and some characters outside them. -/
def Bares (s shown : List Char) : Prop := ∀ rest, bare (s ++ rest) = shown ++ bare rest

theorem bares_nil : Bares [] [] := fun _ => rfl

theorem Bares.append {s t shown shown' : List Char} (hs : Bares s shown) (ht : Bares t shown') :
    Bares (s ++ t) (shown ++ shown') := by
  intro rest
  rw [List.append_assoc, hs, ht, List.append_assoc]

/-- A text has the same characters outside its literals however it is taken. -/
theorem Bares.eq {s shown shown' : List Char} (h : Bares s shown) (h' : Bares s shown') :
    shown = shown' := by
  have hnil := h []
  rw [h' [], bare, List.append_nil, List.append_nil] at hnil
  exact hnil.symm

theorem bares_of_noQuote {s : List Char} (h : '\x22' ∉ s) : Bares s s := by
  intro rest
  induction s with
  | nil => rfl
  | cons c s ih =>
    obtain ⟨hc, hs⟩ := not_or.1 (mt List.mem_cons.2 h)
    rw [List.cons_append, bare, if_neg (Ne.symm hc), ih hs, List.cons_append]

/-- A character within a literal that is neither a quote nor a backslash does not end it. -/
theorem inLiteral_cons {c : Char} (hquote : c ≠ '\x22') (hback : c ≠ '\\') (s : List Char) :
    inLiteral (c :: s) = inLiteral s := by
  rw [inLiteral, if_neg hquote]
  rintro _ _ ⟨⟩
  exact absurd rfl hback

theorem inLiteral_hexDigits {ds : List Char} (h : ∀ d ∈ ds, isHexDigit d = true) (s : List Char) :
    inLiteral (ds ++ s) = inLiteral s := by
  induction ds with
  | nil => rfl
  | cons d ds ih =>
    have hd := h d List.mem_cons_self
    have hne {c : Char} (hc : isHexDigit c = false) : d ≠ c := by
      rintro rfl
      rw [hc] at hd
      cases hd
    rw [List.cons_append, inLiteral_cons (hne (by decide)) (hne (by decide)),
      ih fun d' hd' => h d' (List.mem_cons_of_mem _ hd')]

/-- The closing quote is the first one that is not escaped. -/
theorem LiteralBody.inLiteral_append {s : List Char} (h : LiteralBody s) (rest : List Char) :
    inLiteral (s ++ '\x22' :: rest) = bare rest := by
  induction h with
  | nil => simp [inLiteral]
  | plain _ hquote hback _ ih => rw [List.cons_append, inLiteral_cons hquote hback, ih]
  | escape _ _ ih => rw [List.cons_append, List.cons_append, inLiteral, ih]
  | unit _ hhex _ ih =>
    rw [List.cons_append, List.cons_append, inLiteral, List.append_assoc,
      inLiteral_hexDigits hhex, ih]

/-- Nothing of a literal is outside it. -/
theorem Literal.bares {s : List Char} (h : Literal s) : Bares s [] := by
  cases h with
  | quoted hbody =>
    intro rest
    rw [List.cons_append, bare, if_pos rfl, List.append_assoc, List.singleton_append,
      hbody.inLiteral_append, List.nil_append]

/-! ### Capitals -/

/-- A text without a capital `I` or `N` outside its literals, which are closed. -/
def Quiet (s : List Char) : Prop := ∃ shown, Bares s shown ∧ 'I' ∉ shown ∧ 'N' ∉ shown

theorem Quiet.append {s t : List Char} (hs : Quiet s) (ht : Quiet t) : Quiet (s ++ t) := by
  obtain ⟨shown, hshown, hI, hN⟩ := hs
  obtain ⟨shown', hshown', hI', hN'⟩ := ht
  exact ⟨shown ++ shown', hshown.append hshown', by simp [hI, hI'], by simp [hN, hN']⟩

theorem Literal.quiet {s : List Char} (h : Literal s) : Quiet s :=
  ⟨[], h.bares, List.not_mem_nil, List.not_mem_nil⟩

/-- A text is quiet if all its characters are among those of a class without quotes and without
the two capitals. -/
theorem quiet_of_forall {p : Char → Bool} {s : List Char} (h : ∀ c ∈ s, p c = true)
    (hquote : p '\x22' = false) (hI : p 'I' = false) (hN : p 'N' = false) : Quiet s := by
  have hnot {c : Char} (hc : p c = false) : c ∉ s := by
    intro hmem
    rw [h c hmem] at hc
    cases hc
  exact ⟨s, bares_of_noQuote (hnot hquote), hnot hI, hnot hN⟩

theorem Blanks.quiet {s : List Char} (h : Blanks s) : Quiet s :=
  quiet_of_forall h (by decide) (by decide) (by decide)

theorem Digits.quiet {s : List Char} (h : Digits s) : Quiet s :=
  quiet_of_forall h.2 (by decide) (by decide) (by decide)

/-- A character other than the quote and the two capitals in front changes nothing. -/
theorem Quiet.cons {s : List Char} (h : Quiet s) {c : Char} (hquote : c ≠ '\x22') (hI : c ≠ 'I')
    (hN : c ≠ 'N') : Quiet (c :: s) := by
  have hc : Quiet [c] := by
    refine ⟨[c], bares_of_noQuote ?_, ?_, ?_⟩
    · simpa using Ne.symm hquote
    · simpa using Ne.symm hI
    · simpa using Ne.symm hN
  exact hc.append h

theorem quiet_nil : Quiet [] := ⟨[], bares_nil, List.not_mem_nil, List.not_mem_nil⟩

theorem Numeral.quiet {s : List Char} (h : Numeral s) : Quiet s := by
  obtain ⟨hsign, hwhole, hplaces, hexponent⟩ := h
  have hminus : ∀ sign ∈ [[], ['-'], ['+']], Quiet sign := by
    intro sign hsign
    refine quiet_of_forall (p := fun c => c == '-' || c == '+') (fun c hc => ?_) rfl rfl rfl
    simp only [List.mem_cons, List.not_mem_nil, or_false] at hsign
    rcases hsign with rfl | rfl | rfl
    all_goals simp_all
  refine ((Quiet.append ?_ ?_).append ?_).append ?_
  · exact hminus _ (by simp only [List.mem_cons] at hsign ⊢; tauto)
  · cases hwhole with
    | zero => exact quiet_nil.cons (by decide) (by decide) (by decide)
    | other hdigits _ => exact hdigits.quiet
  · cases hplaces with
    | none => exact quiet_nil
    | some hdigits => exact hdigits.quiet.cons (by decide) (by decide) (by decide)
  · cases hexponent with
    | none => exact quiet_nil
    | some he hsign hdigits =>
      have hrest := (hminus _ hsign).append hdigits.quiet
      simp only [List.mem_cons, List.not_mem_nil, or_false] at he
      rcases he with rfl | rfl
      · exact hrest.cons (by decide) (by decide) (by decide)
      · exact hrest.cons (by decide) (by decide) (by decide)

/-- A standard text has neither of the two capitals outside its literals. -/
theorem Spells.quiet {part : Part} {s : List Char} (h : Spells part s) : Quiet s := by
  have hmark {c : Char} (hc : c ∈ ['[', ']', '\x7b', '\x7d', ',', ':']) {t : List Char}
      (ht : Quiet t) : Quiet (c :: t) := by
    have hne : c ≠ '\x22' ∧ c ≠ 'I' ∧ c ≠ 'N' := by
      simp only [List.mem_cons, List.not_mem_nil, or_false] at hc
      rcases hc with rfl | rfl | rfl | rfl | rfl | rfl
      all_goals decide
    obtain ⟨hquote, hI, hN⟩ := hne
    exact ht.cons hquote hI hN
  induction h with
  | null => exact quiet_of_forall (p := Char.isLower) (List.all_eq_true.1 rfl) rfl rfl rfl
  | true => exact quiet_of_forall (p := Char.isLower) (List.all_eq_true.1 rfl) rfl rfl rfl
  | false => exact quiet_of_forall (p := Char.isLower) (List.all_eq_true.1 rfl) rfl rfl rfl
  | numeral h => exact h.quiet
  | literal h => exact h.quiet
  | emptyArray h => exact hmark (by simp) (h.quiet.append (hmark (by simp) quiet_nil))
  | array _ ih => exact hmark (by simp) (ih.append (hmark (by simp) quiet_nil))
  | emptyObject h => exact hmark (by simp) (h.quiet.append (hmark (by simp) quiet_nil))
  | object _ ih => exact hmark (by simp) (ih.append (hmark (by simp) quiet_nil))
  | element hbefore _ hafter ih => exact (hbefore.quiet.append ih).append hafter.quiet
  | lastItem _ ih => exact ih
  | moreItems _ _ ih ihRest => exact ih.append (hmark (by simp) ihRest)
  | member hbefore hname hafter _ ih =>
    exact ((hbefore.quiet.append hname.quiet).append hafter.quiet).append (hmark (by simp) ih)
  | lastMember _ ih => exact ih
  | moreMembers _ _ ih ihRest => exact ih.append (hmark (by simp) ihRest)

/-- A text that has one of the two capitals outside its literals is not standard. -/
theorem not_spells_of_bares {part : Part} {s shown : List Char} (h : Bares s shown)
    (hcapital : 'I' ∈ shown ∨ 'N' ∈ shown) : ¬Spells part s := by
  intro hs
  obtain ⟨shown', hshown', hI, hN⟩ := hs.quiet
  rw [h.eq hshown'] at hcapital
  exact hcapital.elim hI hN

end Standard

end PagePlan.Json
