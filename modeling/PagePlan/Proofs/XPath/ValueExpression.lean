/-
# Expressions over values and their texts

The expressions of the context node, literals and numbers with operators and the functions on texts,
numbers and truth values.  They never lead from one item to another.  Their texts show it: such a
text does not begin with a slash or with two dots, and apart from the blanks of the grammar no white
space stands at its ends, because every rule that can end one of them ends with a digit, a point, a
quote, a letter of an exponent, a bracket or a comma.

The grammar is read by functions that call each other with less and less fuel, so what holds of all
of them is one structure, `ReadsValues`, and its proof one induction on the fuel with a lemma for
each function.

* `exists_cons_of_read`, `isTrimmed_of_read` — the ends of a text that is read as such an
  expression.
-/
import PagePlan.XPath.Grammar
import PagePlan.Proofs.Outcome
import PagePlan.Proofs.Text.Blank

namespace PagePlan.XPath

open Text (isBlank isXmlBlank)

/-- The functions on texts, numbers and truth values. -/
def valueFunctions : List String :=
  ["string", "concat", "starts-with", "contains", "substring", "substring-before",
    "substring-after", "string-length", "normalize-space", "translate", "boolean", "not", "number",
    "floor", "ceiling", "round", "count"]

/-- Expressions of the context node, literals and numbers with operators and the functions on
values. -/
inductive OfValue : Expr → Prop
  | here : OfValue .here
  | literal (s : String) : OfValue (.literal s)
  | number (x : Binary64) : OfValue (.number x)
  | negate {e : Expr} : OfValue e → OfValue (.negate e)
  | binary (op : Operator) {left right : Expr} :
      OfValue left → OfValue right → OfValue (.binary op left right)
  | call {name : String} {arguments : List Expr} : name ∈ valueFunctions →
      (∀ e ∈ arguments, OfValue e) → OfValue (.call ⟨none, name⟩ arguments)

namespace Grammar

/-! ### The ends of texts -/

/-- Where a text that is no path away from the context begins, blanks apart: not with a slash or two
dots, nor with other white space. -/
def Opens (s : List Char) : Prop :=
  ∃ c rest, skip s = c :: rest ∧ isBlank c = false ∧ c ≠ '/' ∧ (c = '.' → rest.head? ≠ some '.')

/-- Something of a text has been read, and it ended with no white space but blanks. -/
def Closes (s rest : List Char) : Prop :=
  ∃ before c blanks, s = before ++ c :: (blanks ++ rest) ∧ isBlank c = false ∧
    ∀ b ∈ blanks, isXmlBlank b = true

theorem exists_blanks (s : List Char) :
    ∃ blanks, s = blanks ++ skip s ∧ ∀ b ∈ blanks, isXmlBlank b = true :=
  ⟨s.takeWhile isXmlBlank, List.takeWhile_append_dropWhile.symm,
    List.all_eq_true.1 List.all_takeWhile⟩

theorem skip_suffix (s : List Char) : skip s <:+ s := List.dropWhile_suffix _

theorem skip_skip (s : List Char) : skip (skip s) = skip s := by
  induction s with
  | nil => rfl
  | cons c s ih =>
    by_cases hc : isXmlBlank c = true
    · simpa [skip, hc] using ih
    · simp [skip, hc]

variable {s t rest : List Char}

theorem Opens.congr (h : Opens s) (hskip : skip s = skip t) : Opens t := by
  obtain ⟨c, after, hc, hprops⟩ := h
  exact ⟨c, after, hskip.symm.trans hc, hprops⟩

theorem Closes.of_suffix (h : Closes t rest) (hsuffix : t <:+ s) : Closes s rest := by
  obtain ⟨before, c, blanks, rfl, hc, hblanks⟩ := h
  obtain ⟨front, rfl⟩ := hsuffix
  exact ⟨front ++ before, c, blanks, (List.append_assoc _ _ _).symm, hc, hblanks⟩

theorem Closes.suffix (h : Closes s rest) : rest <:+ s := by
  obtain ⟨before, c, blanks, rfl, -, -⟩ := h
  exact ⟨before ++ c :: blanks, by simp⟩

theorem Closes.skip (h : Closes s rest) : Closes s (skip rest) := by
  obtain ⟨before, c, blanks, rfl, hc, hblanks⟩ := h
  obtain ⟨more, hmore, hall⟩ := exists_blanks rest
  refine ⟨before, c, blanks ++ more, ?_, hc, ?_⟩
  · rw [List.append_assoc, ← hmore]
  · intro b hb
    exact (List.mem_append.1 hb).elim (hblanks b) (hall b)

/-- A character that is no white space closes a text. -/
theorem closes_cons {c : Char} (hc : isBlank c = false) : Closes (c :: rest) rest :=
  ⟨[], c, [], rfl, hc, nofun⟩

/-- So do characters without white space among them. -/
theorem closes_append (hne : t ≠ []) (hall : ∀ c ∈ t, isBlank c = false) :
    Closes (t ++ rest) rest := by
  refine ⟨t.dropLast, t.getLast hne, [], ?_, hall _ (List.getLast_mem hne), nofun⟩
  rw [List.nil_append, ← List.singleton_append, ← List.append_assoc, List.dropLast_append_getLast]

/-- The visible characters of ASCII are no white space. -/
theorem isBlank_eq_false_of_visible {c : Char} (hlow : 33 ≤ c.toNat) (hhigh : c.toNat ≤ 126) :
    isBlank c = false := by
  simp only [isBlank, Bool.or_eq_false_iff, Bool.and_eq_false_iff, decide_eq_false_iff_not,
    beq_eq_false_iff_ne, ne_eq]
  omega

theorem isBlank_eq_false_of_isDigit {c : Char} (h : c.isDigit = true) : isBlank c = false := by
  simp only [Char.isDigit, Bool.and_eq_true, decide_eq_true_eq] at h
  have hlow : 48 ≤ c.toNat := UInt32.le_iff_toNat_le.1 h.1
  have hhigh : c.toNat ≤ 57 := UInt32.le_iff_toNat_le.1 h.2
  exact isBlank_eq_false_of_visible (by omega) (by omega)

theorem isBlank_eq_false_of_isAlpha {c : Char} (h : c.isAlpha = true) : isBlank c = false := by
  have hcase : c.isUpper = true ∨ c.isLower = true := Bool.or_eq_true_iff.1 h
  rcases hcase with hcase | hcase
  · have hbounds : c.val ≥ 'A'.val ∧ c.val ≤ 'Z'.val := of_decide_eq_true hcase
    have hlow : 65 ≤ c.toNat := UInt32.le_iff_toNat_le.1 hbounds.1
    have hhigh : c.toNat ≤ 90 := UInt32.le_iff_toNat_le.1 hbounds.2
    exact isBlank_eq_false_of_visible (by omega) (by omega)
  · obtain ⟨hlow, hhigh⟩ := Bool.and_eq_true_iff.1 hcase
    have hlow : 97 ≤ c.toNat := UInt32.le_iff_toNat_le.1 (of_decide_eq_true hlow)
    have hhigh : c.toNat ≤ 122 := UInt32.le_iff_toNat_le.1 (of_decide_eq_true hhigh)
    exact isBlank_eq_false_of_visible (by omega) (by omega)

/-! ### Literals, numbers and names -/

theorem readLiteral_quote {q : Char} (hq : q = '\x22' ∨ q = '\x27') {body : List Char} :
    readLiteral (q :: body) =
      if body.dropWhile (· != q) = [] then .error .unfinishedLiteral
      else .ok (String.ofList (body.takeWhile (· != q)), (body.dropWhile (· != q)).tail) := by
  rcases hq with rfl | rfl <;>
  · simp only [readLiteral]
    split
    · next hdrop => rw [if_pos hdrop]
    · next hdrop =>
      rw [if_neg (by simp [hdrop]), hdrop]
      rfl

theorem readLiteral_of_not_quote {q : Char} (hq : ¬(q = '\x22' ∨ q = '\x27')) {body : List Char} :
    readLiteral (q :: body) = .error .literalExpected := by
  unfold readLiteral
  split
  · next heq => exact absurd (Or.inl (List.cons.inj heq).1) hq
  · next heq => exact absurd (Or.inr (List.cons.inj heq).1) hq
  · rfl

/-- A literal is what stands between two quotes of one kind. -/
theorem readLiteral_eq_ok_iff {found : String} : readLiteral s = .ok (found, rest) ↔
    ∃ q letters, (q = '\x22' ∨ q = '\x27') ∧ q ∉ letters ∧ s = q :: (letters ++ q :: rest) ∧
      found = String.ofList letters := by
  constructor
  · intro h
    rcases s with _ | ⟨q, body⟩
    · cases h
    by_cases hq : q = '\x22' ∨ q = '\x27'
    swap
    · rw [readLiteral_of_not_quote hq] at h
      cases h
    rw [readLiteral_quote hq] at h
    split_ifs at h with hend
    obtain ⟨rfl, rfl⟩ := Prod.mk.inj (Except.ok.inj h)
    obtain ⟨c, after, hdrop⟩ := List.exists_cons_of_ne_nil hend
    have hhead := List.head?_dropWhile_not (· != q) body
    rw [hdrop] at hhead
    obtain rfl : c = q := by simpa using hhead
    refine ⟨c, body.takeWhile (· != c), hq, fun hc => ?_, ?_, rfl⟩
    · simpa using List.mem_takeWhile_imp hc
    · rw [hdrop, List.tail_cons, ← hdrop, List.takeWhile_append_dropWhile]
  · rintro ⟨q, letters, hq, hletters, rfl, rfl⟩
    have hother : ∀ c ∈ letters, (c != q) = true := fun c hc =>
      bne_iff_ne.2 (ne_of_mem_of_not_mem hc hletters)
    rw [readLiteral_quote hq, List.dropWhile_append_of_pos hother,
      List.takeWhile_append_of_pos hother, List.dropWhile_cons_of_neg (by simp),
      List.takeWhile_cons_of_neg (by simp), List.append_nil, if_neg (List.cons_ne_nil _ _)]
    rfl

/-- A literal ends with its quote. -/
theorem closes_readLiteral {found : String} (h : readLiteral s = .ok (found, rest)) :
    Closes s rest := by
  obtain ⟨q, letters, hq, -, rfl, -⟩ := readLiteral_eq_ok_iff.1 h
  have hblank : isBlank q = false := by
    rcases hq with rfl | rfl <;> decide
  refine (closes_cons hblank).of_suffix ?_
  exact (List.suffix_append letters (q :: rest)).trans (List.suffix_cons q _)

/-- Digits, signs, points and the letters of exponents. -/
def IsNumeric (t : List Char) : Prop :=
  ∀ c ∈ t, c.isDigit = true ∨ c ∈ ['.', 'e', 'E', '+', '-']

theorem IsNumeric.not_isBlank (h : IsNumeric t) : ∀ c ∈ t, isBlank c = false := by
  intro c hc
  rcases h c hc with hdigit | hmem
  · exact isBlank_eq_false_of_isDigit hdigit
  · have hall : ['.', 'e', 'E', '+', '-'].all (fun c => !isBlank c) = true := by decide
    simpa using List.all_eq_true.1 hall c hmem

theorem isNumeric_takeWhile (s : List Char) : IsNumeric (s.takeWhile Char.isDigit) :=
  fun c hc => Or.inl (List.all_eq_true.1 List.all_takeWhile c hc)

theorem IsNumeric.append (hs : IsNumeric s) (ht : IsNumeric t) : IsNumeric (s ++ t) :=
  fun c hc => (List.mem_append.1 hc).elim (hs c) (ht c)

theorem IsNumeric.cons {c : Char} (hc : c ∈ ['.', 'e', 'E', '+', '-']) (ht : IsNumeric t) :
    IsNumeric (c :: t) := by
  intro d hd
  rcases List.mem_cons.1 hd with rfl | hd
  · exact Or.inr hc
  · exact ht d hd

/-- An exponent is the letter, maybe a sign, and digits. -/
theorem exists_readExponent (s : List Char) :
    ∃ t, s = t ++ (Number.readExponent s).2 ∧ IsNumeric t := by
  have hdigits (front : List Char) (hfront : IsNumeric front) (s : List Char) :
      ∃ t, front ++ s = t ++ s.dropWhile Char.isDigit ∧ IsNumeric t := by
    refine ⟨front ++ s.takeWhile Char.isDigit, ?_, hfront.append (isNumeric_takeWhile s)⟩
    rw [List.append_assoc, List.takeWhile_append_dropWhile]
  have hnil : IsNumeric [] := nofun
  unfold Number.readExponent
  dsimp only
  split
  · split
    · exact hdigits ['e', '-'] ((hnil.cons (by decide)).cons (by decide)) _
    · exact hdigits ['e', '+'] ((hnil.cons (by decide)).cons (by decide)) _
    · exact hdigits ['e'] (hnil.cons (by decide)) _
  · split
    · exact hdigits ['E', '-'] ((hnil.cons (by decide)).cons (by decide)) _
    · exact hdigits ['E', '+'] ((hnil.cons (by decide)).cons (by decide)) _
    · exact hdigits ['E'] (hnil.cons (by decide)) _
  · exact ⟨[], rfl, hnil⟩

/-- A number ends with a character of numbers. -/
theorem closes_readNumber {x : Binary64} (h : Number.read? s = some (x, rest)) :
    Closes s rest := by
  have hsplit (s : List Char) : s.takeWhile Char.isDigit ++ s.dropWhile Char.isDigit = s :=
    List.takeWhile_append_dropWhile
  have hwhole := isNumeric_takeWhile s
  unfold Number.read? at h
  split at h
  next fraction after hfraction =>
  dsimp only at h
  split at h
  · cases h
  next hnonempty =>
  -- what stands before the exponent
  have hfront : ∃ t, s = t ++ after ∧ t ≠ [] ∧ IsNumeric t := by
    split at hfraction
    · next places hdrop =>
      obtain ⟨rfl, rfl⟩ := Prod.mk.inj hfraction
      refine ⟨s.takeWhile Char.isDigit ++ '.' :: places.takeWhile Char.isDigit, ?_, by simp,
        hwhole.append ((isNumeric_takeWhile places).cons (by decide))⟩
      rw [List.append_assoc, List.cons_append, hsplit, ← hdrop, hsplit]
    · obtain ⟨rfl, rfl⟩ := Prod.mk.inj hfraction
      exact ⟨_, (hsplit s).symm, by simpa using hnonempty, hwhole⟩
  have hrest : rest = (Number.readExponent after).2 := by
    split at h
    · next e after' hexponent =>
      rw [hexponent]
      exact (Prod.mk.inj (Option.some.inj h)).2.symm
    · next after' hexponent =>
      rw [hexponent]
      exact (Prod.mk.inj (Option.some.inj h)).2.symm
  obtain ⟨t, hs, hne, hnumeric⟩ := hfront
  obtain ⟨u, hu, hexponent⟩ := exists_readExponent after
  rw [hs, hu, ← List.append_assoc, ← hrest]
  exact closes_append (List.append_ne_nil_of_left_ne_nil hne _)
    (hnumeric.append hexponent).not_isBlank

/-- A name without a colon stands at the front as it is read. -/
theorem eq_append_of_readQName? {label : String} (h : readQName? s = some (⟨none, label⟩, rest)) :
    s = label.toList ++ rest := by
  have hpart {name : String} {after : List Char} (h : Text.readNamePart? s = some (name, after)) :
      s = name.toList ++ after := by
    unfold Text.readNamePart? at h
    split at h
    · cases h
    · split at h
      · obtain ⟨rfl, rfl⟩ := Prod.mk.inj (Option.some.inj h)
        rw [String.toList_ofList, List.cons_append, List.takeWhile_append_dropWhile]
      · cases h
  unfold readQName? at h
  obtain ⟨⟨first, after⟩, hfirst, h⟩ := Option.bind_eq_some_iff.1 h
  split at h
  next heq =>
  obtain ⟨rfl, rfl⟩ := Prod.mk.inj heq
  split at h
  · obtain ⟨⟨second, after'⟩, -, h⟩ := Option.bind_eq_some_iff.1 h
    have hname := congrArg QName.qualifier (Prod.mk.inj (Option.some.inj h)).1
    cases hname
  · obtain ⟨hname, rfl⟩ := Prod.mk.inj (Option.some.inj h)
    obtain rfl := (QName.mk.inj hname).2
    exact hpart hfirst

theorem eq_some_of_orInvalid {α : Type} {r : Option (α × List Char)} {found : α × List Char}
    (h : orInvalid r = .ok found) : r = some found := by
  cases r with
  | none => cases h
  | some found' => rw [Except.ok.inj h]

theorem skip_cons {c : Char} (hc : isBlank c = false) : skip (c :: rest) = c :: rest := by
  have hxml : ¬isXmlBlank c = true := fun h => by
    rw [Text.isBlank_of_isXmlBlank h] at hc
    cases hc
  rw [skip, List.dropWhile_cons_of_neg hxml]

/-- A number opens with a digit, or with a point and a digit. -/
theorem opens_of_numeral {c : Char} (hc : (c.isDigit || c == '.') = true)
    (hstarts : startsPath? (c :: rest) = some false) : Opens (c :: rest) := by
  by_cases hdigit : c.isDigit = true
  · have hblank := isBlank_eq_false_of_isDigit hdigit
    refine ⟨c, rest, skip_cons hblank, hblank, ?_, ?_⟩
    · rintro rfl
      cases hdigit
    · rintro rfl
      cases hdigit
  · obtain rfl : c = '.' := by simpa [hdigit] using hc
    refine ⟨'.', rest, skip_cons (by decide), by decide, by decide, fun _ hpoint => ?_⟩
    cases rest with
    | nil => cases hpoint
    | cons d rest =>
      obtain rfl : d = '.' := by simpa using hpoint
      cases hstarts

/-- The name of a function on values opens with a letter. -/
theorem opens_of_valueFunction {name : String} (h : name ∈ valueFunctions) :
    Opens (name.toList ++ rest) := by
  have hletters : valueFunctions.all (fun name => name.toList.head?.any Char.isAlpha) = true := by
    decide +kernel
  obtain ⟨c, hhead, hc⟩ := (Option.any_eq_true _ _).1 (List.all_eq_true.1 hletters name h)
  obtain ⟨tail, htail⟩ := List.head?_eq_some_iff.1 hhead
  have hblank : isBlank c = false := isBlank_eq_false_of_isAlpha hc
  rw [htail]
  refine ⟨c, tail ++ rest, skip_cons hblank, hblank, ?_, ?_⟩
  · rintro rfl
    cases hc
  · rintro rfl
    cases hc

/-! ### The cases of a path -/

section Path

variable {depth fuel : Nat} {s rest : List Char}

theorem readPath_of_steps (hstarts : startsPath? (skip s) = some true)
    (h : ∀ rest, skip s ≠ '/' :: rest) :
    readPath depth (fuel + 1) s = readSteps depth fuel .here (skip s) := by
  rw [readPath]
  dsimp only
  rw [hstarts]
  simp only [bind, Except.bind, if_pos]

theorem readPath_of_top (h : skip s = '/' :: rest) :
    readPath depth (fuel + 1) s = readFromTop depth fuel .top (skip s) := by
  rw [readPath]
  dsimp only
  rw [h]
  rfl

theorem readPath_of_primary (hstarts : startsPath? (skip s) = some false) :
    readPath depth (fuel + 1) s = (do
      let (e, rest) ← readPrimary depth fuel (skip s)
      let (e, rest) ← readFilters depth fuel e (skip rest)
      match rest with
      | '/' :: '/' :: rest => readSteps depth fuel (.step e .anyBelow) (skip rest)
      | '/' :: _ => readSteps depth fuel e rest
      | _ => return (e, rest)) := by
  rw [readPath]
  dsimp only
  rw [hstarts]
  rfl

theorem exists_startsPath? {found : Expr × List Char}
    (h : readPath depth (fuel + 1) s = .ok found) : ∃ b, startsPath? (skip s) = some b := by
  rw [readPath] at h
  dsimp only at h
  cases hstarts : startsPath? (skip s) with
  | none =>
    rw [hstarts] at h
    cases h
  | some b => exact ⟨b, rfl⟩

end Path

/-! ### What the functions of the grammar read -/

/-- What holds of the functions of the grammar with some fuel: a text that is read as an expression
over values opens and closes as such texts do.  A function that is given an expression to go on from
gives one over values only if it goes on from one. -/
structure ReadsValues (fuel : Nat) : Prop where
  level {depth level : Nat} {s rest : List Char} {e : Expr} :
    readLevel depth fuel level s = .ok (e, rest) → OfValue e → Opens s ∧ Closes s rest
  operands {depth level : Nat} {left e : Expr} {s rest : List Char} :
    readOperands depth fuel level left s = .ok (e, rest) → OfValue e →
      OfValue left ∧ (rest = s ∨ Closes s rest)
  unary {depth : Nat} {s rest : List Char} {e : Expr} :
    readUnary depth fuel s = .ok (e, rest) → OfValue e → Opens s ∧ Closes s rest
  union {depth : Nat} {left e : Expr} {s rest : List Char} :
    readUnion depth fuel left s = .ok (e, rest) → OfValue e → OfValue left ∧ rest = s
  path {depth : Nat} {s rest : List Char} {e : Expr} :
    readPath depth fuel s = .ok (e, rest) → OfValue e → Opens s ∧ Closes s rest
  fromTop {depth : Nat} {first e : Expr} {s rest : List Char} :
    readFromTop depth fuel first s = .ok (e, rest) → OfValue e → OfValue first
  steps {depth : Nat} {first e : Expr} {s rest : List Char} :
    readSteps depth fuel first s = .ok (e, rest) → OfValue e →
      e = first ∧ Closes s rest ∧ ((∃ after, skip s = '/' :: after) ∨ Opens s)
  moreSteps {depth : Nat} {first e : Expr} {s rest : List Char} :
    readMoreSteps depth fuel first s = .ok (e, rest) → OfValue e →
      e = first ∧ (rest = s ∨ Closes s rest)
  step {depth : Nat} {first e : Expr} {s rest : List Char} :
    readStep depth fuel first s = .ok (e, rest) → OfValue e →
      e = first ∧ Closes s rest ∧ Opens s
  filters {depth : Nat} {first e : Expr} {s rest : List Char} :
    readFilters depth fuel first s = .ok (e, rest) → OfValue e → e = first ∧ rest = s
  primary {depth : Nat} {s rest : List Char} {e : Expr} :
    readPrimary depth fuel s = .ok (e, rest) → startsPath? s = some false → OfValue e →
      Opens s ∧ Closes s rest
  arguments {depth : Nat} {s rest : List Char} {es : List Expr} :
    readArguments depth fuel s = .ok (es, rest) → (∀ e ∈ es, OfValue e) →
      (s = [] ∧ rest = []) ∨ Closes s rest
  nested {depth : Nat} {s rest : List Char} {e : Expr} :
    readNested depth fuel s = .ok (e, rest) → OfValue e → Opens s ∧ Closes s rest

section Step

variable {fuel depth : Nat} (ih : ReadsValues fuel) {s rest : List Char} {e : Expr}

include ih

theorem level_succ {level : Nat} (h : readLevel depth (fuel + 1) level s = .ok (e, rest))
    (he : OfValue e) : Opens s ∧ Closes s rest := by
  rw [readLevel] at h
  split at h
  · exact ih.unary h he
  · obtain ⟨⟨left, after⟩, hleft, h⟩ := except_bind_eq_ok.1 h
    obtain ⟨hleftValue, hmore⟩ := ih.operands h he
    obtain ⟨hopens, hcloses⟩ := ih.level hleft hleftValue
    refine ⟨hopens, ?_⟩
    rcases hmore with rfl | hmore
    · exact hcloses.skip
    · exact hmore.of_suffix hcloses.skip.suffix

theorem operands_succ {level : Nat} {left : Expr}
    (h : readOperands depth (fuel + 1) level left s = .ok (e, rest)) (he : OfValue e) :
    OfValue left ∧ (rest = s ∨ Closes s rest) := by
  rw [readOperands] at h
  split at h
  · obtain ⟨rfl, rfl⟩ := Prod.mk.inj (Except.ok.inj h)
    exact ⟨he, Or.inl rfl⟩
  · next op after hoperator =>
    have hafter : after <:+ s := by
      unfold readOperator? at hoperator
      obtain ⟨⟨text, op'⟩, -, hfound⟩ := List.exists_of_findSome?_eq_some hoperator
      obtain ⟨after', hfront, hpair⟩ := Option.map_eq_some_iff.1 hfound
      obtain ⟨-, rfl⟩ := Prod.mk.inj hpair
      unfold Text.afterFront? at hfront
      split at hfront
      · obtain rfl := Option.some.inj hfront
        exact List.drop_suffix _ _
      · cases hfront
    obtain ⟨⟨right, after'⟩, hright, h⟩ := except_bind_eq_ok.1 h
    obtain ⟨hbinary, hmore⟩ := ih.operands h he
    obtain ⟨hleft, hrightValue⟩ : OfValue left ∧ OfValue right := by
      cases hbinary with
      | binary _ hl hr => exact ⟨hl, hr⟩
    obtain ⟨-, hcloses⟩ := ih.level hright hrightValue
    have hcloses' := (hcloses.of_suffix ((skip_suffix after).trans hafter)).skip
    refine ⟨hleft, Or.inr ?_⟩
    rcases hmore with rfl | hmore
    · exact hcloses'
    · exact hmore.of_suffix hcloses'.suffix

omit ih in
theorem ofValue_of_negated {n : Nat} (h : OfValue (negated n e)) : OfValue e := by
  induction n with
  | zero => exact h
  | succ n hn =>
    cases h with
    | negate h => exact hn h

omit ih in
/-- What is left after the signs is a part of the text, and if there are none it opens the text. -/
theorem readSigns_cases (s : List Char) :
    (readSigns s).2 <:+ s ∧ ((readSigns s).1 = 0 ∧ (readSigns s).2 = skip s ∨ Opens s) := by
  induction s with
  | nil => exact ⟨List.suffix_rfl, Or.inl ⟨rfl, rfl⟩⟩
  | cons c s hs =>
    rw [readSigns]
    split
    · next hdash =>
      obtain rfl : c = '-' := by simpa using hdash
      exact ⟨hs.1.trans (List.suffix_cons _ _),
        Or.inr ⟨'-', s, rfl, by decide, by decide, fun h => absurd h (by decide)⟩⟩
    · split
      · next hblank =>
        have hskip : skip (c :: s) = skip s := by simp [skip, hblank]
        refine ⟨hs.1.trans (List.suffix_cons _ _), ?_⟩
        rcases hs.2 with ⟨hnone, hrest⟩ | hopens
        · exact Or.inl ⟨hnone, hrest.trans hskip.symm⟩
        · exact Or.inr (hopens.congr hskip.symm)
      · next hblank =>
        exact ⟨List.suffix_rfl, Or.inl ⟨rfl, by simp [skip, hblank]⟩⟩

theorem unary_succ (h : readUnary depth (fuel + 1) s = .ok (e, rest)) (he : OfValue e) :
    Opens s ∧ Closes s rest := by
  rw [readUnary] at h
  obtain ⟨hsuffix, hcases⟩ := readSigns_cases s
  generalize readSigns s = found at h hsuffix hcases
  obtain ⟨signs, after⟩ := found
  dsimp only at hsuffix hcases
  obtain ⟨⟨first, after'⟩, hfirst, h⟩ := except_bind_eq_ok.1 h
  obtain ⟨⟨e', after''⟩, hunion, h⟩ := except_bind_eq_ok.1 h
  obtain ⟨rfl, rfl⟩ := Prod.mk.inj (Except.ok.inj h)
  obtain ⟨hfirstValue, rfl⟩ := ih.union hunion (ofValue_of_negated he)
  obtain ⟨hopens, hcloses⟩ := ih.path hfirst hfirstValue
  refine ⟨?_, (hcloses.of_suffix hsuffix).skip⟩
  rcases hcases with ⟨-, hskip⟩ | hopens'
  · exact hopens.congr (by rw [hskip, skip_skip])
  · exact hopens'

theorem union_succ {left : Expr} (h : readUnion depth (fuel + 1) left s = .ok (e, rest))
    (he : OfValue e) : OfValue left ∧ rest = s := by
  unfold readUnion at h
  split at h
  · obtain ⟨⟨right, after⟩, -, h⟩ := except_bind_eq_ok.1 h
    cases (ih.union h he).1
  · obtain ⟨rfl, rfl⟩ := Prod.mk.inj (Except.ok.inj h)
    exact ⟨he, rfl⟩

theorem path_succ (h : readPath depth (fuel + 1) s = .ok (e, rest)) (he : OfValue e) :
    Opens s ∧ Closes s rest := by
  have hopens (h : Opens (skip s)) : Opens s := h.congr (skip_skip s)
  have hcloses {rest : List Char} (h : Closes (skip s) rest) : Closes s rest :=
    h.of_suffix (skip_suffix s)
  obtain ⟨isPath, hstarts⟩ := exists_startsPath? h
  cases isPath with
  | true =>
    by_cases htop : ∃ after, skip s = '/' :: after
    · obtain ⟨after, htop⟩ := htop
      rw [readPath_of_top htop] at h
      cases ih.fromTop h he
    · rw [readPath_of_steps hstarts (not_exists.1 htop)] at h
      obtain ⟨-, hc, ho⟩ := ih.steps h he
      refine ⟨hopens (ho.resolve_left ?_), hcloses hc⟩
      rwa [skip_skip]
  | false =>
    rw [readPath_of_primary hstarts] at h
    obtain ⟨⟨first, after⟩, hprimary, h⟩ := except_bind_eq_ok.1 h
    obtain ⟨⟨second, after'⟩, hfilters, h⟩ := except_bind_eq_ok.1 h
    dsimp only at h
    have hoperand (hvalue : OfValue second) : Opens s ∧ Closes s after' := by
      obtain ⟨rfl, rfl⟩ := ih.filters hfilters hvalue
      obtain ⟨ho, hc⟩ := ih.primary hprimary hstarts hvalue
      exact ⟨hopens ho, (hcloses hc).skip⟩
    split at h
    · obtain ⟨rfl, -⟩ := ih.steps h he
      cases he
    · obtain ⟨rfl, hc, -⟩ := ih.steps h he
      obtain ⟨ho, hc'⟩ := hoperand he
      exact ⟨ho, hc.of_suffix hc'.suffix⟩
    · obtain ⟨rfl, rfl⟩ := Prod.mk.inj (Except.ok.inj h)
      exact hoperand he

theorem fromTop_succ {first : Expr} (h : readFromTop depth (fuel + 1) first s = .ok (e, rest))
    (he : OfValue e) : OfValue first := by
  unfold readFromTop at h
  split at h
  · obtain ⟨⟨e', after⟩, hsteps, h⟩ := except_bind_eq_ok.1 h
    have he' := ih.fromTop h he
    obtain ⟨rfl, -⟩ := ih.steps hsteps he'
    cases he'
  · dsimp only at h
    split at h
    · obtain ⟨⟨e', after⟩, hsteps, h⟩ := except_bind_eq_ok.1 h
      have he' := ih.fromTop h he
      exact (ih.steps hsteps he').1 ▸ he'
    · exact ih.fromTop h he
  · obtain ⟨rfl, -⟩ := Prod.mk.inj (Except.ok.inj h)
    exact he

omit ih in
theorem step_succ {first : Expr} (h : readStep depth (fuel + 1) first s = .ok (e, rest))
    (he : OfValue e) : e = first ∧ Closes s rest ∧ Opens s := by
  unfold readStep at h
  split at h
  · obtain ⟨rfl, -⟩ := Prod.mk.inj (Except.ok.inj h)
    cases he
  · next after hnot hdot =>
    obtain ⟨rfl, rfl⟩ := Prod.mk.inj (Except.ok.inj h)
    have hpoint : Closes s (skip after) := by
      refine (closes_cons (c := '.') (by decide)).skip.of_suffix ?_
      rw [← hdot]
      exact skip_suffix s
    refine ⟨rfl, hpoint, '.', after, hdot, by decide, by decide, fun _ hafter => ?_⟩
    obtain ⟨after', rfl⟩ : ∃ after', after = '.' :: after' := by
      cases after with
      | nil => cases hafter
      | cons c after' => exact ⟨after', by rw [Option.some.inj hafter]⟩
    exact hnot _ rfl
  · obtain ⟨⟨⟨axis, test⟩, after⟩, -, h⟩ := except_bind_eq_ok.1 h
    obtain ⟨⟨predicates, after'⟩, -, h⟩ := except_bind_eq_ok.1 h
    obtain ⟨rfl, -⟩ := Prod.mk.inj (Except.ok.inj h)
    cases he

theorem moreSteps_succ {first : Expr}
    (h : readMoreSteps depth (fuel + 1) first s = .ok (e, rest)) (he : OfValue e) :
    e = first ∧ (rest = s ∨ Closes s rest) := by
  unfold readMoreSteps at h
  split at h
  · obtain ⟨⟨e', after⟩, hstep, h⟩ := except_bind_eq_ok.1 h
    obtain ⟨rfl, -⟩ := ih.moreSteps h he
    obtain ⟨rfl, -⟩ := ih.step hstep he
    cases he
  · next after _ =>
    obtain ⟨⟨e', after'⟩, hstep, h⟩ := except_bind_eq_ok.1 h
    obtain ⟨rfl, hmore⟩ := ih.moreSteps h he
    obtain ⟨rfl, hcloses, -⟩ := ih.step hstep he
    have hcloses' : Closes ('/' :: after) (skip after') :=
      (hcloses.of_suffix ((skip_suffix after).trans (List.suffix_cons _ _))).skip
    refine ⟨rfl, Or.inr ?_⟩
    rcases hmore with rfl | hmore
    · exact hcloses'
    · exact hmore.of_suffix hcloses'.suffix
  · obtain ⟨rfl, rfl⟩ := Prod.mk.inj (Except.ok.inj h)
    exact ⟨rfl, Or.inl rfl⟩

theorem steps_succ {first : Expr} (h : readSteps depth (fuel + 1) first s = .ok (e, rest))
    (he : OfValue e) :
    e = first ∧ Closes s rest ∧ ((∃ after, skip s = '/' :: after) ∨ Opens s) := by
  unfold readSteps at h
  split at h
  next first' after heq =>
  obtain ⟨⟨e', after'⟩, hstep, h⟩ := except_bind_eq_ok.1 h
  obtain ⟨rfl, hmore⟩ := ih.moreSteps h he
  obtain ⟨rfl, hcloses, hopens⟩ := ih.step hstep he
  have hcloses' : Closes after rest := by
    rcases hmore with rfl | hmore
    · exact hcloses.skip
    · exact hmore.of_suffix hcloses.skip.suffix
  split at heq
  · obtain ⟨rfl, -⟩ := Prod.mk.inj heq
    cases he
  · next tail _ hslash =>
    obtain ⟨rfl, rfl⟩ := Prod.mk.inj heq
    refine ⟨rfl, hcloses'.of_suffix ?_, Or.inl ⟨_, hslash⟩⟩
    exact (skip_suffix tail).trans ((List.suffix_cons '/' tail).trans (hslash ▸ skip_suffix s))
  · obtain ⟨rfl, rfl⟩ := Prod.mk.inj heq
    exact ⟨rfl, hcloses'.of_suffix (skip_suffix s), Or.inr (hopens.congr (skip_skip s))⟩

theorem filters_succ {first : Expr} (h : readFilters depth (fuel + 1) first s = .ok (e, rest))
    (he : OfValue e) : e = first ∧ rest = s := by
  unfold readFilters at h
  split at h
  · obtain ⟨⟨p, after⟩, -, h⟩ := except_bind_eq_ok.1 h
    obtain ⟨rfl, -⟩ := ih.filters h he
    cases he
  · obtain ⟨rfl, rfl⟩ := Prod.mk.inj (Except.ok.inj h)
    exact ⟨rfl, rfl⟩

theorem arguments_succ {es : List Expr}
    (h : readArguments depth (fuel + 1) s = .ok (es, rest)) (hes : ∀ e ∈ es, OfValue e) :
    (s = [] ∧ rest = []) ∨ Closes s rest := by
  unfold readArguments at h
  split at h
  · obtain ⟨-, rfl⟩ := Prod.mk.inj (Except.ok.inj h)
    exact Or.inl ⟨rfl, rfl⟩
  · obtain ⟨⟨e, after⟩, hnested, h⟩ := except_bind_eq_ok.1 h
    have hsuffix (he : OfValue e) : after <:+ s := (ih.nested hnested he).2.suffix
    dsimp only at h
    split at h
    · obtain ⟨rfl, rfl⟩ := Prod.mk.inj (Except.ok.inj h)
      exact Or.inr ((closes_cons (by decide)).of_suffix (hsuffix (hes e (by simp))))
    · next after' =>
      obtain ⟨⟨es', after''⟩, harguments, h⟩ := except_bind_eq_ok.1 h
      obtain ⟨rfl, rfl⟩ := Prod.mk.inj (Except.ok.inj h)
      have hcomma : Closes s after' :=
        (closes_cons (by decide)).of_suffix (hsuffix (hes e List.mem_cons_self))
      rcases ih.arguments harguments fun e' he' => hes e' (List.mem_cons_of_mem e he') with
        ⟨hnone, rfl⟩ | hcloses
      · exact Or.inr (hnone ▸ hcomma.skip)
      · exact Or.inr (hcloses.of_suffix hcomma.skip.suffix)
    · cases h

theorem nested_succ (h : readNested depth (fuel + 1) s = .ok (e, rest)) (he : OfValue e) :
    Opens s ∧ Closes s rest := by
  unfold readNested at h
  split at h
  · cases h
  · exact ih.level h he

omit ih in
/-- A call opens with the name of its function, and its parenthesis is a part of the text. -/
theorem opens_of_call {name : QName} {arguments : List Expr} {after opened : List Char}
    (he : OfValue (.call name arguments)) (hname : orInvalid (readQName? s) = .ok (name, after))
    (hopened : skip after = '(' :: opened) : Opens s ∧ Closes s opened := by
  cases he with
  | call hlabel _ =>
    have htext := eq_append_of_readQName? (eq_some_of_orInvalid hname)
    refine ⟨htext ▸ opens_of_valueFunction hlabel, ?_⟩
    refine (closes_cons (c := '(') (by decide)).of_suffix ?_
    rw [← hopened, htext]
    exact (skip_suffix after).trans (List.suffix_append _ _)

theorem primary_succ (h : readPrimary depth (fuel + 1) s = .ok (e, rest))
    (hstarts : startsPath? s = some false) (he : OfValue e) : Opens s ∧ Closes s rest := by
  unfold readPrimary at h
  split at h
  · split at h
    · obtain ⟨rfl, -⟩ := Prod.mk.inj (Except.ok.inj h)
      cases he
    · cases h
  · next after =>
    obtain ⟨⟨e', after'⟩, hnested, h⟩ := except_bind_eq_ok.1 h
    dsimp only at h
    split at h
    · obtain ⟨rfl, rfl⟩ := Prod.mk.inj (Except.ok.inj h)
      have hsuffix := (ih.nested hnested he).2.suffix
      refine ⟨⟨'(', after, rfl, by decide, by decide, fun h => absurd h (by decide)⟩, ?_⟩
      exact (closes_cons (by decide)).of_suffix
        (hsuffix.trans ((skip_suffix after).trans (List.suffix_cons _ _)))
    · cases h
  · next after =>
    obtain ⟨⟨found, after'⟩, hliteral, h⟩ := except_bind_eq_ok.1 h
    obtain ⟨-, rfl⟩ := Prod.mk.inj (Except.ok.inj h)
    exact ⟨⟨_, after, rfl, by decide, by decide, fun h => absurd h (by decide)⟩,
      closes_readLiteral hliteral⟩
  · next after =>
    obtain ⟨⟨found, after'⟩, hliteral, h⟩ := except_bind_eq_ok.1 h
    obtain ⟨-, rfl⟩ := Prod.mk.inj (Except.ok.inj h)
    exact ⟨⟨_, after, rfl, by decide, by decide, fun h => absurd h (by decide)⟩,
      closes_readLiteral hliteral⟩
  · next c after _ _ hdouble hsingle =>
    split at h
    · next hnumeral =>
      obtain ⟨⟨x, after'⟩, hread, h⟩ := except_bind_eq_ok.1 h
      obtain ⟨-, rfl⟩ := Prod.mk.inj (Except.ok.inj h)
      exact ⟨opens_of_numeral hnumeral hstarts, closes_readNumber (eq_some_of_orInvalid hread)⟩
    · obtain ⟨⟨name, after'⟩, hname, h⟩ := except_bind_eq_ok.1 h
      dsimp only at h
      split at h
      · next opened hopened =>
        split at h
        · next closed hclosed =>
          obtain ⟨rfl, rfl⟩ := Prod.mk.inj (Except.ok.inj h)
          obtain ⟨hopens, hparenthesis⟩ := opens_of_call he hname hopened
          refine ⟨hopens, (closes_cons (c := ')') (by decide)).of_suffix ?_⟩
          rw [← hclosed]
          exact (skip_suffix opened).trans hparenthesis.suffix
        · obtain ⟨⟨arguments, after''⟩, harguments, h⟩ := except_bind_eq_ok.1 h
          obtain ⟨rfl, rfl⟩ := Prod.mk.inj (Except.ok.inj h)
          obtain ⟨hopens, hparenthesis⟩ := opens_of_call he hname hopened
          -- without an argument the text ends with the parenthesis
          refine ⟨hopens, ?_⟩
          have hvalues : ∀ e ∈ arguments, OfValue e := by
            cases he with
            | call _ hvalues => exact hvalues
          rcases ih.arguments harguments hvalues with ⟨hnone, rfl⟩ | hcloses
          · exact hnone ▸ hparenthesis.skip
          · exact hcloses.of_suffix hparenthesis.skip.suffix
      · cases h
  · cases h

end Step

/-- **What is read as an expression over values opens and closes as such texts do.** -/
theorem readsValues (fuel : Nat) : ReadsValues fuel := by
  induction fuel with
  | zero =>
    -- without fuel nothing is read
    constructor <;> intros <;>
      simp_all only [readLevel, readOperands, readUnary, readUnion, readPath, readFromTop,
        readSteps, readMoreSteps, readStep, readFilters, readPrimary, readArguments, readNested,
        reduceCtorEq]
  | succ fuel ih =>
    exact
      { level := level_succ ih
        operands := operands_succ ih
        unary := unary_succ ih
        union := union_succ ih
        path := path_succ ih
        fromTop := fromTop_succ ih
        steps := steps_succ ih
        moreSteps := moreSteps_succ ih
        step := step_succ
        filters := filters_succ ih
        primary := primary_succ ih
        arguments := arguments_succ ih
        nested := nested_succ ih }

end Grammar

variable {s : String} {e : Expr}

open Grammar in
theorem opens_closes_of_read (h : Expr.read s = .ok e) (he : OfValue e) :
    Opens s.toList ∧ Closes s.toList [] := by
  unfold Expr.read at h
  obtain ⟨⟨e', rest⟩, hnested, h⟩ := except_bind_eq_ok.1 h
  dsimp only at h
  split at h
  · next hrest =>
    obtain rfl := Except.ok.inj h
    exact List.isEmpty_iff.1 hrest ▸ (readsValues _).nested hnested he
  · cases h

/-- Without blanks around it, the text of an expression over values begins with no slash and not
with two dots. -/
theorem exists_cons_of_read (h : Expr.read s = .ok e) (he : OfValue e)
    (htrim : Text.IsTrimmed isXmlBlank s.toList) :
    ∃ c rest, s.toList = c :: rest ∧ isBlank c = false ∧ c ≠ '/' ∧
      (c = '.' → rest.head? ≠ some '.') := by
  obtain ⟨c, rest, hskip, hprops⟩ := (opens_closes_of_read h he).1
  have hself : Grammar.skip s.toList = s.toList := by
    cases hs : s.toList with
    | nil => rfl
    | cons d tail =>
      have hd : isXmlBlank d = false := htrim.head d (by rw [hs]; rfl)
      rw [Grammar.skip, List.dropWhile_cons_of_neg (by rw [hd]; decide)]
  exact ⟨c, rest, hself.symm.trans hskip, hprops⟩

/-- Without blanks around it, it has no other white space around it. -/
theorem isTrimmed_of_read (h : Expr.read s = .ok e) (he : OfValue e)
    (htrim : Text.IsTrimmed isXmlBlank s.toList) : Text.IsTrimmed isBlank s.toList := by
  constructor
  · obtain ⟨c, rest, hs, hc, -⟩ := exists_cons_of_read h he htrim
    intro d hd
    obtain rfl : c = d := by simpa [hs] using hd
    exact hc
  · obtain ⟨before, c, blanks, hs, hc, hblanks⟩ := (opens_closes_of_read h he).2
    rw [List.append_nil] at hs
    intro d hd
    rcases List.eq_nil_or_concat blanks with rfl | ⟨front, b, rfl⟩
    · obtain rfl : c = d := by simpa [hs] using hd
      exact hc
    · -- a blank at the end is excluded
      have hlast : b ∈ s.toList.getLast? := by
        rw [hs, List.concat_eq_append, ← List.cons_append, ← List.append_assoc]
        exact List.getLast?_concat
      have hb := hblanks b (by simp)
      rw [htrim.last b hlast] at hb
      cases hb

end PagePlan.XPath
