/-
# Texts that go on

An expression may stand inside a larger text: what follows it is blanks and then a bar or a closing
parenthesis, and neither can belong to a name, a number or an operator.  So whatever the grammar
reads at the front of a text by looking at characters alone is read in the same way if the text goes
on.  Where a text has been read to its end the blanks that follow it are dropped with its own ones,
which is what `followed` says.

One lemma for each such reader; those of the axis and the node test of a step come last.
-/
import PagePlan.Proofs.XPath.ValueExpression
import Mathlib.Data.List.TakeDrop

namespace PagePlan.XPath

open Text (isXmlBlank)

namespace Grammar

/-- The characters that can follow an expression. -/
def enders : List Char := ['\t', '\n', '\r', ' ', '|', ')']

/-- A text that can follow an expression: blanks, and then a bar, a closing parenthesis or the
end. -/
structure Ends (t : List Char) : Prop where
  head : ∀ c ∈ t.head?, c ∈ enders
  next : ∀ c ∈ (skip t).head?, c = '|' ∨ c = ')'

/-- The text `s` with `t` after it; the blanks at the front of `t` are dropped if nothing of `s` was
left. -/
def followed (s t : List Char) : List Char := if s.isEmpty then skip t else s ++ t

variable {s t u rest : List Char}

@[simp] theorem followed_nil (t : List Char) : followed [] t = skip t := rfl

@[simp] theorem followed_cons (c : Char) (s t : List Char) : followed (c :: s) t = c :: (s ++ t) :=
  rfl

theorem followed_of_ne_nil (h : s ≠ []) : followed s t = s ++ t := by
  cases s with
  | nil => exact absurd rfl h
  | cons c s => rfl

theorem followed_nil_right (s : List Char) : followed s [] = s := by
  cases s with
  | nil => rfl
  | cons c s => rw [followed_cons, List.append_nil]

/-- A text that is not read to its end keeps what follows it as it is. -/
theorem followed_of_stops (h : s = [] → t = []) : followed s t = s ++ t := by
  cases s with
  | nil => rw [h rfl]; rfl
  | cons c s => rfl

theorem skip_append (s t : List Char) : skip (s ++ t) = followed (skip s) t :=
  List.dropWhile_append

theorem skip_followed (s t : List Char) : skip (followed s t) = followed (skip s) t := by
  cases s with
  | nil => exact skip_skip t
  | cons c s => exact skip_append (c :: s) t

theorem ends_nil : Ends [] := ⟨nofun, nofun⟩

/-- What holds of no character that can follow holds of none at the front. -/
theorem Ends.forall_head (ht : Ends t) {p : Char → Bool} (hp : enders.all fun c => !p c) :
    ∀ c ∈ t.head?, p c = false := by
  intro c hc
  simpa using List.all_eq_true.1 hp c (ht.head c hc)

theorem takeWhile_eq_nil {p : Char → Bool} (h : ∀ c ∈ t.head?, p c = false) :
    t.takeWhile p = [] := by
  cases t with
  | nil => rfl
  | cons c t => rw [List.takeWhile_cons_of_neg (by rw [h c rfl]; decide)]

theorem dropWhile_eq_self {p : Char → Bool} (h : ∀ c ∈ t.head?, p c = false) :
    t.dropWhile p = t := by
  cases t with
  | nil => rfl
  | cons c t => rw [List.dropWhile_cons_of_neg (by rw [h c rfl]; decide)]

/-- A run of characters ends at what follows. -/
theorem takeWhile_append_of_head {p : Char → Bool} (h : ∀ c ∈ t.head?, p c = false) :
    (s ++ t).takeWhile p = s.takeWhile p := by
  rw [List.takeWhile_append, takeWhile_eq_nil h, List.append_nil]
  split
  · next hall => exact ((List.takeWhile_prefix p).eq_of_length hall).symm
  · rfl

theorem dropWhile_append_of_head {p : Char → Bool} (h : ∀ c ∈ t.head?, p c = false) :
    (s ++ t).dropWhile p = s.dropWhile p ++ t := by
  rw [List.dropWhile_append, dropWhile_eq_self h]
  split
  · next hall => rw [List.isEmpty_iff.1 hall, List.nil_append]
  · rfl

section

variable (ht : Ends t)

include ht

theorem Ends.takeWhile_append {p : Char → Bool} (hp : enders.all fun c => !p c) :
    (s ++ t).takeWhile p = s.takeWhile p :=
  takeWhile_append_of_head (ht.forall_head hp)

theorem Ends.dropWhile_append {p : Char → Bool} (hp : enders.all fun c => !p c) :
    (s ++ t).dropWhile p = s.dropWhile p ++ t :=
  dropWhile_append_of_head (ht.forall_head hp)

/-- A text begins with no other character because more follows it. -/
theorem Ends.append_ne_cons {c : Char} (hc : c ∉ enders) (hs : ∀ after, s ≠ c :: after) :
    ∀ after, s ++ t ≠ c :: after := by
  rintro after h
  cases s with
  | nil => exact hc (ht.head c (by rw [← List.nil_append t, h]; rfl))
  | cons d s => exact hs s (by rw [(List.cons.inj h).1])

theorem Ends.followed_ne_cons {c : Char} (hc : c ∉ enders) (hs : ∀ after, s ≠ c :: after) :
    ∀ after, followed s t ≠ c :: after := by
  rintro after h
  cases s with
  | nil =>
    refine hc ?_
    rcases ht.next c (by rw [← followed_nil t, h]; rfl) with rfl | rfl <;> decide
  | cons d s => exact hs s (by rw [(List.cons.inj h).1])

/-! ### Names, literals and numbers -/

theorem readNamePart?_append {name : String} (h : Text.readNamePart? s = some (name, rest)) :
    Text.readNamePart? (s ++ t) = some (name, rest ++ t) := by
  have hnot : enders.all fun c => !Text.isNameChar c := by decide +kernel
  cases s with
  | nil => cases h
  | cons c s =>
    rw [List.cons_append, Text.readNamePart?]
    rw [Text.readNamePart?] at h
    split at h
    · next hstart =>
      obtain ⟨rfl, rfl⟩ := Prod.mk.inj (Option.some.inj h)
      rw [if_pos hstart, ht.takeWhile_append hnot, ht.dropWhile_append hnot]
    · cases h

/-- A text that does not begin with a colon is not continued by one. -/
theorem readQName?_append {name : QName} (h : readQName? s = some (name, rest)) :
    readQName? (s ++ t) = some (name, rest ++ t) := by
  unfold readQName? at h ⊢
  obtain ⟨⟨first, after⟩, hfirst, h⟩ := Option.bind_eq_some_iff.1 h
  rw [readNamePart?_append ht hfirst]
  dsimp only [bind, Option.bind] at h ⊢
  split at h
  · obtain ⟨⟨second, after'⟩, hsecond, h⟩ := Option.bind_eq_some_iff.1 h
    obtain ⟨rfl, rfl⟩ := Prod.mk.inj (Option.some.inj h)
    simp only [List.cons_append, readNamePart?_append ht hsecond]
    rfl
  · next hcolon =>
    obtain ⟨rfl, rfl⟩ := Prod.mk.inj (Option.some.inj h)
    split
    · next heq => exact absurd heq (ht.append_ne_cons (by decide) hcolon _)
    · rfl

omit ht in
theorem readLiteral_append {found : String} (h : readLiteral s = .ok (found, rest)) :
    readLiteral (s ++ t) = .ok (found, rest ++ t) := by
  obtain ⟨q, letters, hq, hletters, rfl, rfl⟩ := readLiteral_eq_ok_iff.1 h
  refine readLiteral_eq_ok_iff.2 ⟨q, letters, hq, hletters, ?_, rfl⟩
  simp only [List.cons_append, List.append_assoc]

/-- An exponent after its letter. -/
theorem readExponent_letter_append :
    Number.readExponent ('e' :: (s ++ t)) =
      ((Number.readExponent ('e' :: s)).1, (Number.readExponent ('e' :: s)).2 ++ t) := by
  have hdigit : enders.all fun c => !c.isDigit := by decide
  rcases s with _ | ⟨c, s⟩
  · -- no sign and no digit follows
    have hsign {c : Char} (hc : c ∉ enders) (after : List Char) : t ≠ c :: after := fun h =>
      hc (ht.head c (by rw [h]; rfl))
    have hminus := hsign (c := '-') (by decide)
    have hplus := hsign (c := '+') (by decide)
    simp [Number.readExponent, takeWhile_eq_nil (ht.forall_head hdigit),
      dropWhile_eq_self (ht.forall_head hdigit)]
  · by_cases hminus : c = '-'
    · subst hminus
      simp [Number.readExponent, ht.takeWhile_append hdigit, ht.dropWhile_append hdigit]
    · by_cases hplus : c = '+'
      · subst hplus
        simp [Number.readExponent, ht.takeWhile_append hdigit, ht.dropWhile_append hdigit]
      · have htake := ht.takeWhile_append (s := c :: s) hdigit
        have hdrop := ht.dropWhile_append (s := c :: s) hdigit
        rw [List.cons_append] at htake hdrop
        simp [Number.readExponent, hminus, hplus, htake, hdrop]

theorem readExponent_append :
    Number.readExponent (s ++ t) =
      ((Number.readExponent s).1, (Number.readExponent s).2 ++ t) := by
  rcases s with _ | ⟨c, s⟩
  · have hletter {c : Char} (hc : c ∉ enders) (after : List Char) : t ≠ c :: after := fun h =>
      hc (ht.head c (by rw [h]; rfl))
    have he := hletter (c := 'e') (by decide)
    have hE := hletter (c := 'E') (by decide)
    simp [Number.readExponent]
  · by_cases he : c = 'e'
    · subst he
      exact readExponent_letter_append ht
    · by_cases hE : c = 'E'
      · subst hE
        exact readExponent_letter_append ht
      · simp [Number.readExponent, he, hE]

theorem readNumber_append {x : Binary64} (h : Number.read? s = some (x, rest)) :
    Number.read? (s ++ t) = some (x, rest ++ t) := by
  have hdigit : enders.all fun c => !c.isDigit := by decide
  unfold Number.read? at h ⊢
  rw [ht.takeWhile_append hdigit, ht.dropWhile_append hdigit]
  generalize s.takeWhile Char.isDigit = whole, s.dropWhile Char.isDigit = tail at h ⊢
  -- an exponent is read after the places, or after the whole part if no point follows it
  by_cases hpoint : ∃ places, tail = '.' :: places
  · obtain ⟨places, rfl⟩ := hpoint
    simp only [List.cons_append, ht.takeWhile_append hdigit, ht.dropWhile_append hdigit,
      readExponent_append ht] at h ⊢
    generalize Number.readExponent (places.dropWhile Char.isDigit) = found at h ⊢
    obtain ⟨_ | e, after⟩ := found <;> simp_all
  · have hnot : ∀ places, tail ≠ '.' :: places := not_exists.1 hpoint
    have hnot' := ht.append_ne_cons (by decide) hnot
    simp only [readExponent_append ht] at h ⊢
    generalize Number.readExponent tail = found at h ⊢
    obtain ⟨_ | e, after⟩ := found <;> simp_all

/-! ### Operators, signs and the beginnings of operands -/

/-- A word without a character that can follow does not come about by one. -/
theorem afterFront?_append {word : List Char} (hword : ∀ c ∈ word, c ∉ enders) :
    Text.afterFront? word (s ++ t) = (Text.afterFront? word s).map (· ++ t) := by
  have hfront : word <+: s ++ t ↔ word <+: s := by
    refine ⟨fun h => ?_, fun h => h.trans (List.prefix_append s t)⟩
    refine (List.prefix_or_prefix_of_prefix h (List.prefix_append s t)).elim id fun hlong => ?_
    obtain ⟨more, rfl⟩ := hlong
    obtain ⟨after, hafter⟩ := (List.prefix_append_right_inj s).1 h
    cases more with
    | nil => rw [List.append_nil]
    | cons c more =>
      have hc : c ∈ enders := ht.head c (by rw [← hafter]; rfl)
      exact absurd hc (hword c (by simp))
  unfold Text.afterFront?
  simp only [List.isPrefixOf_iff_prefix, hfront]
  split
  · next h => rw [Option.map_some, List.drop_append_of_le_length h.length_le]
  · rfl

theorem readOperator?_append (level : Nat) :
    readOperator? level (s ++ t) = (readOperator? level s).map fun x => (x.1, x.2 ++ t) := by
  have hwords : operators.all fun entries => entries.all fun entry =>
      entry.1.toList.all fun c => !enders.contains c := by decide
  simp only [List.all_eq_true, Bool.not_eq_true', List.contains_eq_mem, decide_eq_false_iff_not]
    at hwords
  have hentries : ∀ entry ∈ (operators[level]?).getD [], ∀ c ∈ entry.1.toList, c ∉ enders := by
    cases hlevel : operators[level]? with
    | none => nofun
    | some entries => exact hwords entries (List.mem_of_getElem? hlevel)
  unfold readOperator?
  generalize (operators[level]?).getD [] = entries at hentries
  induction entries with
  | nil => rfl
  | cons entry entries ih =>
    obtain ⟨word, op⟩ := entry
    rw [List.findSome?_cons, List.findSome?_cons]
    dsimp only
    rw [afterFront?_append ht (hentries (word, op) List.mem_cons_self)]
    cases Text.afterFront? word.toList s with
    | none => exact ih fun other hother => hentries other (List.mem_cons_of_mem _ hother)
    | some after => rfl

omit ht in
theorem readSigns_skip (s : List Char) : readSigns (skip s) = readSigns s := by
  induction s with
  | nil => rfl
  | cons c s ih =>
    by_cases hc : isXmlBlank c = true
    · have hdash : ¬(c == '-') = true := by
        rintro hdash
        rw [beq_iff_eq.1 hdash] at hc
        cases hc
      have hskip : skip (c :: s) = skip s := List.dropWhile_cons_of_pos hc
      rw [hskip, ih, readSigns, if_neg hdash, if_pos hc]
    · rw [skip, List.dropWhile_cons_of_neg hc]

/-- No sign follows a text. -/
theorem readSigns_ends : readSigns t = (0, skip t) := by
  rw [← readSigns_skip]
  cases hnext : skip t with
  | nil => rfl
  | cons c after =>
    rcases ht.next c (by rw [hnext]; rfl) with rfl | rfl <;> rfl

theorem readSigns_append :
    readSigns (s ++ t) = ((readSigns s).1, followed (readSigns s).2 t) := by
  induction s with
  | nil => exact readSigns_ends ht
  | cons c s ih =>
    rw [List.cons_append, readSigns, readSigns]
    split
    · rw [ih]
    · split
      · exact ih
      · rfl

theorem readSigns_followed (hu : skip u = followed (skip s) t) :
    readSigns u = ((readSigns s).1, followed (readSigns s).2 t) := by
  rw [← readSigns_skip, hu, ← readSigns_append ht, ← readSigns_skip, skip_followed, skip_skip,
    ← skip_append, readSigns_skip]

omit ht in
/-- A text that begins with no mark begins with a number or a name, and a name starts a path unless
it is called. -/
theorem startsPath?_of_plain {c : Char}
    (hmark : c ∉ ['$', '(', '\x22', '\x27', '*', '/', '@']) (hpoint : c ≠ '.') (s : List Char) :
    startsPath? (c :: s) =
      if c.isDigit then some false
      else if !(Text.isNameStart c || c == ':') then none
      else
        let name := (c :: s).takeWhile fun c => Text.isNameChar c || c == ':'
        if Text.contains [':', ':'] name then some true
        else match skip ((c :: s).drop name.length) with
          | '(' :: _ => some (NodeTest.kinds.contains (String.ofList name))
          | _ => some true := by
  simp only [List.mem_cons, List.not_mem_nil, or_false, not_or] at hmark
  conv_lhs => unfold startsPath?
  split
  case h_10 heq =>
    obtain ⟨rfl, rfl⟩ := List.cons.inj heq
    rfl
  all_goals simp_all

theorem startsPath?_append {b : Bool} (h : startsPath? s = some b) :
    startsPath? (s ++ t) = some b := by
  have hname : enders.all fun c => !(Text.isNameChar c || c == ':') := by decide +kernel
  rcases s with _ | ⟨c, s⟩
  · cases h
  by_cases hmark : c ∈ ['$', '(', '\x22', '\x27', '*', '/', '@']
  · simp only [List.mem_cons, List.not_mem_nil, or_false] at hmark
    rcases hmark with rfl | rfl | rfl | rfl | rfl | rfl | rfl <;> exact h
  · by_cases hpoint : c = '.'
    · subst hpoint
      rcases s with _ | ⟨d, s⟩
      · -- no digit follows the point
        rcases t with _ | ⟨d, t⟩
        · exact h
        · have hd : d.isDigit = false := ht.forall_head (by decide) d rfl
          simp_all [startsPath?]
      · exact h
    · have htake := ht.takeWhile_append (s := c :: s) hname
      have hdrop : (c :: s ++ t).drop
            ((c :: s).takeWhile fun c => Text.isNameChar c || c == ':').length =
          (c :: s).drop ((c :: s).takeWhile fun c => Text.isNameChar c || c == ':').length ++ t :=
        List.drop_append_of_le_length (List.takeWhile_prefix _).length_le
      rw [List.cons_append] at htake hdrop ⊢
      rw [startsPath?_of_plain hmark hpoint] at h ⊢
      dsimp only at h ⊢
      rw [htake, hdrop, skip_append]
      split_ifs at h ⊢
      all_goals try exact h
      -- no parenthesis opens behind a name
      generalize skip _ = after at h ⊢
      rcases after with _ | ⟨d, after⟩
      · split
        · next heq =>
          have hnone (after : List Char) : [] ≠ '(' :: after := (List.cons_ne_nil _ _).symm
          exact absurd heq (ht.followed_ne_cons (by decide) hnone _)
        · exact h
      · rw [followed_cons]
        by_cases hd : d = '('
        · rw [hd] at h ⊢
          exact h
        · simp_all

/-! ### Node tests -/

omit ht in
theorem skip_append_of_skip_eq_cons {c : Char} {after : List Char} (h : skip s = c :: after) :
    skip (s ++ t) = c :: (after ++ t) := by
  rw [skip_append, h, followed_cons]

omit ht in
/-- What has been read up to a closing parenthesis is closed by it. -/
theorem closing_append {found test : NodeTest}
    (h : (match skip s with
      | ')' :: rest => pure (found, rest)
      | _ => .error .unclosedTest : Except Problem (NodeTest × List Char)) = .ok (test, rest)) :
    (match skip (s ++ t) with
      | ')' :: rest => pure (found, rest)
      | _ => .error .unclosedTest : Except Problem (NodeTest × List Char)) =
      .ok (test, rest ++ t) := by
  split at h
  · next after hclose =>
    rw [skip_append_of_skip_eq_cons hclose]
    cases h
    rfl
  · cases h

omit ht in
/-- A test for a kind of node is closed by its parenthesis. -/
theorem readKindTest_append {kind : String} {test : NodeTest}
    (h : readKindTest kind s = .ok (test, rest)) :
    readKindTest kind (s ++ t) = .ok (test, rest ++ t) := by
  unfold readKindTest at h ⊢
  simp only [bind, Except.bind] at h ⊢
  split_ifs at h ⊢
  · exact closing_append h
  · exact closing_append h
  · exact closing_append h
  · split at h
    · next after hclose =>
      rw [skip_append_of_skip_eq_cons hclose]
      cases h
      rfl
    · next hopen =>
      -- the target of an instruction is quoted
      split at h
      · cases h
      · next found hliteral =>
        cases hs : skip s with
        | nil =>
          rw [hs] at hliteral
          cases hliteral
        | cons c after =>
          rw [hs] at hliteral hopen
          rw [skip_append_of_skip_eq_cons hs]
          split
          · next heq =>
            obtain ⟨rfl, -⟩ := List.cons.inj heq
            exact absurd rfl (hopen after)
          · rw [← List.cons_append, readLiteral_append hliteral]
            exact closing_append h

theorem readNodeTestAfter_append {name : String} {test : NodeTest}
    (h : readNodeTestAfter name s = .ok (test, rest)) :
    ∃ after, readNodeTestAfter name (s ++ t) = .ok (test, after) ∧
      skip after = followed (skip rest) t := by
  unfold readNodeTestAfter at h ⊢
  split at h
  · next after hopen =>
    rw [skip_append, hopen, followed_cons]
    exact ⟨rest ++ t, readKindTest_append h, skip_append _ _⟩
  · next hopen =>
    have hopen' : ∀ after, skip (s ++ t) ≠ '(' :: after := by
      rw [skip_append]
      exact ht.followed_ne_cons (by decide) hopen
    split
    · next heq => exact absurd heq (hopen' _)
    · split at h
      · next after _ =>
        obtain ⟨rfl, rfl⟩ := Prod.mk.inj (Except.ok.inj h)
        exact ⟨after ++ t, rfl, skip_append _ _⟩
      · next after hstar _ =>
        obtain ⟨⟨label, after'⟩, hlabel, h⟩ := except_bind_eq_ok.1 h
        obtain ⟨rfl, rfl⟩ := Prod.mk.inj (Except.ok.inj h)
        have hlabel' := readNamePart?_append ht (eq_some_of_orInvalid hlabel)
        refine ⟨after' ++ t, ?_, skip_append _ _⟩
        rw [List.cons_append]
        split
        · next heq =>
          cases after with
          | nil => cases hlabel
          | cons c after =>
            obtain ⟨-, heq⟩ := List.cons.inj heq
            obtain ⟨rfl, -⟩ := List.cons.inj heq
            exact absurd rfl (hstar after)
        · next heq =>
          obtain ⟨-, rfl⟩ := List.cons.inj heq
          rw [hlabel']
          rfl
        · next hcolon => exact absurd rfl (hcolon _)
      · next hcolon =>
        obtain ⟨rfl, rfl⟩ := Prod.mk.inj (Except.ok.inj h)
        have hcolon' := ht.append_ne_cons (by decide) hcolon
        refine ⟨skip (s ++ t), ?_, by rw [skip_skip, skip_skip, skip_append]⟩
        split
        · next heq => exact absurd heq (hcolon' _)
        · next heq => exact absurd heq (hcolon' _)
        · rfl

theorem readNodeTest_append {test : NodeTest} (h : readNodeTest s = .ok (test, rest)) :
    ∃ after, readNodeTest (s ++ t) = .ok (test, after) ∧
      skip after = followed (skip rest) t := by
  unfold readNodeTest at h ⊢
  rw [skip_append]
  cases hs : skip s with
  | nil =>
    rw [hs] at h
    cases h
  | cons c s' =>
    rw [hs] at h
    rw [followed_cons]
    by_cases hstar : c = '*'
    · subst hstar
      obtain ⟨rfl, rfl⟩ := Prod.mk.inj (Except.ok.inj h)
      exact ⟨s' ++ t, rfl, skip_append _ _⟩
    · split at h
      · next heq => exact absurd (List.cons.inj heq).1 hstar
      · obtain ⟨⟨name, after⟩, hname, h⟩ := except_bind_eq_ok.1 h
        obtain ⟨after', hafter, hskip⟩ := readNodeTestAfter_append ht h
        refine ⟨after', ?_, hskip⟩
        split
        · next heq => exact absurd (List.cons.inj heq).1 hstar
        · rw [← List.cons_append, except_bind_eq_ok]
          refine ⟨(name, after ++ t), ?_, hafter⟩
          rw [readNamePart?_append ht (eq_some_of_orInvalid hname)]
          rfl

/-- What follows begins with no colon. -/
theorem exists_colons {after : List Char} (h : skip (s ++ t) = ':' :: ':' :: after) :
    ∃ after', skip s = ':' :: ':' :: after' := by
  rw [skip_append] at h
  generalize skip s = s' at h ⊢
  rcases s' with _ | ⟨c, _ | ⟨d, s'⟩⟩
  · exact absurd h (ht.followed_ne_cons (s := []) (by decide) nofun _)
  · rw [followed_cons] at h
    exact absurd (List.cons.inj h).2 (ht.append_ne_cons (s := []) (by decide) nofun _)
  · rw [followed_cons, List.cons_append] at h
    obtain ⟨rfl, htail⟩ := List.cons.inj h
    obtain ⟨rfl, -⟩ := List.cons.inj htail
    exact ⟨s', rfl⟩

theorem readAxisAndTest_append {found : Axis × NodeTest}
    (h : readAxisAndTest s = .ok (found, rest)) :
    ∃ after, readAxisAndTest (s ++ t) = .ok (found, after) ∧
      skip after = followed (skip rest) t := by
  unfold readAxisAndTest at h ⊢
  rcases s with _ | ⟨c, s⟩
  · cases h
  rw [List.cons_append]
  by_cases hstar : c = '*'
  · subst hstar
    obtain ⟨rfl, rfl⟩ := Prod.mk.inj (Except.ok.inj h)
    exact ⟨s ++ t, rfl, skip_append _ _⟩
  by_cases hat : c = '@'
  · subst hat
    obtain ⟨⟨test, after⟩, htest, h⟩ := except_bind_eq_ok.1 h
    obtain ⟨rfl, rfl⟩ := Prod.mk.inj (Except.ok.inj h)
    obtain ⟨after', hafter, hskip⟩ := readNodeTest_append ht htest
    refine ⟨after', ?_, hskip⟩
    simp only [hafter]
    rfl
  · split at h
    · next heq => exact absurd (List.cons.inj heq).1 hstar
    · next heq => exact absurd (List.cons.inj heq).1 hat
    · obtain ⟨⟨name, after⟩, hname, h⟩ := except_bind_eq_ok.1 h
      have hname' := readNamePart?_append ht (eq_some_of_orInvalid hname)
      rw [List.cons_append] at hname'
      dsimp only at h
      split
      · next heq => exact absurd (List.cons.inj heq).1 hstar
      · next heq => exact absurd (List.cons.inj heq).1 hat
      split at h
      · next axis after' haxis hcolons =>
        obtain ⟨⟨test, after''⟩, htest, h⟩ := except_bind_eq_ok.1 h
        obtain ⟨rfl, rfl⟩ := Prod.mk.inj (Except.ok.inj h)
        obtain ⟨behind, hbehind, hskip⟩ := readNodeTest_append ht htest
        have hcolons' : skip (after ++ t) = ':' :: ':' :: (after' ++ t) := by
          rw [skip_append, hcolons]
          rfl
        refine ⟨behind, except_bind_eq_ok.2 ⟨(name, after ++ t), by rw [hname']; rfl, ?_⟩, hskip⟩
        simp only [haxis, hcolons', hbehind]
        rfl
      · next hnot =>
        obtain ⟨⟨test, after'⟩, htest, h⟩ := except_bind_eq_ok.1 h
        obtain ⟨rfl, rfl⟩ := Prod.mk.inj (Except.ok.inj h)
        obtain ⟨behind, hbehind, hskip⟩ := readNodeTestAfter_append ht htest
        refine ⟨behind, except_bind_eq_ok.2 ⟨(name, after ++ t), by rw [hname']; rfl, ?_⟩, hskip⟩
        dsimp only
        split
        · next axis opened haxis hcolons =>
          obtain ⟨opened', hcolons'⟩ := exists_colons ht hcolons
          exact absurd hcolons' (hnot axis opened' haxis)
        · rw [hbehind]
          rfl

end

end Grammar

end PagePlan.XPath
