/-
# Reading in front of more text

What the grammar reads at the front of a text does not change if more text follows that can follow
an expression, nor if there is more fuel and depth than was needed.  For most rules this needs that
something of the text was left: a call may leave its parenthesis open at the end, so that a longer
text would be read on.  A path of steps has no such ending; it is read in front of anything.

As the rules call each other, what holds of all of them is one structure, `ReadsOn`, and its proof
one induction on the fuel with a lemma for each rule.

* `readsOn` — every rule reads on.
-/
import PagePlan.Proofs.XPath.Followed

namespace PagePlan.XPath

open Text (isXmlBlank)

namespace Grammar

/-- What a rule of the grammar reads with some depth and fuel. -/
abbrev Rule (α : Type) := Nat → Nat → List Char → Except Problem (α × List Char)

/-- `u` is `s` with `t` after it, apart from the blanks at the front. -/
def Loosely (s t u : List Char) : Prop := skip u = followed (skip s) t

/-- `u` is `s` with `t` after it; `s` has no blanks at the front. -/
def Exactly (s t u : List Char) : Prop := u = followed s t

/-- A rule leaves nothing of no text, and it reads the same in front of more text, with no less
depth and fuel.  If it is a rule that has to stop `early` for that, something of the text has to be
left. -/
def Continues {α : Type} (given : List Char → List Char → List Char → Prop) (early : Prop)
    (rule : Rule α) (fuel : Nat) : Prop :=
  ∀ depth s a rest, rule depth fuel s = .ok (a, rest) → (s = [] → rest = []) ∧
    ∀ depth', depth ≤ depth' → ∀ fuel', fuel ≤ fuel' → ∀ t, Ends t →
      (early → rest = [] → t = []) → ∀ u, given s t u →
        rule depth' fuel' u = .ok (a, followed rest t)

/-- What holds of the rules with some fuel. -/
structure ReadsOn (fuel : Nat) : Prop where
  level (n : Nat) : Continues Loosely True (fun d f s => readLevel d f n s) fuel
  operands (n : Nat) (left : Expr) :
    Continues Exactly True (fun d f s => readOperands d f n left s) fuel
  unary : Continues Loosely True readUnary fuel
  union (left : Expr) : Continues Exactly True (fun d f s => readUnion d f left s) fuel
  path : Continues Loosely True readPath fuel
  fromTop (e : Expr) : Continues Exactly False (fun d f s => readFromTop d f e s) fuel
  steps (e : Expr) : Continues Loosely False (fun d f s => readSteps d f e s) fuel
  moreSteps (e : Expr) : Continues Exactly False (fun d f s => readMoreSteps d f e s) fuel
  step (e : Expr) : Continues Loosely False (fun d f s => readStep d f e s) fuel
  predicates : Continues Exactly False readPredicates fuel
  filters (e : Expr) : Continues Exactly False (fun d f s => readFilters d f e s) fuel
  predicate : Continues Loosely False readPredicate fuel
  primary : Continues Exactly True readPrimary fuel
  arguments : Continues Exactly True readArguments fuel
  nested : Continues Loosely True readNested fuel

/-- With more fuel only the recursive calls matter. -/
theorem Continues.succ {α : Type} {given : List Char → List Char → List Char → Prop} {early : Prop}
    {rule : Rule α} {fuel : Nat}
    (h : ∀ depth s a rest, rule depth (fuel + 1) s = .ok (a, rest) → (s = [] → rest = []) ∧
      ∀ depth', depth ≤ depth' → ∀ fuel', fuel ≤ fuel' → ∀ t, Ends t →
        (early → rest = [] → t = []) → ∀ u, given s t u →
          rule depth' (fuel' + 1) u = .ok (a, followed rest t)) :
    Continues given early rule (fuel + 1) := by
  intro depth s a rest hread
  obtain ⟨hnil, hmore⟩ := h depth s a rest hread
  refine ⟨hnil, fun depth' hdepth fuel' hfuel => ?_⟩
  obtain ⟨fuel', rfl⟩ := Nat.exists_eq_add_one_of_ne_zero (Nat.ne_zero_of_lt hfuel)
  exact hmore depth' hdepth fuel' (Nat.le_of_succ_le_succ hfuel)

/-! ### The cases of the rules -/

section Equations

variable {depth fuel : Nat} {e : Expr} {s rest : List Char}

theorem readUnion_bar (left : Expr) : readUnion depth (fuel + 1) left ('|' :: rest) = (do
    let (right, rest) ← readPath depth fuel (skip rest)
    readUnion depth fuel (.union left right) (skip rest)) := by
  conv_lhs => unfold readUnion
  rfl

theorem readUnion_of_other {left : Expr} (h : ∀ rest, s ≠ '|' :: rest) :
    readUnion depth (fuel + 1) left s = .ok (left, s) := by
  unfold readUnion
  split
  · exact absurd rfl (h _)
  · rfl

/-- One slash or two, or none. -/
theorem slashes_cases (s : List Char) : (∃ rest, s = '/' :: '/' :: rest) ∨
    (∃ rest, s = '/' :: rest ∧ ∀ after, rest ≠ '/' :: after) ∨ ∀ rest, s ≠ '/' :: rest := by
  by_cases h : ∃ rest, s = '/' :: rest
  · obtain ⟨rest, rfl⟩ := h
    by_cases h : ∃ after, rest = '/' :: after
    · obtain ⟨after, rfl⟩ := h
      exact Or.inl ⟨after, rfl⟩
    · exact Or.inr (Or.inl ⟨rest, rfl, not_exists.1 h⟩)
  · exact Or.inr (Or.inr (not_exists.1 h))

theorem readMoreSteps_slashes : readMoreSteps depth (fuel + 1) e ('/' :: '/' :: rest) = (do
    let (e, rest) ← readStep depth fuel (.step e .anyBelow) (skip rest)
    readMoreSteps depth fuel e (skip rest)) := by
  conv_lhs => unfold readMoreSteps
  rfl

theorem readMoreSteps_slash (h : ∀ after, rest ≠ '/' :: after) :
    readMoreSteps depth (fuel + 1) e ('/' :: rest) = (do
      let (e, rest) ← readStep depth fuel e (skip rest)
      readMoreSteps depth fuel e (skip rest)) := by
  conv_lhs => unfold readMoreSteps
  split
  · next heq => exact absurd (List.cons.inj heq).2 (h _)
  · next heq => rw [(List.cons.inj heq).2]
  · next hnot => exact absurd rfl (hnot _)

theorem readMoreSteps_of_other (h : ∀ rest, s ≠ '/' :: rest) :
    readMoreSteps depth (fuel + 1) e s = .ok (e, s) := by
  unfold readMoreSteps
  split
  · exact absurd rfl (h _)
  · exact absurd rfl (h _)
  · rfl

theorem readFromTop_slashes : readFromTop depth (fuel + 1) e ('/' :: '/' :: rest) = (do
    let (e, rest) ← readSteps depth fuel (.step e .anyBelow) (skip rest)
    readFromTop depth fuel e rest) := by
  conv_lhs => unfold readFromTop
  rfl

theorem readFromTop_slash (h : ∀ after, rest ≠ '/' :: after) :
    readFromTop depth (fuel + 1) e ('/' :: rest) =
      (if startsStep (skip rest) then do
        let (e, rest) ← readSteps depth fuel e (skip rest)
        readFromTop depth fuel e rest
      else readFromTop depth fuel e (skip rest)) := by
  conv_lhs => unfold readFromTop
  split
  · next heq => exact absurd (List.cons.inj heq).2 (h _)
  · next heq => rw [(List.cons.inj heq).2]
  · next hnot => exact absurd rfl (hnot _)

theorem readFromTop_of_other (h : ∀ rest, s ≠ '/' :: rest) :
    readFromTop depth (fuel + 1) e s = .ok (e, s) := by
  unfold readFromTop
  split
  · exact absurd rfl (h _)
  · exact absurd rfl (h _)
  · rfl

theorem readSteps_slashes (h : skip s = '/' :: '/' :: rest) :
    readSteps depth (fuel + 1) e s = (do
      let (e, rest) ← readStep depth fuel (.step e .anyBelow) (skip rest)
      readMoreSteps depth fuel e (skip rest)) := by
  unfold readSteps
  rw [h]
  rfl

theorem readSteps_slash (h : skip s = '/' :: rest) (hrest : ∀ after, rest ≠ '/' :: after) :
    readSteps depth (fuel + 1) e s = (do
      let (e, rest) ← readStep depth fuel e (skip rest)
      readMoreSteps depth fuel e (skip rest)) := by
  unfold readSteps
  rw [h]
  split
  next heq =>
  split at heq
  · next heq' => exact absurd (List.cons.inj heq').2 (hrest _)
  · next heq' =>
    cases heq
    rw [(List.cons.inj heq').2]
  · next hnot => exact absurd rfl (hnot _)

theorem readSteps_of_other (h : ∀ rest, skip s ≠ '/' :: rest) :
    readSteps depth (fuel + 1) e s = (do
      let (e, rest) ← readStep depth fuel e (skip s)
      readMoreSteps depth fuel e (skip rest)) := by
  conv_lhs => unfold readSteps
  split
  next heq =>
  split at heq
  · next heq' => exact absurd heq' (h _)
  · next heq' => exact absurd heq' (h _)
  · cases heq
    rfl

/-- Two points or one, or none. -/
theorem points_cases (s : List Char) : (∃ rest, s = '.' :: '.' :: rest) ∨
    (∃ rest, s = '.' :: rest ∧ ∀ after, rest ≠ '.' :: after) ∨ ∀ rest, s ≠ '.' :: rest := by
  by_cases h : ∃ rest, s = '.' :: rest
  · obtain ⟨rest, rfl⟩ := h
    by_cases h : ∃ after, rest = '.' :: after
    · obtain ⟨after, rfl⟩ := h
      exact Or.inl ⟨after, rfl⟩
    · exact Or.inr (Or.inl ⟨rest, rfl, not_exists.1 h⟩)
  · exact Or.inr (Or.inr (not_exists.1 h))

theorem readStep_points (h : skip s = '.' :: '.' :: rest) :
    readStep depth (fuel + 1) e s = .ok (.step e .above, skip rest) := by
  unfold readStep
  rw [h]
  rfl

theorem readStep_point (h : skip s = '.' :: rest) (hrest : ∀ after, rest ≠ '.' :: after) :
    readStep depth (fuel + 1) e s = .ok (e, skip rest) := by
  unfold readStep
  rw [h]
  split
  · next heq => exact absurd (List.cons.inj heq).2 (hrest _)
  · next heq => rw [(List.cons.inj heq).2]; rfl
  · next hnot => exact absurd rfl (hnot _)

theorem readStep_of_other (h : ∀ rest, skip s ≠ '.' :: rest) :
    readStep depth (fuel + 1) e s = (do
      let ((axis, test), rest) ← readAxisAndTest (skip s)
      let (predicates, rest) ← readPredicates depth fuel (skip rest)
      return (.step e (.mk axis test predicates), rest)) := by
  conv_lhs => unfold readStep
  split
  · next heq => exact absurd heq (h _)
  · next heq => exact absurd heq (h _)
  · rfl

theorem readPrimary_variable : readPrimary depth (fuel + 1) ('$' :: rest) =
    match readQName? rest with
    | some (_, rest) => .ok (.variable, rest)
    | none => .error .variableName := by
  conv_lhs => unfold readPrimary
  rfl

theorem readPrimary_open : readPrimary depth (fuel + 1) ('(' :: rest) = (do
    let (e, rest) ← readNested depth fuel (skip rest)
    match rest with
    | ')' :: rest => return (e, rest)
    | _ => .error .expression) := by
  conv_lhs => unfold readPrimary
  rfl

theorem readPrimary_quote {c : Char} (hc : c = '\x22' ∨ c = '\x27') :
    readPrimary depth (fuel + 1) (c :: rest) = (do
      let (t, rest) ← readLiteral (c :: rest)
      return (.literal t, rest)) := by
  rcases hc with rfl | rfl <;> (conv_lhs => unfold readPrimary) <;> rfl

/-- What stands after the name of a call. -/
def readCall (depth fuel : Nat) (name : QName) (s : List Char) :
    Except Problem (Expr × List Char) :=
  match skip s with
  | '(' :: rest => do
    let (arguments, rest) ← match skip rest with
      | ')' :: rest => .ok ([], rest)
      | rest => readArguments depth fuel rest
    return (.call name arguments, rest)
  | _ => .error .expression

theorem readCall_open {name : QName} (h : skip s = '(' :: rest) :
    readCall depth fuel name s = (do
      let (arguments, rest) ← match skip rest with
        | ')' :: rest => .ok ([], rest)
        | rest => readArguments depth fuel rest
      return (.call name arguments, rest)) := by
  unfold readCall
  rw [h]
  rfl

/-- The characters that tell other operands from numbers and calls. -/
def IsMark (c : Char) : Prop := c = '$' ∨ c = '(' ∨ c = '\x22' ∨ c = '\x27'

theorem readPrimary_of_not_isMark {c : Char} (hc : ¬IsMark c) :
    readPrimary depth (fuel + 1) (c :: s) =
      if c.isDigit || c == '.' then (do
        let (x, rest) ← orInvalid (Number.read? (c :: s))
        return (.number x, rest))
      else (do
        let (name, rest) ← orInvalid (readQName? (c :: s))
        readCall depth fuel name rest) := by
  simp only [IsMark, not_or] at hc
  obtain ⟨hvariable, hopen, hdouble, hsingle⟩ := hc
  conv_lhs => unfold readPrimary
  split
  · next heq => exact absurd (List.cons.inj heq).1 hvariable
  · next heq => exact absurd (List.cons.inj heq).1 hopen
  · next heq => exact absurd (List.cons.inj heq).1 hdouble
  · next heq => exact absurd (List.cons.inj heq).1 hsingle
  · next heq =>
    obtain ⟨rfl, rfl⟩ := List.cons.inj heq
    rfl
  · next heq => cases heq

end Equations

section

variable {s t u rest : List Char}

theorem loosely_skip (s t : List Char) : Loosely (skip s) t (skip (s ++ t)) := by
  rw [Loosely, skip_skip, skip_skip, skip_append]

theorem loosely_append (s t : List Char) : Loosely s t (s ++ t) := skip_append s t

/-- A text that is read to its end begins with no other character, as nothing follows it. -/
theorem followed_ne_cons_of_stops {c : Char} (hstop : s = [] → t = [])
    (h : ∀ after, s ≠ c :: after) : ∀ after, followed s t ≠ c :: after := by
  rintro after hafter
  cases s with
  | nil =>
    rw [hstop rfl] at hafter
    cases hafter
  | cons d s => exact h s (by rw [(List.cons.inj hafter).1])

theorem ne_nil_of_skip {c : Char} {after : List Char} (h : skip s = c :: after) : s ≠ [] := by
  rintro rfl
  cases h

/-- No operator stands in no text. -/
theorem readOperator?_nil (n : Nat) : readOperator? n [] = none := by
  have hwords : ∀ entries ∈ operators, ∀ entry ∈ entries,
      Text.afterFront? entry.1.toList ([] : List Char) = none := by decide
  unfold readOperator?
  cases hlevel : operators[n]? with
  | none => rfl
  | some entries =>
    refine List.findSome?_eq_none_iff.2 fun entry hentry => ?_
    dsimp only
    rw [hwords entries (List.mem_of_getElem? hlevel) entry hentry]
    rfl

theorem exactly_skip (s t : List Char) : Exactly (skip s) t (skip (followed s t)) :=
  skip_followed s t

theorem exactly_skip_append (s t : List Char) : Exactly (skip s) t (skip (s ++ t)) :=
  skip_append s t

theorem loosely_followed (s t : List Char) : Loosely s t (followed s t) := skip_followed s t

/-- A rule that leaves nothing to the next one has left nothing at all. -/
theorem stops_of_next {r : List Char} (hrest : skip r = [] → rest = [])
    (h : True → rest = [] → t = []) : True → r = [] → t = [] := fun _ hr =>
  h trivial (hrest (by rw [hr]; rfl))

/-- Nothing that follows begins a step. -/
theorem startsStep_followed (ht : Ends t) (s : List Char) :
    startsStep (followed s t) = startsStep s := by
  cases s with
  | nil =>
    rw [followed_nil]
    cases hnext : skip t with
    | nil => rfl
    | cons c after =>
      rcases ht.next c (by rw [hnext]; rfl) with rfl | rfl <;> rfl
  | cons c s => rfl

end

section Step

variable {fuel : Nat} (ih : ReadsOn fuel)

include ih

theorem level_continues (n : Nat) :
    Continues Loosely True (fun d f s => readLevel d f n s) (fuel + 1) := by
  refine .succ fun depth s e rest h => ?_
  rw [readLevel] at h
  split at h
  · next hlast =>
    obtain ⟨hnil, hunary⟩ := ih.unary _ _ _ _ h
    refine ⟨hnil, fun depth' hdepth fuel' hfuel t ht hstop u hu => ?_⟩
    rw [readLevel, if_pos hlast]
    exact hunary depth' hdepth fuel' hfuel t ht hstop u hu
  · next hlast =>
    obtain ⟨⟨left, after⟩, hleft, h⟩ := except_bind_eq_ok.1 h
    obtain ⟨hafter, hleft⟩ := ih.level (n + 1) _ _ _ _ hleft
    obtain ⟨hrest, hmore⟩ := ih.operands n left _ _ _ _ h
    refine ⟨fun hs => hrest (by rw [hafter hs]; rfl),
      fun depth' hdepth fuel' hfuel t ht hstop u hu => ?_⟩
    have hleft := hleft depth' hdepth fuel' hfuel t ht (stops_of_next hrest hstop) u hu
    have hmore := hmore depth' hdepth fuel' hfuel t ht hstop _ (exactly_skip after t)
    rw [readLevel, if_neg hlast]
    exact except_bind_eq_ok.2 ⟨_, hleft, hmore⟩

theorem operands_continues (n : Nat) (left : Expr) :
    Continues Exactly True (fun d f s => readOperands d f n left s) (fuel + 1) := by
  refine .succ fun depth s e rest h => ?_
  rw [readOperands] at h
  split at h
  · next hnone =>
    obtain ⟨rfl, rfl⟩ := Prod.mk.inj (Except.ok.inj h)
    refine ⟨id, fun depth' hdepth fuel' hfuel t ht hstop u hu => ?_⟩
    -- an operator cannot begin in what was left and end in what follows
    rw [hu, readOperands, followed_of_stops (hstop trivial), readOperator?_append ht, hnone]
    rfl
  · next op after hop =>
    obtain ⟨⟨right, after'⟩, hright, h⟩ := except_bind_eq_ok.1 h
    obtain ⟨hafter', hright⟩ := ih.level (n + 1) _ _ _ _ hright
    obtain ⟨hrest, hmore⟩ := ih.operands n _ _ _ _ _ h
    have hnil : s = [] → rest = [] := fun hs => by rw [hs, readOperator?_nil] at hop; cases hop
    refine ⟨hnil, fun depth' hdepth fuel' hfuel t ht hstop u hu => ?_⟩
    have hright := hright depth' hdepth fuel' hfuel t ht (stops_of_next hrest hstop) _
      (loosely_skip after t)
    have hmore := hmore depth' hdepth fuel' hfuel t ht hstop _ (exactly_skip after' t)
    rw [hu, readOperands, followed_of_stops fun hs => hstop trivial (hnil hs),
      readOperator?_append ht, hop]
    exact except_bind_eq_ok.2 ⟨_, hright, hmore⟩

theorem unary_continues : Continues Loosely True readUnary (fuel + 1) := by
  refine .succ fun depth s e rest h => ?_
  rw [readUnary] at h
  obtain ⟨⟨first, after⟩, hfirst, h⟩ := except_bind_eq_ok.1 h
  obtain ⟨⟨e', after'⟩, hunion, h⟩ := except_bind_eq_ok.1 h
  obtain ⟨rfl, rfl⟩ := Prod.mk.inj (Except.ok.inj h)
  obtain ⟨hafter, hfirst⟩ := ih.path _ _ _ _ hfirst
  obtain ⟨hrest, hunion⟩ := ih.union _ _ _ _ _ hunion
  refine ⟨fun hs => hrest (by rw [hafter (by rw [hs]; rfl)]; rfl),
    fun depth' hdepth fuel' hfuel t ht hstop u hu => ?_⟩
  have hfirst := hfirst depth' hdepth fuel' hfuel t ht (stops_of_next hrest hstop) _
    (loosely_followed _ t)
  have hunion := hunion depth' hdepth fuel' hfuel t ht hstop _ (exactly_skip after t)
  rw [readUnary, readSigns_followed ht hu]
  exact except_bind_eq_ok.2 ⟨_, hfirst, except_bind_eq_ok.2 ⟨_, hunion, rfl⟩⟩

theorem union_continues (left : Expr) :
    Continues Exactly True (fun d f s => readUnion d f left s) (fuel + 1) := by
  refine .succ fun depth s e rest h => ?_
  unfold readUnion at h
  split at h
  · next after =>
    obtain ⟨⟨right, after'⟩, hright, h⟩ := except_bind_eq_ok.1 h
    obtain ⟨hafter', hright⟩ := ih.path _ _ _ _ hright
    obtain ⟨hrest, hunion⟩ := ih.union _ _ _ _ _ h
    refine ⟨fun hs => absurd hs (List.cons_ne_nil _ _),
      fun depth' hdepth fuel' hfuel t ht hstop u hu => ?_⟩
    have hright := hright depth' hdepth fuel' hfuel t ht (stops_of_next hrest hstop) _
      (loosely_skip after t)
    have hunion := hunion depth' hdepth fuel' hfuel t ht hstop _ (exactly_skip after' t)
    rw [hu, followed_cons, readUnion_bar]
    exact except_bind_eq_ok.2 ⟨_, hright, hunion⟩
  · next hbar =>
    obtain ⟨rfl, rfl⟩ := Prod.mk.inj (Except.ok.inj h)
    refine ⟨id, fun depth' hdepth fuel' hfuel t ht hstop u hu => ?_⟩
    -- a bar that follows would be read on at, so here the rule must have stopped early
    rw [hu]
    exact readUnion_of_other (followed_ne_cons_of_stops (hstop trivial) hbar)

/-- A step with the steps after it. -/
theorem stepAndMore_continues (e : Expr) : Continues Loosely False (fun d f s => do
    let (e, rest) ← readStep d f e s
    readMoreSteps d f e (skip rest)) fuel := by
  intro depth s e' rest h
  obtain ⟨⟨first, after⟩, hstep, h⟩ := except_bind_eq_ok.1 h
  obtain ⟨hafter, hstep⟩ := ih.step _ _ _ _ _ hstep
  obtain ⟨hrest, hmore⟩ := ih.moreSteps _ _ _ _ _ h
  refine ⟨fun hs => hrest (by rw [hafter hs]; rfl),
    fun depth' hdepth fuel' hfuel t ht _ u hu => ?_⟩
  have hstep := hstep depth' hdepth fuel' hfuel t ht False.elim u hu
  have hmore := hmore depth' hdepth fuel' hfuel t ht False.elim _ (exactly_skip after t)
  exact except_bind_eq_ok.2 ⟨_, hstep, hmore⟩

theorem moreSteps_continues (e : Expr) :
    Continues Exactly False (fun d f s => readMoreSteps d f e s) (fuel + 1) := by
  refine .succ fun depth s e' rest h => ?_
  rcases slashes_cases s with ⟨after, rfl⟩ | ⟨after, rfl, hslash⟩ | hslash
  · rw [readMoreSteps_slashes] at h
    obtain ⟨hrest, hmore⟩ := stepAndMore_continues ih _ _ _ _ _ h
    refine ⟨fun hs => absurd hs (List.cons_ne_nil _ _),
      fun depth' hdepth fuel' hfuel t ht _ u hu => ?_⟩
    rw [hu, followed_cons, List.cons_append, readMoreSteps_slashes]
    exact hmore depth' hdepth fuel' hfuel t ht False.elim _ (loosely_skip after t)
  · rw [readMoreSteps_slash hslash] at h
    obtain ⟨hrest, hmore⟩ := stepAndMore_continues ih _ _ _ _ _ h
    refine ⟨fun hs => absurd hs (List.cons_ne_nil _ _),
      fun depth' hdepth fuel' hfuel t ht _ u hu => ?_⟩
    rw [hu, followed_cons, readMoreSteps_slash (ht.append_ne_cons (by decide) hslash)]
    exact hmore depth' hdepth fuel' hfuel t ht False.elim _ (loosely_skip after t)
  · rw [readMoreSteps_of_other hslash] at h
    obtain ⟨rfl, rfl⟩ := Prod.mk.inj (Except.ok.inj h)
    refine ⟨id, fun depth' hdepth fuel' hfuel t ht _ u hu => ?_⟩
    rw [hu]
    exact readMoreSteps_of_other (ht.followed_ne_cons (by decide) hslash)

theorem steps_continues (e : Expr) :
    Continues Loosely False (fun d f s => readSteps d f e s) (fuel + 1) := by
  refine .succ fun depth s e' rest h => ?_
  rcases slashes_cases (skip s) with ⟨after, hs⟩ | ⟨after, hs, hslash⟩ | hslash
  · rw [readSteps_slashes hs] at h
    obtain ⟨hrest, hmore⟩ := stepAndMore_continues ih _ _ _ _ _ h
    refine ⟨fun hnil => absurd hnil (ne_nil_of_skip hs),
      fun depth' hdepth fuel' hfuel t ht _ u hu => ?_⟩
    have hu : skip u = '/' :: '/' :: (after ++ t) := by rw [hu, hs]; rfl
    rw [readSteps_slashes hu]
    exact hmore depth' hdepth fuel' hfuel t ht False.elim _ (loosely_skip after t)
  · rw [readSteps_slash hs hslash] at h
    obtain ⟨hrest, hmore⟩ := stepAndMore_continues ih _ _ _ _ _ h
    refine ⟨fun hnil => absurd hnil (ne_nil_of_skip hs),
      fun depth' hdepth fuel' hfuel t ht _ u hu => ?_⟩
    have hu : skip u = '/' :: (after ++ t) := by rw [hu, hs]; rfl
    rw [readSteps_slash hu (ht.append_ne_cons (by decide) hslash)]
    exact hmore depth' hdepth fuel' hfuel t ht False.elim _ (loosely_skip after t)
  · rw [readSteps_of_other hslash] at h
    obtain ⟨hrest, hmore⟩ := stepAndMore_continues ih _ _ _ _ _ h
    refine ⟨fun hs => hrest (by rw [hs]; rfl), fun depth' hdepth fuel' hfuel t ht _ u hu => ?_⟩
    rw [readSteps_of_other (hu ▸ ht.followed_ne_cons (by decide) hslash)]
    exact hmore depth' hdepth fuel' hfuel t ht False.elim _
      (by rw [Loosely, skip_skip, skip_skip, hu])

theorem fromTop_continues (e : Expr) :
    Continues Exactly False (fun d f s => readFromTop d f e s) (fuel + 1) := by
  refine .succ fun depth s e' rest h => ?_
  rcases slashes_cases s with ⟨after, rfl⟩ | ⟨after, rfl, hslash⟩ | hslash
  · rw [readFromTop_slashes] at h
    obtain ⟨⟨first, after'⟩, hsteps, h⟩ := except_bind_eq_ok.1 h
    obtain ⟨hafter', hsteps⟩ := ih.steps _ _ _ _ _ hsteps
    obtain ⟨hrest, hmore⟩ := ih.fromTop _ _ _ _ _ h
    refine ⟨fun hs => absurd hs (List.cons_ne_nil _ _),
      fun depth' hdepth fuel' hfuel t ht _ u hu => ?_⟩
    have hsteps := hsteps depth' hdepth fuel' hfuel t ht False.elim _ (loosely_skip after t)
    have hmore := hmore depth' hdepth fuel' hfuel t ht False.elim _ rfl
    rw [hu, followed_cons, List.cons_append, readFromTop_slashes]
    exact except_bind_eq_ok.2 ⟨_, hsteps, hmore⟩
  · rw [readFromTop_slash hslash] at h
    have hslash' {t : List Char} (ht : Ends t) := ht.append_ne_cons (by decide) hslash
    split at h
    · next hstarts =>
      obtain ⟨⟨first, after'⟩, hsteps, h⟩ := except_bind_eq_ok.1 h
      obtain ⟨hafter', hsteps⟩ := ih.steps _ _ _ _ _ hsteps
      obtain ⟨hrest, hmore⟩ := ih.fromTop _ _ _ _ _ h
      refine ⟨fun hs => absurd hs (List.cons_ne_nil _ _),
        fun depth' hdepth fuel' hfuel t ht _ u hu => ?_⟩
      have hsteps := hsteps depth' hdepth fuel' hfuel t ht False.elim _ (loosely_skip after t)
      have hmore := hmore depth' hdepth fuel' hfuel t ht False.elim _ rfl
      rw [hu, followed_cons, readFromTop_slash (hslash' ht), if_pos]
      · exact except_bind_eq_ok.2 ⟨_, hsteps, hmore⟩
      · rw [skip_append, startsStep_followed ht, hstarts]
    · next hstarts =>
      obtain ⟨hrest, hmore⟩ := ih.fromTop _ _ _ _ _ h
      refine ⟨fun hs => absurd hs (List.cons_ne_nil _ _),
        fun depth' hdepth fuel' hfuel t ht _ u hu => ?_⟩
      have hmore := hmore depth' hdepth fuel' hfuel t ht False.elim _ (exactly_skip_append after t)
      rw [hu, followed_cons, readFromTop_slash (hslash' ht), if_neg]
      · exact hmore
      · rwa [skip_append, startsStep_followed ht]
  · rw [readFromTop_of_other hslash] at h
    obtain ⟨rfl, rfl⟩ := Prod.mk.inj (Except.ok.inj h)
    refine ⟨id, fun depth' hdepth fuel' hfuel t ht _ u hu => ?_⟩
    rw [hu]
    exact readFromTop_of_other (ht.followed_ne_cons (by decide) hslash)

theorem step_continues (e : Expr) :
    Continues Loosely False (fun d f s => readStep d f e s) (fuel + 1) := by
  refine .succ fun depth s e' rest h => ?_
  rcases points_cases (skip s) with ⟨after, hs⟩ | ⟨after, hs, hpoint⟩ | hpoint
  · rw [readStep_points hs] at h
    obtain ⟨rfl, rfl⟩ := Prod.mk.inj (Except.ok.inj h)
    refine ⟨fun hnil => absurd hnil (ne_nil_of_skip hs),
      fun depth' hdepth fuel' hfuel t ht _ u hu => ?_⟩
    have hu : skip u = '.' :: '.' :: (after ++ t) := by rw [hu, hs]; rfl
    rw [readStep_points hu, skip_append]
  · rw [readStep_point hs hpoint] at h
    obtain ⟨rfl, rfl⟩ := Prod.mk.inj (Except.ok.inj h)
    refine ⟨fun hnil => absurd hnil (ne_nil_of_skip hs),
      fun depth' hdepth fuel' hfuel t ht _ u hu => ?_⟩
    have hu : skip u = '.' :: (after ++ t) := by rw [hu, hs]; rfl
    rw [readStep_point hu (ht.append_ne_cons (by decide) hpoint), skip_append]
  · rw [readStep_of_other hpoint] at h
    obtain ⟨⟨⟨axis, test⟩, after⟩, htest, h⟩ := except_bind_eq_ok.1 h
    obtain ⟨⟨predicates, after'⟩, hpredicates, h⟩ := except_bind_eq_ok.1 h
    obtain ⟨rfl, rfl⟩ := Prod.mk.inj (Except.ok.inj h)
    obtain ⟨hrest, hpredicates⟩ := ih.predicates _ _ _ _ hpredicates
    have hne : skip s ≠ [] := by
      rintro hnil
      rw [hnil] at htest
      cases htest
    refine ⟨fun hs => absurd (by rw [hs]; rfl) hne,
      fun depth' hdepth fuel' hfuel t ht _ u hu => ?_⟩
    obtain ⟨behind, htest, hbehind⟩ := readAxisAndTest_append ht htest
    have hpredicates := hpredicates depth' hdepth fuel' hfuel t ht False.elim _ hbehind
    rw [readStep_of_other (hu ▸ ht.followed_ne_cons (by decide) hpoint), hu,
      followed_of_ne_nil hne]
    exact except_bind_eq_ok.2 ⟨_, htest, except_bind_eq_ok.2 ⟨_, hpredicates, rfl⟩⟩

theorem predicate_continues : Continues Loosely False readPredicate (fuel + 1) := by
  refine .succ fun depth s p rest h => ?_
  rw [readPredicate] at h
  obtain ⟨⟨p', after⟩, hnested, h⟩ := except_bind_eq_ok.1 h
  dsimp only at h
  split at h
  · next behind =>
    obtain ⟨rfl, rfl⟩ := Prod.mk.inj (Except.ok.inj h)
    obtain ⟨hafter, hnested⟩ := ih.nested _ _ _ _ hnested
    refine ⟨fun hs => absurd (hafter (by rw [hs]; rfl)) (by simp),
      fun depth' hdepth fuel' hfuel t ht _ u hu => ?_⟩
    have hnested := hnested depth' hdepth fuel' hfuel t ht
      (fun _ hend => absurd hend (List.cons_ne_nil _ _)) (skip u)
      (by rw [Loosely, skip_skip, skip_skip, hu])
    rw [readPredicate]
    refine except_bind_eq_ok.2 ⟨_, hnested, ?_⟩
    rw [followed_cons, ← skip_append]
    rfl
  · cases h

theorem predicates_continues : Continues Exactly False readPredicates (fuel + 1) := by
  refine .succ fun depth s ps rest h => ?_
  unfold readPredicates at h
  split at h
  · next after =>
    obtain ⟨⟨p, after'⟩, hpredicate, h⟩ := except_bind_eq_ok.1 h
    obtain ⟨⟨ps', after''⟩, hpredicates, h⟩ := except_bind_eq_ok.1 h
    obtain ⟨rfl, rfl⟩ := Prod.mk.inj (Except.ok.inj h)
    obtain ⟨hafter', hpredicate⟩ := ih.predicate _ _ _ _ hpredicate
    obtain ⟨hrest, hpredicates⟩ := ih.predicates _ _ _ _ hpredicates
    refine ⟨fun hs => absurd hs (List.cons_ne_nil _ _),
      fun depth' hdepth fuel' hfuel t ht _ u hu => ?_⟩
    have hpredicate := hpredicate depth' hdepth fuel' hfuel t ht False.elim _
      (loosely_append after t)
    have hpredicates := hpredicates depth' hdepth fuel' hfuel t ht False.elim _ rfl
    rw [hu, followed_cons]
    unfold readPredicates
    exact except_bind_eq_ok.2 ⟨_, hpredicate, except_bind_eq_ok.2 ⟨_, hpredicates, rfl⟩⟩
  · next hopen =>
    obtain ⟨rfl, rfl⟩ := Prod.mk.inj (Except.ok.inj h)
    refine ⟨id, fun depth' hdepth fuel' hfuel t ht _ u hu => ?_⟩
    unfold readPredicates
    rw [hu]
    split
    · next heq => exact absurd heq (ht.followed_ne_cons (by decide) hopen _)
    · rfl

theorem filters_continues (e : Expr) :
    Continues Exactly False (fun d f s => readFilters d f e s) (fuel + 1) := by
  refine .succ fun depth s e' rest h => ?_
  unfold readFilters at h
  split at h
  · next after =>
    obtain ⟨⟨p, after'⟩, hpredicate, h⟩ := except_bind_eq_ok.1 h
    obtain ⟨hafter', hpredicate⟩ := ih.predicate _ _ _ _ hpredicate
    obtain ⟨hrest, hmore⟩ := ih.filters _ _ _ _ _ h
    refine ⟨fun hs => absurd hs (List.cons_ne_nil _ _),
      fun depth' hdepth fuel' hfuel t ht _ u hu => ?_⟩
    have hpredicate := hpredicate depth' hdepth fuel' hfuel t ht False.elim _
      (loosely_append after t)
    have hmore := hmore depth' hdepth fuel' hfuel t ht False.elim _ rfl
    rw [hu, followed_cons]
    unfold readFilters
    exact except_bind_eq_ok.2 ⟨_, hpredicate, hmore⟩
  · next hopen =>
    obtain ⟨rfl, rfl⟩ := Prod.mk.inj (Except.ok.inj h)
    refine ⟨id, fun depth' hdepth fuel' hfuel t ht _ u hu => ?_⟩
    unfold readFilters
    rw [hu]
    split
    · next heq => exact absurd heq (ht.followed_ne_cons (by decide) hopen _)
    · rfl

theorem nested_continues : Continues Loosely True readNested (fuel + 1) := by
  refine .succ fun depth s e rest h => ?_
  unfold readNested at h
  split at h
  · cases h
  · next depth =>
    obtain ⟨hrest, hlevel⟩ := ih.level 0 _ _ _ _ h
    refine ⟨hrest, fun depth' hdepth fuel' hfuel t ht hstop u hu => ?_⟩
    obtain ⟨depth', rfl⟩ := Nat.exists_eq_add_one_of_ne_zero (Nat.ne_zero_of_lt hdepth)
    unfold readNested
    exact hlevel depth' (Nat.le_of_succ_le_succ hdepth) fuel' hfuel t ht hstop u hu

theorem arguments_continues : Continues Exactly True readArguments (fuel + 1) := by
  refine .succ fun depth s es rest h => ?_
  unfold readArguments at h
  split at h
  · obtain ⟨rfl, rfl⟩ := Prod.mk.inj (Except.ok.inj h)
    refine ⟨id, fun depth' hdepth fuel' hfuel t ht hstop u hu => ?_⟩
    -- the text has been read to its end, so nothing follows
    rw [hu, hstop trivial rfl]
    unfold readArguments
    rfl
  · next hs =>
    obtain ⟨⟨e, after⟩, hfirst, h⟩ := except_bind_eq_ok.1 h
    obtain ⟨hafter, hnested⟩ := ih.nested _ _ _ _ hfirst
    clear hfirst
    refine ⟨fun hnil => absurd hnil hs, fun depth' hdepth fuel' hfuel t ht hstop u hu => ?_⟩
    have hu' : u ≠ [] := by
      rintro rfl
      rw [Exactly, followed_of_ne_nil hs] at hu
      exact hs (List.append_eq_nil_iff.1 hu.symm).1
    have hnested (hne : after ≠ []) := hnested depth' hdepth fuel' hfuel t ht
      (fun _ hnil => absurd hnil hne) u (hu ▸ loosely_followed s t)
    unfold readArguments
    split
    · exact absurd rfl hu'
    · dsimp only at h
      split at h
      · obtain ⟨rfl, rfl⟩ := Prod.mk.inj (Except.ok.inj h)
        refine except_bind_eq_ok.2 ⟨_, hnested (List.cons_ne_nil _ _), ?_⟩
        rw [followed_of_stops (hstop trivial)]
        rfl
      · obtain ⟨⟨es', after'⟩, harguments, h⟩ := except_bind_eq_ok.1 h
        obtain ⟨rfl, rfl⟩ := Prod.mk.inj (Except.ok.inj h)
        obtain ⟨-, harguments⟩ := ih.arguments _ _ _ _ harguments
        have harguments := harguments depth' hdepth fuel' hfuel t ht hstop _
          (exactly_skip_append _ t)
        exact except_bind_eq_ok.2 ⟨_, hnested (List.cons_ne_nil _ _),
          except_bind_eq_ok.2 ⟨_, harguments, rfl⟩⟩
      · cases h

theorem path_continues : Continues Loosely True readPath (fuel + 1) := by
  refine .succ fun depth s e rest h => ?_
  obtain ⟨isPath, hstarts⟩ := exists_startsPath? h
  have hne : skip s ≠ [] := by
    rintro hnil
    rw [hnil] at hstarts
    cases hstarts
  have hnil : s = [] → rest = [] := fun hs => absurd (by rw [hs]; rfl) hne
  have hstarts' {t u : List Char} (ht : Ends t) (hu : Loosely s t u) :
      startsPath? (skip u) = some isPath := by
    rw [hu, followed_of_ne_nil hne]
    exact startsPath?_append ht hstarts
  cases isPath with
  | true =>
    by_cases htop : ∃ after, skip s = '/' :: after
    · obtain ⟨after, htop⟩ := htop
      rw [readPath_of_top htop] at h
      obtain ⟨-, hpath⟩ := ih.fromTop _ _ _ _ _ h
      refine ⟨hnil, fun depth' hdepth fuel' hfuel t ht hstop u hu => ?_⟩
      have htop' : skip u = '/' :: (after ++ t) := by rw [hu, htop]; rfl
      rw [readPath_of_top htop']
      exact hpath depth' hdepth fuel' hfuel t ht False.elim _ hu
    · have htop := not_exists.1 htop
      rw [readPath_of_steps hstarts htop] at h
      obtain ⟨-, hpath⟩ := ih.steps _ _ _ _ _ h
      refine ⟨hnil, fun depth' hdepth fuel' hfuel t ht hstop u hu => ?_⟩
      rw [readPath_of_steps (hstarts' ht hu) (hu ▸ ht.followed_ne_cons (by decide) htop)]
      exact hpath depth' hdepth fuel' hfuel t ht False.elim _
        (by rw [Loosely, skip_skip, skip_skip, hu])
  | false =>
    rw [readPath_of_primary hstarts] at h
    obtain ⟨⟨first, after⟩, hprimary, h⟩ := except_bind_eq_ok.1 h
    obtain ⟨⟨second, after'⟩, hfilters, h⟩ := except_bind_eq_ok.1 h
    obtain ⟨hafter, hprimary⟩ := ih.primary _ _ _ _ hprimary
    obtain ⟨hafter', hfilters⟩ := ih.filters _ _ _ _ _ hfilters
    -- what is left after the filters is left to the rest of the path
    have hrest : after' = [] → rest = [] := by
      rintro rfl
      exact (Prod.mk.inj (Except.ok.inj h)).2.symm
    refine ⟨hnil, fun depth' hdepth fuel' hfuel t ht hstop u hu => ?_⟩
    have hprimary := hprimary depth' hdepth fuel' hfuel t ht
      (fun _ hnil => hstop trivial (hrest (hafter' (by rw [hnil]; rfl)))) (skip u) hu
    have hfilters := hfilters depth' hdepth fuel' hfuel t ht False.elim _ (exactly_skip after t)
    rw [readPath_of_primary (hstarts' ht hu)]
    refine except_bind_eq_ok.2 ⟨_, hprimary, except_bind_eq_ok.2 ⟨_, hfilters, ?_⟩⟩
    dsimp only at h ⊢
    rcases slashes_cases after' with ⟨behind, rfl⟩ | ⟨behind, rfl, hslash⟩ | hslash
    · obtain ⟨-, hsteps⟩ := ih.steps _ _ _ _ _ h
      exact hsteps depth' hdepth fuel' hfuel t ht False.elim _ (loosely_skip behind t)
    · split at h
      · next heq => exact absurd (List.cons.inj heq).2 (hslash _)
      · obtain ⟨-, hsteps⟩ := ih.steps _ _ _ _ _ h
        rw [followed_cons]
        split
        · next heq =>
          exact absurd (List.cons.inj heq).2 (ht.append_ne_cons (by decide) hslash _)
        · exact hsteps depth' hdepth fuel' hfuel t ht False.elim _
            (loosely_append ('/' :: behind) t)
        · next hnot => exact absurd rfl (hnot _)
      · next hnot => exact absurd rfl (hnot _)
    · split at h
      · exact absurd rfl (hslash _)
      · exact absurd rfl (hslash _)
      · obtain ⟨rfl, rfl⟩ := Prod.mk.inj (Except.ok.inj h)
        have hslash' := ht.followed_ne_cons (by decide) hslash
        split
        · next heq => exact absurd heq (hslash' _)
        · next heq => exact absurd heq (hslash' _)
        · rfl

theorem call_continues (name : QName) :
    Continues Loosely True (fun d f s => readCall d f name s) fuel := by
  intro depth s e rest h
  dsimp only at h
  by_cases hopen : ∃ opened, skip s = '(' :: opened
  swap
  · unfold readCall at h
    split at h
    · next opened hopened => exact absurd ⟨opened, hopened⟩ hopen
    · cases h
  obtain ⟨opened, hopened⟩ := hopen
  rw [readCall_open hopened] at h
  refine ⟨fun hs => absurd hs (ne_nil_of_skip hopened), ?_⟩
  intro depth' hdepth fuel' hfuel t ht hstop u hu
  have hopened' : skip u = '(' :: (opened ++ t) := by
    rw [hu, hopened]
    rfl
  dsimp only
  rw [readCall_open hopened']
  split at h
  · next closed hclosed =>
    obtain ⟨rfl, rfl⟩ := Prod.mk.inj (Except.ok.inj h)
    have hclosed' : skip (opened ++ t) = ')' :: (closed ++ t) := by
      rw [skip_append, hclosed]
      rfl
    rw [hclosed', followed_of_stops (hstop trivial)]
    rfl
  · next hclosed =>
    obtain ⟨⟨arguments, after⟩, harguments, h⟩ := except_bind_eq_ok.1 h
    obtain ⟨rfl, rfl⟩ := Prod.mk.inj (Except.ok.inj h)
    obtain ⟨hrest, harguments⟩ := ih.arguments _ _ _ _ harguments
    have harguments := harguments depth' hdepth fuel' hfuel t ht hstop _
      (exactly_skip_append opened t)
    have hclosed' : ∀ closed, skip (opened ++ t) ≠ ')' :: closed := by
      rw [skip_append]
      exact followed_ne_cons_of_stops (fun hs => hstop trivial (hrest hs)) hclosed
    split
    · next heq => exact absurd heq (hclosed' _)
    · exact except_bind_eq_ok.2 ⟨_, harguments, rfl⟩

/-- Numbers and calls. -/
theorem plain_continues {c : Char} (hc : ¬IsMark c) {depth : Nat} {s rest : List Char} {e : Expr}
    (h : readPrimary depth (fuel + 1) (c :: s) = .ok (e, rest)) {depth' fuel' : Nat}
    (hdepth : depth ≤ depth') (hfuel : fuel ≤ fuel') {t : List Char} (ht : Ends t)
    (hstop : rest = [] → t = []) :
    readPrimary depth' (fuel' + 1) (c :: (s ++ t)) = .ok (e, rest ++ t) := by
  rw [readPrimary_of_not_isMark hc] at h ⊢
  split at h
  · next hnumeral =>
    obtain ⟨⟨x, after⟩, hnumber, h⟩ := except_bind_eq_ok.1 h
    obtain ⟨rfl, rfl⟩ := Prod.mk.inj (Except.ok.inj h)
    have hnumber := readNumber_append ht (eq_some_of_orInvalid hnumber)
    rw [if_pos hnumeral]
    exact except_bind_eq_ok.2 ⟨(x, after ++ t), by rw [← List.cons_append, hnumber]; rfl, rfl⟩
  · next hnumeral =>
    obtain ⟨⟨name, after⟩, hname, h⟩ := except_bind_eq_ok.1 h
    have hname := readQName?_append ht (eq_some_of_orInvalid hname)
    have hcall := (call_continues ih name depth after e rest h).2 depth' hdepth fuel' hfuel t ht
      (fun _ => hstop) (after ++ t) (loosely_append after t)
    rw [followed_of_stops hstop] at hcall
    rw [if_neg hnumeral]
    exact except_bind_eq_ok.2
      ⟨(name, after ++ t), by rw [← List.cons_append, hname]; rfl, hcall⟩

theorem primary_continues : Continues Exactly True readPrimary (fuel + 1) := by
  refine .succ fun depth s e rest h => ?_
  have hnil : s = [] → rest = [] := by
    rintro rfl
    unfold readPrimary at h
    cases h
  refine ⟨hnil, fun depth' hdepth fuel' hfuel t ht hstop u hu => ?_⟩
  rw [hu, followed_of_stops (hstop trivial), followed_of_stops fun hs => hstop trivial (hnil hs)]
  rcases s with _ | ⟨c, s⟩
  · unfold readPrimary at h
    cases h
  rw [List.cons_append]
  by_cases hc : IsMark c
  · rcases hc with rfl | rfl | hquote
    · rw [readPrimary_variable] at h ⊢
      split at h
      · next name after hname =>
        obtain ⟨rfl, rfl⟩ := Prod.mk.inj (Except.ok.inj h)
        simp only [readQName?_append ht hname]
      · cases h
    · rw [readPrimary_open] at h ⊢
      obtain ⟨⟨e', after⟩, hnested, h⟩ := except_bind_eq_ok.1 h
      obtain ⟨-, hnested⟩ := ih.nested _ _ _ _ hnested
      dsimp only at h
      split at h
      · obtain ⟨rfl, rfl⟩ := Prod.mk.inj (Except.ok.inj h)
        have hnested := hnested depth' hdepth fuel' hfuel t ht
          (fun _ hend => absurd hend (List.cons_ne_nil _ _)) _ (loosely_skip s t)
        exact except_bind_eq_ok.2 ⟨_, hnested, rfl⟩
      · cases h
    · rw [readPrimary_quote hquote] at h ⊢
      obtain ⟨⟨found, after⟩, hfound, h⟩ := except_bind_eq_ok.1 h
      obtain ⟨rfl, rfl⟩ := Prod.mk.inj (Except.ok.inj h)
      exact except_bind_eq_ok.2 ⟨_, readLiteral_append (t := t) hfound, rfl⟩
  · exact plain_continues ih hc h hdepth hfuel ht (hstop trivial)

end Step

/-- **Every rule of the grammar reads the same in front of more text, with no less depth and
fuel.** -/
theorem readsOn (fuel : Nat) : ReadsOn fuel := by
  induction fuel with
  | zero =>
    -- without fuel nothing is read
    constructor <;> intros <;> intro depth s a rest h <;>
      simp only [readLevel, readOperands, readUnary, readUnion, readPath, readFromTop, readSteps,
        readMoreSteps, readStep, readPredicates, readFilters, readPredicate, readPrimary,
        readArguments, readNested, reduceCtorEq] at h
  | succ fuel ih =>
    exact
      { level := level_continues ih
        operands := operands_continues ih
        unary := unary_continues ih
        union := union_continues ih
        path := path_continues ih
        fromTop := fromTop_continues ih
        steps := steps_continues ih
        moreSteps := moreSteps_continues ih
        step := step_continues ih
        predicates := predicates_continues ih
        filters := filters_continues ih
        predicate := predicate_continues ih
        primary := primary_continues ih
        arguments := arguments_continues ih
        nested := nested_continues ih }

end Grammar

end PagePlan.XPath
