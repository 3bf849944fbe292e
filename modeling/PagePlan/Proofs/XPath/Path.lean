/-
# Location paths and their texts

A location path is a row of steps from the context node or from the top of the page.  The rules that
read steps only append to the expression that they are given, so the same text is read as the same
steps from anywhere.  A text that is read as a whole as a location path is read by these rules
alone: no operator and no union is part of it.  From its first characters one can tell where it
starts: two points are a step to the parent, and a slash is the top of the page.

* `exists_readPath` — a text of a location path is read by the rule for paths;
* `exists_moreSteps_of_read`, `ne_path_here_of_slash` — texts that begin with two points or a slash.
-/
import PagePlan.Proofs.XPath.Continuation

namespace PagePlan.XPath

/-- Steps from what an expression selects, one after the other. -/
def path (start : Expr) (steps : List Step) : Expr := steps.foldl .step start

@[simp] theorem path_nil (start : Expr) : path start [] = start := rfl

@[simp] theorem path_cons (start : Expr) (s : Step) (steps : List Step) :
    path start (s :: steps) = path (.step start s) steps := rfl

theorem path_append (start : Expr) (steps more : List Step) :
    path start (steps ++ more) = path (path start steps) more :=
  List.foldl_append

/-- Expressions that are no row of steps, but where one can begin. -/
def IsStart (e : Expr) : Prop := ∀ inner s, e ≠ .step inner s

theorem isStart_here : IsStart .here := nofun

theorem isStart_top : IsStart .top := nofun

/-- A path tells where it starts and its steps. -/
theorem path_inj {start start' : Expr} (h : IsStart start) (h' : IsStart start')
    {steps steps' : List Step} (heq : path start steps = path start' steps') :
    start = start' ∧ steps = steps' := by
  induction steps using List.reverseRecOn generalizing steps' with
  | nil =>
    rcases List.eq_nil_or_concat steps' with rfl | ⟨init, last, rfl⟩
    · exact ⟨heq, rfl⟩
    · rw [List.concat_eq_append, path_append] at heq
      exact absurd heq (h _ _)
  | append_singleton init last ih =>
    rw [path_append] at heq
    rcases List.eq_nil_or_concat steps' with rfl | ⟨init', last', rfl⟩
    · exact absurd heq.symm (h' _ _)
    · rw [List.concat_eq_append, path_append] at heq
      obtain ⟨hinit, rfl⟩ := Expr.step.inj heq
      obtain ⟨rfl, rfl⟩ := ih hinit
      rw [List.concat_eq_append]
      exact ⟨rfl, rfl⟩

namespace Grammar

variable {depth fuel : Nat} {s rest : List Char} {e e' : Expr}

/-! ### Steps from anywhere -/

/-- A step is read from anywhere. -/
theorem exists_steps_of_readStep (h : readStep depth fuel e s = .ok (e', rest)) :
    ∃ steps, ∀ start, readStep depth fuel start s = .ok (path start steps, rest) := by
  cases fuel with
  | zero =>
    unfold readStep at h
    cases h
  | succ fuel =>
    rcases points_cases (skip s) with ⟨after, hs⟩ | ⟨after, hs, hpoint⟩ | hpoint
    · rw [readStep_points hs] at h
      obtain ⟨-, rfl⟩ := Prod.mk.inj (Except.ok.inj h)
      exact ⟨[.above], fun start => readStep_points hs⟩
    · rw [readStep_point hs hpoint] at h
      obtain ⟨-, rfl⟩ := Prod.mk.inj (Except.ok.inj h)
      exact ⟨[], fun start => readStep_point hs hpoint⟩
    · rw [readStep_of_other hpoint] at h
      obtain ⟨⟨⟨axis, test⟩, after⟩, htest, h⟩ := except_bind_eq_ok.1 h
      obtain ⟨⟨predicates, after'⟩, hpredicates, h⟩ := except_bind_eq_ok.1 h
      obtain ⟨-, rfl⟩ := Prod.mk.inj (Except.ok.inj h)
      refine ⟨[.mk axis test predicates], fun start => ?_⟩
      rw [readStep_of_other hpoint]
      exact except_bind_eq_ok.2 ⟨_, htest, except_bind_eq_ok.2 ⟨_, hpredicates, rfl⟩⟩

/-- So are a step and the steps after it. -/
theorem exists_steps_of_stepAndMore
    (hmore : ∀ {e e' : Expr} {s rest : List Char},
      readMoreSteps depth fuel e s = .ok (e', rest) →
        ∃ steps, ∀ start, readMoreSteps depth fuel start s = .ok (path start steps, rest))
    (h : (do
      let (e, rest) ← readStep depth fuel e s
      readMoreSteps depth fuel e (skip rest)) = .ok (e', rest)) :
    ∃ steps, ∀ start, (do
      let (e, rest) ← readStep depth fuel start s
      readMoreSteps depth fuel e (skip rest)) = .ok (path start steps, rest) := by
  obtain ⟨⟨first, after⟩, hstep, h⟩ := except_bind_eq_ok.1 h
  obtain ⟨step, hstep⟩ := exists_steps_of_readStep hstep
  obtain ⟨steps, hmore⟩ := hmore h
  refine ⟨step ++ steps, fun start => except_bind_eq_ok.2 ⟨_, hstep start, ?_⟩⟩
  rw [path_append]
  exact hmore _

theorem exists_steps_of_readMoreSteps (h : readMoreSteps depth fuel e s = .ok (e', rest)) :
    ∃ steps, ∀ start, readMoreSteps depth fuel start s = .ok (path start steps, rest) := by
  induction fuel generalizing e s e' rest with
  | zero =>
    unfold readMoreSteps at h
    cases h
  | succ fuel ih =>
    rcases slashes_cases s with ⟨after, rfl⟩ | ⟨after, rfl, hslash⟩ | hslash
    · rw [readMoreSteps_slashes] at h
      obtain ⟨steps, hsteps⟩ := exists_steps_of_stepAndMore ih h
      refine ⟨.anyBelow :: steps, fun start => ?_⟩
      rw [readMoreSteps_slashes]
      exact hsteps _
    · rw [readMoreSteps_slash hslash] at h
      obtain ⟨steps, hsteps⟩ := exists_steps_of_stepAndMore ih h
      refine ⟨steps, fun start => ?_⟩
      rw [readMoreSteps_slash hslash]
      exact hsteps _
    · rw [readMoreSteps_of_other hslash] at h
      obtain ⟨-, rfl⟩ := Prod.mk.inj (Except.ok.inj h)
      exact ⟨[], fun start => readMoreSteps_of_other hslash⟩

theorem exists_steps_of_readSteps (h : readSteps depth fuel e s = .ok (e', rest)) :
    ∃ steps, ∀ start, readSteps depth fuel start s = .ok (path start steps, rest) := by
  cases fuel with
  | zero =>
    unfold readSteps at h
    cases h
  | succ fuel =>
    rcases slashes_cases (skip s) with ⟨after, hs⟩ | ⟨after, hs, hslash⟩ | hslash
    · rw [readSteps_slashes hs] at h
      obtain ⟨steps, hsteps⟩ := exists_steps_of_stepAndMore exists_steps_of_readMoreSteps h
      refine ⟨.anyBelow :: steps, fun start => ?_⟩
      rw [readSteps_slashes hs]
      exact hsteps _
    · rw [readSteps_slash hs hslash] at h
      obtain ⟨steps, hsteps⟩ := exists_steps_of_stepAndMore exists_steps_of_readMoreSteps h
      refine ⟨steps, fun start => ?_⟩
      rw [readSteps_slash hs hslash]
      exact hsteps _
    · rw [readSteps_of_other hslash] at h
      obtain ⟨steps, hsteps⟩ := exists_steps_of_stepAndMore exists_steps_of_readMoreSteps h
      refine ⟨steps, fun start => ?_⟩
      rw [readSteps_of_other hslash]
      exact hsteps _

theorem exists_steps_of_readFromTop (h : readFromTop depth fuel e s = .ok (e', rest)) :
    ∃ steps, e' = path e steps := by
  induction fuel generalizing e s with
  | zero =>
    unfold readFromTop at h
    cases h
  | succ fuel ih =>
    have hthen {first : Expr} {s : List Char}
        (h : (do
          let (e, rest) ← readSteps depth fuel first s
          readFromTop depth fuel e rest) = .ok (e', rest)) : ∃ steps, e' = path first steps := by
      obtain ⟨⟨second, after⟩, hsteps, h⟩ := except_bind_eq_ok.1 h
      obtain ⟨steps, hall⟩ := exists_steps_of_readSteps hsteps
      rw [hall] at hsteps
      obtain ⟨rfl, -⟩ := Prod.mk.inj (Except.ok.inj hsteps)
      obtain ⟨more, rfl⟩ := ih h
      exact ⟨steps ++ more, (path_append _ _ _).symm⟩
    rcases slashes_cases s with ⟨after, rfl⟩ | ⟨after, rfl, hslash⟩ | hslash
    · rw [readFromTop_slashes] at h
      obtain ⟨steps, rfl⟩ := hthen h
      exact ⟨.anyBelow :: steps, rfl⟩
    · rw [readFromTop_slash hslash] at h
      split at h
      · exact hthen h
      · exact ih h
    · rw [readFromTop_of_other hslash] at h
      obtain ⟨rfl, -⟩ := Prod.mk.inj (Except.ok.inj h)
      exact ⟨[], rfl⟩

/-! ### Operands without operators -/

/-- An expression of two operands. -/
inductive IsCompound : Expr → Prop
  | binary (op : Operator) (left right : Expr) : IsCompound (.binary op left right)
  | union (left right : Expr) : IsCompound (.union left right)

theorem not_isCompound_here : ¬IsCompound .here := nofun

theorem not_isCompound_path {start : Expr} (h : ¬IsCompound start) (steps : List Step) :
    ¬IsCompound (path start steps) := by
  rcases List.eq_nil_or_concat steps with rfl | ⟨init, last, rfl⟩
  · exact h
  · rw [List.concat_eq_append, path_append]
    nofun

/-- The further operands of a union are none, or it has two. -/
theorem readUnion_cases {left : Expr} (h : readUnion depth fuel left s = .ok (e, rest)) :
    (e = left ∧ rest = s) ∨ (IsCompound e ∧ s ≠ []) := by
  induction fuel generalizing left s with
  | zero =>
    unfold readUnion at h
    cases h
  | succ fuel ih =>
    by_cases hbar : ∃ after, s = '|' :: after
    · obtain ⟨after, rfl⟩ := hbar
      rw [readUnion_bar] at h
      obtain ⟨⟨right, after'⟩, -, h⟩ := except_bind_eq_ok.1 h
      refine Or.inr ⟨?_, nofun⟩
      rcases ih h with ⟨rfl, -⟩ | ⟨hcompound, -⟩
      · exact .union left right
      · exact hcompound
    · rw [readUnion_of_other (not_exists.1 hbar)] at h
      obtain ⟨rfl, rfl⟩ := Prod.mk.inj (Except.ok.inj h)
      exact Or.inl ⟨rfl, rfl⟩

theorem readOperands_cases {n : Nat} {left : Expr}
    (h : readOperands depth fuel n left s = .ok (e, rest)) :
    (e = left ∧ rest = s) ∨ (IsCompound e ∧ s ≠ []) := by
  induction fuel generalizing left s with
  | zero =>
    unfold readOperands at h
    cases h
  | succ fuel ih =>
    rw [readOperands] at h
    split at h
    · obtain ⟨rfl, rfl⟩ := Prod.mk.inj (Except.ok.inj h)
      exact Or.inl ⟨rfl, rfl⟩
    · next op after hop =>
      obtain ⟨⟨right, after'⟩, -, h⟩ := except_bind_eq_ok.1 h
      refine Or.inr ⟨?_, fun hs => by rw [hs, readOperator?_nil] at hop; cases hop⟩
      rcases ih h with ⟨rfl, -⟩ | ⟨hcompound, -⟩
      · exact .binary op left right
      · exact hcompound

/-- An expression that was read at a text is the path or operand at its front, with nothing but
blanks read after it, or it has more operands. -/
def IsFirst (e e' : Expr) (rest rest' : List Char) : Prop :=
  (e' = e ∧ skip rest' = skip rest) ∨ (IsCompound e' ∧ skip rest ≠ [])

theorem exists_readPath_of_readUnary (hsigns : readSigns s = (0, s))
    (h : readUnary depth fuel s = .ok (e', rest)) : ∃ fuel' < fuel, ∃ e after,
      readPath depth fuel' s = .ok (e, after) ∧ IsFirst e e' after rest := by
  cases fuel with
  | zero =>
    unfold readUnary at h
    cases h
  | succ fuel =>
    rw [readUnary, hsigns] at h
    obtain ⟨⟨e, after⟩, hpath, h⟩ := except_bind_eq_ok.1 h
    obtain ⟨⟨e'', after'⟩, hunion, h⟩ := except_bind_eq_ok.1 h
    obtain ⟨rfl, rfl⟩ := Prod.mk.inj (Except.ok.inj h)
    refine ⟨fuel, Nat.lt_succ_self _, e, after, hpath, ?_⟩
    rcases readUnion_cases hunion with ⟨rfl, rfl⟩ | hcompound
    · exact Or.inl ⟨rfl, skip_skip after⟩
    · exact Or.inr hcompound

theorem exists_readPath_of_readLevel {n : Nat} (hsigns : readSigns s = (0, s))
    (h : readLevel depth fuel n s = .ok (e', rest)) : ∃ fuel' < fuel, ∃ e after,
      readPath depth fuel' s = .ok (e, after) ∧ IsFirst e e' after rest := by
  induction fuel generalizing n e' rest with
  | zero =>
    unfold readLevel at h
    cases h
  | succ fuel ih =>
    rw [readLevel] at h
    split at h
    · obtain ⟨fuel', hfuel, e, after, hpath, hfirst⟩ := exists_readPath_of_readUnary hsigns h
      exact ⟨fuel', Nat.lt_succ_of_lt hfuel, e, after, hpath, hfirst⟩
    · obtain ⟨⟨left, after'⟩, hleft, h⟩ := except_bind_eq_ok.1 h
      obtain ⟨fuel', hfuel, e, after, hpath, hfirst⟩ := ih hleft
      refine ⟨fuel', Nat.lt_succ_of_lt hfuel, e, after, hpath, ?_⟩
      rcases readOperands_cases h with ⟨rfl, rfl⟩ | ⟨hcompound, hmore⟩
      · rcases hfirst with ⟨rfl, hskip⟩ | hcompound
        · exact Or.inl ⟨rfl, by rw [skip_skip, hskip]⟩
        · exact Or.inr hcompound
      · refine Or.inr ⟨hcompound, ?_⟩
        rcases hfirst with ⟨-, hskip⟩ | ⟨-, hnot⟩
        · rwa [← hskip]
        · exact hnot

/-- **A text that is read as a whole is read by the rule for paths, or has more operands.** -/
theorem exists_readPath (hsigns : readSigns s = (0, s))
    (h : readNested (depth + 1) fuel s = .ok (e', [])) : ∃ fuel' ≤ fuel, ∃ e after,
      readPath depth fuel' s = .ok (e, after) ∧ IsFirst e e' after [] := by
  cases fuel with
  | zero =>
    unfold readNested at h
    cases h
  | succ fuel =>
    unfold readNested at h
    obtain ⟨fuel', hfuel, e, after, hpath, hfirst⟩ := exists_readPath_of_readLevel hsigns h
    exact ⟨fuel', Nat.le_of_lt (Nat.lt_succ_of_lt hfuel), e, after, hpath, hfirst⟩

/-! ### Paths by their first characters -/

theorem readSigns_of_head {c : Char} {r : List Char} (hminus : (c == '-') = false)
    (hblank : Text.isXmlBlank c = false) : readSigns (c :: r) = (0, c :: r) := by
  rw [readSigns, hminus, hblank]
  rfl

/-- The steps that a path goes on with after its first ones: none, or they begin with a slash. -/
structure MoreSteps (depth fuel : Nat) (r : List Char) (steps : List Step) : Prop where
  slash : ∀ c ∈ (skip r).head?, c = '/'
  read : ∃ after, skip after = [] ∧
    ∀ start, readMoreSteps depth fuel start (skip r) = .ok (path start steps, after)

/-- What the rule for further steps reads to the end is further steps. -/
theorem moreSteps_of_read (h : readMoreSteps depth fuel e (skip s) = .ok (e', rest))
    (hrest : skip rest = []) : ∃ steps, e' = path e steps ∧ MoreSteps depth fuel s steps := by
  obtain ⟨steps, hsteps⟩ := exists_steps_of_readMoreSteps h
  have hall := hsteps e
  rw [h] at hall
  refine ⟨steps, (Prod.mk.inj (Except.ok.inj hall)).1, fun c hc => ?_, rest, hrest, hsteps⟩
  by_contra hslash
  obtain ⟨after, hafter⟩ := List.head?_eq_some_iff.1 hc
  have hother : ∀ after, skip s ≠ '/' :: after := fun after' h => hslash
    (List.cons.inj (hafter.symm.trans h)).1
  cases fuel with
  | zero =>
    unfold readMoreSteps at h
    cases h
  | succ fuel =>
    -- nothing is read of another character, but nothing was left either
    rw [readMoreSteps_of_other hother] at h
    rw [← (Prod.mk.inj (Except.ok.inj h)).2, skip_skip, hafter] at hrest
    cases hrest

/-- **A path whose text begins with two points begins with a step to the parent**, and goes on with
the steps that are read after them. -/
theorem exists_moreSteps_of_read {r : List Char} {steps : List Step}
    (h : readNested (depth + 1) fuel ('.' :: '.' :: r) = .ok (path .here steps, [])) :
    ∃ more, steps = .above :: more ∧ ∃ fuel' ≤ fuel, MoreSteps depth fuel' r more := by
  obtain ⟨fuel', hfuel, e, after, hpath, hfirst⟩ :=
    exists_readPath (readSigns_of_head rfl rfl) h
  rcases hfirst with ⟨rfl, hafter⟩ | ⟨hcompound, -⟩
  swap
  · exact absurd hcompound (not_isCompound_path not_isCompound_here steps)
  cases fuel' with
  | zero =>
    unfold readPath at hpath
    cases hpath
  | succ fuel' =>
    have hpoints : skip ('.' :: '.' :: r) = '.' :: '.' :: r := rfl
    rw [readPath_of_steps rfl (by rw [hpoints]; nofun), hpoints] at hpath
    cases fuel' with
    | zero =>
      unfold readSteps at hpath
      cases hpath
    | succ fuel' =>
      rw [readSteps_of_other (by rw [hpoints]; nofun)] at hpath
      obtain ⟨⟨first, after'⟩, hstep, hmore⟩ := except_bind_eq_ok.1 hpath
      cases fuel' with
      | zero =>
        unfold readStep at hstep
        cases hstep
      | succ fuel' =>
        rw [hpoints, readStep_points hpoints] at hstep
        obtain ⟨rfl, rfl⟩ := Prod.mk.inj (Except.ok.inj hstep)
        dsimp only at hmore
        rw [skip_skip] at hmore
        obtain ⟨more, hsteps, hrest⟩ := moreSteps_of_read hmore hafter.symm
        have hsteps : path .here steps = path .here (.above :: more) := hsteps
        exact ⟨more, (path_inj isStart_here isStart_here hsteps).2, fuel' + 1, by omega, hrest⟩

/-- **A text that begins with a slash is no path from the context node.** -/
theorem ne_path_here_of_slash {r : List Char}
    (h : readNested (depth + 1) fuel ('/' :: r) = .ok (e, [])) (steps : List Step) :
    e ≠ path .here steps := by
  rintro rfl
  obtain ⟨fuel', -, e, after, hpath, hfirst⟩ := exists_readPath (readSigns_of_head rfl rfl) h
  rcases hfirst with ⟨rfl, -⟩ | ⟨hcompound, -⟩
  swap
  · exact absurd hcompound (not_isCompound_path not_isCompound_here steps)
  cases fuel' with
  | zero =>
    unfold readPath at hpath
    cases hpath
  | succ fuel' =>
    have htop : skip ('/' :: r) = '/' :: r := rfl
    rw [readPath_of_top htop] at hpath
    obtain ⟨fromTop, hsteps⟩ := exists_steps_of_readFromTop hpath
    cases (path_inj isStart_here isStart_top hsteps).1

/-- The whole text of an expression is read. -/
theorem readNested_of_read {s : String} (h : Expr.read s = .ok e) :
    readNested depthLimit (fuelFor s.toList) s.toList = .ok (e, []) := by
  obtain ⟨⟨found, rest⟩, hread, h⟩ := except_bind_eq_ok.1 h
  dsimp only at h
  split_ifs at h with hrest
  cases h
  rw [hread, List.isEmpty_iff.1 hrest]

end Grammar

end PagePlan.XPath
