/-
# Paths inside larger texts

A path that begins with two points is read in the same way wherever it stands: alone with blanks
around it, as an operand of a union, or as the argument of a call.  Without its first point it
starts at the context node and not at its parent, and goes on with the same steps.  How much depth
and fuel that takes does not matter as long as there is enough; a text that is read with some of it
is read as the same expression with more.

* `MoreSteps.eq_of_read_point`, `MoreSteps.eq_of_read_points` — a climbing path with blanks around
  it, without its first point and with it;
* `MoreSteps.read_union`, `MoreSteps.eq_of_read_string` — climbing paths in a union and in a call.
-/
import PagePlan.Proofs.XPath.Path

namespace PagePlan.XPath

namespace Grammar

/-- A rule reads something at a text, with some depth and fuel and with all more. -/
def Reads {α : Type} (rule : Rule α) (depth fuel : Nat) (s : List Char) (a : α)
    (rest : List Char) : Prop :=
  ∀ depth', depth ≤ depth' → ∀ fuel', fuel ≤ fuel' → rule depth' fuel' s = .ok (a, rest)

section

variable {depth fuel fuel' : Nat} {s t r rest after : List Char} {e left right : Expr}
  {steps : List Step}

theorem Reads.mono {α : Type} {rule : Rule α} {depth' : Nat} {a : α}
    (h : Reads rule depth fuel s a rest) (hdepth : depth ≤ depth') (hfuel : fuel ≤ fuel') :
    Reads rule depth' fuel' s a rest :=
  fun d hd f hf => h d (Nat.le_trans hdepth hd) f (Nat.le_trans hfuel hf)

/-- A rule that needs a step more of fuel than what it is made of. -/
theorem Reads.of_succ {α : Type} {rule : Rule α} {a : α}
    (h : ∀ depth', depth ≤ depth' → ∀ fuel', fuel ≤ fuel' →
      rule depth' (fuel' + 1) s = .ok (a, rest)) : Reads rule depth (fuel + 1) s a rest := by
  intro depth' hdepth fuel' hfuel
  obtain ⟨fuel', rfl⟩ := Nat.exists_eq_add_one_of_ne_zero (Nat.ne_zero_of_lt hfuel)
  exact h depth' hdepth fuel' (Nat.le_of_succ_le_succ hfuel)

/-! ### Steps -/

/-- Further steps are read in front of what can follow. -/
theorem MoreSteps.reads {t : List Char} (h : MoreSteps depth fuel r steps) (ht : Ends t) :
    ∃ after, skip after = skip t ∧
      ∀ start, Reads (fun d f s => readMoreSteps d f start s) depth fuel (skip (r ++ t))
        (path start steps) after := by
  obtain ⟨after, hafter, hread⟩ := h.read
  refine ⟨followed after t, ?_, fun start depth' hdepth fuel' hfuel => ?_⟩
  · rw [skip_followed, hafter, followed_nil]
  · exact ((readsOn fuel).moreSteps start _ _ _ _ (hread start)).2 depth' hdepth fuel' hfuel t ht
      nofun _ (exactly_skip_append r t)

theorem mem_enders_of_isXmlBlank {c : Char} (h : Text.isXmlBlank c = true) : c ∈ enders := by
  simp only [Text.isXmlBlank, Bool.or_eq_true, beq_iff_eq] at h
  simp only [enders, List.mem_cons]
  tauto

theorem isDigit_of_mem_enders {c : Char} (h : c ∈ enders) : c.isDigit = false := by
  have hall : enders.all fun c => !c.isDigit := by decide
  simpa using List.all_eq_true.1 hall c h

/-- After its points a climbing path goes on with a slash or ends. -/
theorem MoreSteps.head (h : MoreSteps depth fuel r steps) (ht : Ends t) :
    ∀ c ∈ (r ++ t).head?, c = '/' ∨ c ∈ enders := by
  intro c hc
  cases r with
  | nil => exact Or.inr (ht.head c hc)
  | cons d r =>
    obtain rfl : d = c := Option.some.inj hc
    by_cases hblank : Text.isXmlBlank d = true
    · exact Or.inr (mem_enders_of_isXmlBlank hblank)
    · refine Or.inl (h.slash d ?_)
      rw [skip, List.dropWhile_cons_of_neg hblank]
      rfl

/-- A path of one point or two begins where it does not go on like a number. -/
theorem startsPath?_point (h : ∀ d ∈ s.head?, d = '/' ∨ d = '.' ∨ d ∈ enders) :
    startsPath? ('.' :: s) = some true := by
  cases s with
  | nil => rfl
  | cons d s =>
    have hdigit : d.isDigit = false := by
      rcases h d rfl with rfl | rfl | hd
      · rfl
      · rfl
      · exact isDigit_of_mem_enders hd
    rw [startsPath?, hdigit]
    rfl

/-- A path is read by its first step and what goes on after it. -/
theorem MoreSteps.reads_path (h : MoreSteps depth fuel r steps) (ht : Ends t) (first : List Step)
    (hstarts : startsPath? (skip s) = some true) (hslash : ∀ rest, skip s ≠ '/' :: rest)
    (hfirst : ∀ depth fuel, readStep depth (fuel + 1) .here (skip s) =
      .ok (path .here first, skip (r ++ t))) :
    ∃ after, skip after = skip t ∧
      Reads readPath depth (fuel + 3) s (path .here (first ++ steps)) after := by
  obtain ⟨after, hafter, hmore⟩ := h.reads ht
  refine ⟨after, hafter, .of_succ fun depth' hdepth fuel' hfuel => ?_⟩
  obtain ⟨fuel', rfl⟩ := Nat.exists_eq_add_of_le' (Nat.le_trans (Nat.le_add_left 2 fuel) hfuel)
  rw [readPath_of_steps hstarts hslash, readSteps_of_other (by rwa [skip_skip]), skip_skip,
    hfirst, path_append]
  change readMoreSteps _ _ _ (skip (skip (r ++ t))) = _
  rw [skip_skip]
  exact hmore (path .here first) depth' hdepth _ (by omega)

/-- **A climbing path without its first point starts at the context node.** -/
theorem MoreSteps.reads_point (h : MoreSteps depth fuel r steps) (ht : Ends t)
    (hs : skip s = '.' :: (r ++ t)) :
    ∃ after, skip after = skip t ∧ Reads readPath depth (fuel + 3) s (path .here steps) after := by
  have hhead := h.head ht
  have hpoint : ∀ rest, r ++ t ≠ '.' :: rest := by
    intro rest hrest
    rcases hhead '.' (by rw [hrest]; rfl) with hdot | hdot
    · cases hdot
    · revert hdot
      decide
  refine h.reads_path ht [] ?_ (by rw [hs]; nofun) fun depth fuel =>
    readStep_point (by rw [skip_skip, hs]) hpoint
  rw [hs]
  exact startsPath?_point fun d hd => (hhead d hd).imp id Or.inr

/-- **As it is, it starts at the parent.** -/
theorem MoreSteps.reads_points (h : MoreSteps depth fuel r steps) (ht : Ends t)
    (hs : skip s = '.' :: '.' :: (r ++ t)) :
    ∃ after, skip after = skip t ∧
      Reads readPath depth (fuel + 3) s (path .here (.above :: steps)) after :=
  h.reads_path ht [.above] (by rw [hs]; rfl) (by rw [hs]; nofun) fun _ _ =>
    readStep_points (by rw [skip_skip, hs])

/-! ### Operands -/

/-- Where a path begins no sign stands. -/
theorem readSigns_of_point (hs : skip s = '.' :: rest) : readSigns s = (0, skip s) := by
  rw [← readSigns_skip, hs]
  exact readSigns_of_head rfl rfl

theorem readPath_skip (s : List Char) : readPath depth fuel (skip s) = readPath depth fuel s := by
  cases fuel with
  | zero =>
    unfold readPath
    rfl
  | succ fuel =>
    rw [readPath, readPath, skip_skip]

/-- A path is an operand where no further one follows. -/
theorem Reads.unary (h : Reads readPath depth fuel s e after) (hsigns : readSigns s = (0, skip s))
    (hend : ∀ rest, skip after ≠ '|' :: rest) :
    Reads readUnary depth (fuel + 2) s e (skip after) := by
  refine .of_succ fun depth' hdepth fuel' hfuel => ?_
  obtain ⟨fuel', rfl⟩ := Nat.exists_eq_add_of_le' (Nat.le_trans (Nat.le_add_left 1 fuel) hfuel)
  rw [readUnary, hsigns]
  dsimp only
  rw [readPath_skip]
  refine except_bind_eq_ok.2 ⟨_, h depth' hdepth _ (by omega), ?_⟩
  exact except_bind_eq_ok.2 ⟨_, readUnion_of_other hend, rfl⟩

/-- Two paths with a bar between are. -/
theorem Reads.union {after' : List Char} (h : Reads readPath depth fuel s left after)
    (hsigns : readSigns s = (0, skip s)) (hbar : skip after = '|' :: t)
    (h' : Reads readPath depth fuel (skip t) right after')
    (hend : ∀ rest, skip after' ≠ '|' :: rest) :
    Reads readUnary depth (fuel + 3) s (.union left right) (skip after') := by
  refine .of_succ fun depth' hdepth fuel' hfuel => ?_
  obtain ⟨fuel', rfl⟩ := Nat.exists_eq_add_of_le' (Nat.le_trans (Nat.le_add_left 2 fuel) hfuel)
  rw [readUnary, hsigns]
  dsimp only
  rw [readPath_skip]
  refine except_bind_eq_ok.2 ⟨_, h depth' hdepth _ (by omega), ?_⟩
  refine except_bind_eq_ok.2 ⟨(.union left right, skip after'), ?_, rfl⟩
  dsimp only
  rw [hbar, readUnion_bar]
  exact except_bind_eq_ok.2 ⟨_, h' depth' hdepth _ (by omega), readUnion_of_other hend⟩

/-- An operand is an expression where no operator follows. -/
theorem Reads.level (h : Reads readUnary depth fuel s e rest) (hskip : skip rest = rest)
    (hend : ∀ n, readOperator? n rest = none) {k n : Nat} (hn : n + k = operators.length) :
    Reads (fun d f s => readLevel d f n s) depth (fuel + k + 1) s e rest := by
  -- from the operators that bind tightest to those that bind least
  induction k generalizing n with
  | zero =>
    refine .of_succ fun depth' hdepth fuel' hfuel => ?_
    rw [readLevel, if_pos (by omega)]
    exact h depth' hdepth fuel' hfuel
  | succ k ih =>
    refine .of_succ fun depth' hdepth fuel' hfuel => ?_
    have hfirst := ih (n := n + 1) (by omega) depth' hdepth fuel' hfuel
    obtain ⟨fuel', rfl⟩ := Nat.exists_eq_add_of_le' (Nat.le_trans (Nat.le_add_left 1 _) hfuel)
    rw [readLevel, if_neg (by omega)]
    refine except_bind_eq_ok.2 ⟨_, hfirst, ?_⟩
    dsimp only
    rw [hskip, readOperands, hend]

theorem Reads.nested (h : Reads readUnary depth fuel s e rest) (hskip : skip rest = rest)
    (hend : ∀ n, readOperator? n rest = none) :
    Reads readNested (depth + 1) (fuel + 8) s e rest := by
  have hlevel := h.level hskip hend (n := 0) (k := 6) rfl
  refine .of_succ fun depth' hdepth fuel' hfuel => ?_
  obtain ⟨depth', rfl⟩ := Nat.exists_eq_add_of_le' (Nat.le_trans (Nat.le_add_left 1 depth) hdepth)
  unfold readNested
  exact hlevel depth' (Nat.le_of_succ_le_succ hdepth) fuel' hfuel

/-- What follows an expression is no operator. -/
theorem Ends.readOperator?_skip (ht : Ends t) (n : Nat) : readOperator? n (skip t) = none := by
  have hskip : Ends (skip t) := by
    refine ⟨fun c hc => ?_, by rw [skip_skip]; exact ht.next⟩
    rcases ht.next c hc with rfl | rfl <;> decide
  have h := readOperator?_append (s := []) hskip n
  rwa [List.nil_append, readOperator?_nil] at h

/-! ### Whole texts -/

/-- With enough depth and fuel for it, a text is read as a whole. -/
theorem read_of_reads {s : String} (h : Reads readNested depth fuel s.toList e [])
    (hdepth : depth ≤ depthLimit) (hfuel : fuel ≤ fuelFor s.toList) : Expr.read s = .ok e := by
  rw [Expr.read]
  dsimp only
  rw [h _ hdepth _ hfuel]
  rfl

/-- **Whatever the depth and the fuel, a text is read as one expression at most.** -/
theorem eq_of_read {s : String} (h : Reads readNested depth fuel s.toList e []) {e' : Expr}
    (hread : Expr.read s = .ok e') : e' = e := by
  -- both are read with the larger depth and the larger fuel
  have hmore := ((readsOn _).nested _ _ _ _ (readNested_of_read hread)).2
    (max depth depthLimit) (Nat.le_max_right _ _) (max fuel (fuelFor s.toList))
    (Nat.le_max_right _ _) [] ends_nil (fun _ _ => rfl) s.toList
    (by rw [Loosely, followed_nil_right])
  have h := h (max depth depthLimit) (Nat.le_max_left _ _) (max fuel (fuelFor s.toList))
    (Nat.le_max_left _ _)
  rw [h] at hmore
  exact (Prod.mk.inj (Except.ok.inj hmore)).1.symm

/-- So a text of a path and blanks is read as the path. -/
theorem eq_of_reads_path {u : String} (h : Reads readPath depth fuel u.toList e after)
    (hsigns : readSigns u.toList = (0, skip u.toList)) (hafter : skip after = []) {e' : Expr}
    (hread : Expr.read u = .ok e') : e' = e := by
  have hunary := h.unary hsigns (by rw [hafter]; nofun)
  rw [hafter] at hunary
  exact eq_of_read (hunary.nested rfl readOperator?_nil) hread

/-- A climbing path with blanks around it, read without its first point. -/
theorem MoreSteps.eq_of_read_point {u : String} (h : MoreSteps depth fuel r steps) (ht : Ends t)
    (hblank : skip t = []) (hu : skip u.toList = '.' :: (r ++ t)) {e' : Expr}
    (hread : Expr.read u = .ok e') : e' = path .here steps := by
  obtain ⟨after, hafter, hpath⟩ := h.reads_point ht hu
  exact eq_of_reads_path hpath (readSigns_of_point hu) (hafter.trans hblank) hread

/-- A climbing path with blanks around it. -/
theorem MoreSteps.eq_of_read_points {u : String} (h : MoreSteps depth fuel r steps) (ht : Ends t)
    (hblank : skip t = []) (hu : skip u.toList = '.' :: '.' :: (r ++ t)) {e' : Expr}
    (hread : Expr.read u = .ok e') : e' = path .here (.above :: steps) := by
  obtain ⟨after, hafter, hpath⟩ := h.reads_points ht hu
  exact eq_of_reads_path hpath (readSigns_of_point hu) (hafter.trans hblank) hread

/-- Blanks at the end of a text. -/
theorem ends_of_all_blank {blanks : List Char} (h : ∀ c ∈ blanks, Text.isXmlBlank c = true) :
    Ends blanks ∧ skip blanks = [] := by
  have hskip : skip blanks = [] := List.dropWhile_eq_nil_iff.2 h
  refine ⟨⟨fun c hc => mem_enders_of_isXmlBlank (h c (List.mem_of_head? hc)), ?_⟩, hskip⟩
  rw [hskip]
  nofun

/-- What can stand between an expression and the end of what it is inside of. -/
theorem ends_of_blanks {blanks : List Char} (h : ∀ c ∈ blanks, Text.isXmlBlank c = true) {c : Char}
    (hc : c = '|' ∨ c = ')') (rest : List Char) :
    Ends (blanks ++ c :: rest) ∧ skip (blanks ++ c :: rest) = c :: rest := by
  have hskip : skip (blanks ++ c :: rest) = c :: rest := by
    rw [skip, List.dropWhile_append_of_pos h]
    rcases hc with rfl | rfl <;> rfl
  refine ⟨⟨fun d hd => ?_, fun d hd => ?_⟩, hskip⟩
  · cases blanks with
    | nil =>
      obtain rfl : c = d := Option.some.inj hd
      rcases hc with rfl | rfl <;> decide
    | cons b blanks =>
      obtain rfl : b = d := Option.some.inj hd
      exact mem_enders_of_isXmlBlank (h b List.mem_cons_self)
  · rw [hskip] at hd
    obtain rfl : c = d := Option.some.inj hd
    exact hc

/-- **In a union of two climbing paths, read without its first point, the first path starts at the
context node and the second one still at the parent.** -/
theorem MoreSteps.read_union {u : String} {fuel' : Nat} {blanks blanks' r' : List Char}
    {steps' : List Step} (h : MoreSteps depth fuel r steps) (h' : MoreSteps depth fuel' r' steps')
    (hblanks : ∀ c ∈ blanks, Text.isXmlBlank c = true)
    (hblanks' : ∀ c ∈ blanks', Text.isXmlBlank c = true)
    (hu : u.toList = '.' :: (r ++ (blanks ++ '|' :: (blanks' ++ '.' :: '.' :: r'))))
    (hdepth : depth + 1 ≤ depthLimit) (hfuel : max fuel fuel' + 14 ≤ fuelFor u.toList) :
    Expr.read u = .ok (.union (path .here steps) (path .here (.above :: steps'))) := by
  have hskip : skip u.toList = '.' :: (r ++ (blanks ++ '|' :: (blanks' ++ '.' :: '.' :: r'))) := by
    rw [hu]
    rfl
  have hskip' : skip (blanks' ++ '.' :: '.' :: r') = '.' :: '.' :: r' := by
    rw [skip, List.dropWhile_append_of_pos hblanks']
    rfl
  obtain ⟨hends, hbar⟩ :=
    ends_of_blanks hblanks (Or.inl rfl) (blanks' ++ '.' :: '.' :: r')
  obtain ⟨after, hafter, hleft⟩ := h.reads_point hends hskip
  obtain ⟨after', hafter', hright⟩ := h'.reads_points ends_nil
    (s := skip (blanks' ++ '.' :: '.' :: r')) (by rw [skip_skip, hskip', List.append_nil])
  have hleft := hleft.mono (Nat.le_refl _) (Nat.add_le_add_right (Nat.le_max_left fuel fuel') 3)
  have hright := hright.mono (Nat.le_refl _) (Nat.add_le_add_right (Nat.le_max_right fuel fuel') 3)
  have hnone : skip after' = [] := hafter'
  have hunion := hleft.union (readSigns_of_point hskip) (hafter.trans hbar) hright
    (by rw [hnone]; rintro _ ⟨⟩)
  rw [hnone] at hunion
  exact read_of_reads (hunion.nested rfl readOperator?_nil) hdepth hfuel

/-! ### Calls -/

theorem startsPath?_string (s : List Char) :
    startsPath? ("string(".toList ++ s) = some false := rfl

theorem skip_string (s : List Char) : skip ("string(".toList ++ s) = "string(".toList ++ s := rfl

theorem readPrimary_string {es : List Expr} (hs : ∀ rest, skip s ≠ ')' :: rest)
    (h : readArguments depth fuel (skip s) = .ok (es, rest)) :
    readPrimary depth (fuel + 1) ("string(".toList ++ s) =
      .ok (.call ⟨none, "string"⟩ es, rest) := by
  have hmark : ¬IsMark 's' := by
    rintro (h | h | h | h) <;> cases h
  have hopen : skip ('(' :: s) = '(' :: s := rfl
  change readPrimary depth (fuel + 1) ('s' :: ("tring(".toList ++ s)) = _
  rw [readPrimary_of_not_isMark hmark, if_neg (by decide)]
  refine except_bind_eq_ok.2 ⟨(⟨none, "string"⟩, '(' :: s), rfl, ?_⟩
  dsimp only
  rw [readCall_open hopen]
  split
  · next hclosed => exact absurd hclosed (hs _)
  · exact except_bind_eq_ok.2 ⟨_, h, rfl⟩

/-- An expression is an argument up to the closing parenthesis. -/
theorem Reads.arguments (h : Reads readNested depth fuel s e (')' :: rest)) (hs : s ≠ []) :
    Reads readArguments depth (fuel + 1) s [e] rest := by
  refine .of_succ fun depth' hdepth fuel' hfuel => ?_
  unfold readArguments
  split
  · exact absurd rfl hs
  · exact except_bind_eq_ok.2 ⟨_, h depth' hdepth fuel' hfuel, rfl⟩

/-- A call to the end of the text. -/
theorem Reads.string (h : Reads readNested depth fuel (skip s) e [')']) {c : Char}
    (hs : skip s = c :: rest) (hc : c ≠ ')') :
    Reads readPath depth (fuel + 3) ("string(".toList ++ s) (.call ⟨none, "string"⟩ [e]) [] := by
  have harguments := h.arguments (by rw [hs]; nofun)
  have hopen : ∀ rest, skip s ≠ ')' :: rest := fun rest hrest =>
    hc (List.cons.inj (hs.symm.trans hrest)).1
  refine .of_succ fun depth' hdepth fuel' hfuel => ?_
  obtain ⟨fuel', rfl⟩ := Nat.exists_eq_add_of_le' (Nat.le_trans (Nat.le_add_left 2 fuel) hfuel)
  have hprimary := readPrimary_string hopen
    (harguments depth' hdepth (fuel' + 1) (by omega))
  rw [readPath_of_primary (by rw [skip_string, startsPath?_string]), skip_string]
  refine except_bind_eq_ok.2 ⟨_, hprimary, ?_⟩
  refine except_bind_eq_ok.2 ⟨(.call ⟨none, "string"⟩ [e], []), ?_, rfl⟩
  unfold readFilters
  rfl

/-- **As the argument of a call a climbing path starts at the parent.** -/
theorem MoreSteps.eq_of_read_string {u : String} {blanks blanks' : List Char}
    (h : MoreSteps depth fuel r steps) (hblanks : ∀ c ∈ blanks, Text.isXmlBlank c = true)
    (hblanks' : ∀ c ∈ blanks', Text.isXmlBlank c = true)
    (hu : u.toList =
      "string(".toList ++ (blanks' ++ '.' :: '.' :: (r ++ (blanks ++ [')']))))
    {e' : Expr} (hread : Expr.read u = .ok e') :
    e' = .call ⟨none, "string"⟩ [path .here (.above :: steps)] := by
  obtain ⟨hends, hclosed⟩ := ends_of_blanks hblanks (Or.inr rfl) []
  have hskip : skip (blanks' ++ '.' :: '.' :: (r ++ (blanks ++ [')']))) =
      '.' :: '.' :: (r ++ (blanks ++ [')'])) := by
    rw [skip, List.dropWhile_append_of_pos hblanks']
    rfl
  obtain ⟨after, hafter, hpath⟩ := h.reads_points hends
    (s := skip (blanks' ++ '.' :: '.' :: (r ++ (blanks ++ [')'])))) (by rw [skip_skip, hskip])
  have hclosing := hafter.trans hclosed
  have hunary := hpath.unary (readSigns_of_point (by rw [skip_skip, hskip]))
    (by rw [hclosing]; rintro _ ⟨⟩)
  rw [hclosing] at hunary
  have hend (n : Nat) : readOperator? n [')'] = none := by
    have hnone := hends.readOperator?_skip n
    rwa [hclosed] at hnone
  have hcall := (hunary.nested rfl hend).string hskip (by decide)
  rw [← hu] at hcall
  have hsigns : readSigns u.toList = (0, skip u.toList) := by
    rw [hu]
    rfl
  exact eq_of_reads_path hcall hsigns rfl hread

end

end Grammar

end PagePlan.XPath
