/-
# Trimmed and squeezed texts

A text is trimmed if no character of a class stands at either end of it, and squeezed if moreover
its blanks are single spaces.  Trimming takes a piece out of a text and leaves a trimmed one;
collapsing the runs of blanks leaves single spaces, which trimming keeps apart.
-/
import PagePlan.Text.Blank
import Mathlib.Data.List.Infix
import Mathlib.Data.List.Chain
import Mathlib.Data.List.TakeWhile

namespace PagePlan.Text

variable {α : Type} {p : α → Bool}

/-- No character of a class stands at either end. -/
structure IsTrimmed (p : α → Bool) (s : List α) : Prop where
  head : ∀ c ∈ s.head?, p c = false
  last : ∀ c ∈ s.getLast?, p c = false

/-- Between words stand single spaces, and nothing stands around them. -/
structure IsSqueezed (s : List Char) : Prop where
  trimmed : IsTrimmed isBlank s
  space : ∀ c ∈ s, isBlank c = true → c = ' '
  single : s.IsChain fun c d => isBlank c = true → isBlank d = false

/-- The blanks of XML are white space. -/
theorem isBlank_of_isXmlBlank {c : Char} (h : isXmlBlank c = true) : isBlank c = true := by
  simp only [isXmlBlank, Bool.or_eq_true, beq_iff_eq] at h
  rcases h with ((rfl | rfl) | rfl) | rfl <;> rfl

/-! ### Trimming -/

/-- Trimming takes a piece out of a text. -/
theorem trim_isInfix (p : α → Bool) (s : List α) : trim p s <:+: s := by
  have hfront : s.dropWhile p <:+ s := List.dropWhile_suffix p
  have hback : (s.dropWhile p).reverse.dropWhile p <:+ (s.dropWhile p).reverse :=
    List.dropWhile_suffix p
  have hpre : trim p s <+: s.dropWhile p := by
    simpa [trim] using List.reverse_prefix.2 hback
  exact hpre.isInfix.trans hfront.isInfix

/-- What is left of a text by trimming is trimmed. -/
theorem trim_isTrimmed (p : α → Bool) (s : List α) : IsTrimmed p (trim p s) := by
  constructor
  · intro c hc
    have hpre : trim p s <+: s.dropWhile p := by
      simpa [trim] using List.reverse_prefix.2 (List.dropWhile_suffix p (l := (s.dropWhile p).reverse))
    obtain ⟨rest, hrest⟩ := hpre
    have hhead : (s.dropWhile p).head? = some c := by
      rw [← hrest, List.head?_append, Option.mem_def.1 hc, Option.some_or]
    have h := List.head?_dropWhile_not p s
    rw [hhead] at h
    simpa using h
  · intro c hc
    rw [trim, List.getLast?_reverse] at hc
    have h := List.head?_dropWhile_not p (s.dropWhile p).reverse
    rw [Option.mem_def.1 hc] at h
    simpa using h

/-- A text is what is left of it by trimming, between characters of the class. -/
theorem exists_trim (p : α → Bool) (s : List α) : ∃ before behind,
    s = before ++ trim p s ++ behind ∧ (∀ c ∈ before, p c = true) ∧ ∀ c ∈ behind, p c = true := by
  have hfront : s.takeWhile p ++ s.dropWhile p = s := List.takeWhile_append_dropWhile
  have hback : trim p s ++ ((s.dropWhile p).reverse.takeWhile p).reverse = s.dropWhile p := by
    rw [trim, ← List.reverse_append, List.takeWhile_append_dropWhile, List.reverse_reverse]
  refine ⟨s.takeWhile p, ((s.dropWhile p).reverse.takeWhile p).reverse, ?_, ?_, ?_⟩
  · rw [List.append_assoc, hback, hfront]
  · exact List.all_eq_true.1 List.all_takeWhile
  · intro c hc
    exact List.all_eq_true.1 List.all_takeWhile c (List.mem_reverse.1 hc)

/-- Trimming leaves a trimmed text as it is. -/
theorem IsTrimmed.trim_eq {s : List α} (h : IsTrimmed p s) : trim p s = s := by
  have hself {t : List α} (ht : ∀ c ∈ t.head?, p c = false) : t.dropWhile p = t := by
    cases t with
    | nil => rfl
    | cons c t => exact List.dropWhile_cons_of_neg (by simp [ht c rfl])
  rw [trim, hself h.head, hself (t := s.reverse) (by simpa using h.last), List.reverse_reverse]

/-- A text is trimmed if it begins and ends with trimmed ones. -/
theorem IsTrimmed.append {s t : List α} (hs : IsTrimmed p s) (ht : IsTrimmed p t) (hs' : s ≠ [])
    (ht' : t ≠ []) (mid : List α) : IsTrimmed p (s ++ mid ++ t) := by
  constructor
  · rw [List.append_assoc, List.head?_append_of_ne_nil s hs']
    exact hs.head
  · rw [List.getLast?_append_of_ne_nil _ ht']
    exact ht.last

/-- Trimming takes away what stands around a trimmed text. -/
theorem trim_append {before s behind : List α} (hbefore : ∀ c ∈ before, p c = true)
    (hs : IsTrimmed p s) (hbehind : ∀ c ∈ behind, p c = true) :
    trim p (before ++ s ++ behind) = s := by
  have hdrop {t : List α} (ht : ∀ c ∈ t, p c = true) (u : List α) :
      (t ++ u).dropWhile p = u.dropWhile p := by
    rw [List.dropWhile_append_of_pos ht]
  cases s with
  | nil =>
    have hall : (before ++ [] ++ behind).dropWhile p = [] := by
      rw [List.append_nil, hdrop hbefore]
      exact List.dropWhile_eq_nil_iff.2 hbehind
    rw [trim, hall]
    rfl
  | cons c s =>
    have hfront : (before ++ c :: s ++ behind).dropWhile p = c :: s ++ behind := by
      rw [List.append_assoc, hdrop hbefore, List.cons_append,
        List.dropWhile_cons_of_neg (by simp [hs.head c rfl])]
    have hback : (c :: s).reverse.dropWhile p = (c :: s).reverse := by
      have h := congrArg List.reverse hs.trim_eq
      rwa [trim, List.reverse_reverse, List.dropWhile_cons_of_neg (by simp [hs.head c rfl])] at h
    rw [trim, hfront, List.reverse_append, hdrop (by simpa using hbehind), hback,
      List.reverse_reverse]

/-- Trimming takes away none of the characters that are kept. -/
theorem filter_trim {q : α → Bool} (h : ∀ c, p c = true → q c = false) (s : List α) :
    (trim p s).filter q = s.filter q := by
  have hdrop (t : List α) : (t.dropWhile p).filter q = t.filter q := by
    have hfront : (t.takeWhile p).filter q = [] := by
      refine List.filter_eq_nil_iff.2 fun c hc => ?_
      rw [h c (List.all_eq_true.1 List.all_takeWhile c hc)]
      decide
    conv_rhs => rw [← List.takeWhile_append_dropWhile (p := p) (l := t)]
    rw [List.filter_append, hfront, List.nil_append]
  rw [trim, List.filter_reverse, hdrop, ← List.filter_reverse, List.reverse_reverse, hdrop]

/-! ### Collapsing -/

/-- The first character of a collapsed text is blank only if that of the text is. -/
theorem isBlank_head?_collapse {s : List Char} {d : Char} (h : d ∈ (collapse isBlank s).head?)
    (hd : isBlank d = true) : ∃ c ∈ s.head?, isBlank c = true := by
  cases s with
  | nil => simp at h
  | cons c rest =>
    by_cases hc : isBlank c = true
    · exact ⟨c, rfl, hc⟩
    · unfold collapse at h
      rw [if_neg hc] at h
      obtain rfl : c = d := by simpa using h
      exact absurd hd hc

/-- The blanks of a collapsed text are spaces. -/
theorem eq_space_of_mem_collapse {s : List Char} {c : Char} (h : c ∈ collapse isBlank s)
    (hc : isBlank c = true) : c = ' ' := by
  fun_induction collapse isBlank s with
  | case1 => simp at h
  | case2 a ha d rest hd ih => exact ih h
  | case3 a ha d rest hd ih =>
    rcases List.mem_cons.1 h with rfl | h
    · rfl
    · exact ih h
  | case4 a ha => simpa using h
  | case5 a rest ha ih =>
    rcases List.mem_cons.1 h with rfl | h
    · exact absurd hc ha
    · exact ih h

/-- The blanks of a collapsed text stand alone. -/
theorem isChain_collapse (s : List Char) :
    (collapse isBlank s).IsChain fun c d => isBlank c = true → isBlank d = false := by
  fun_induction collapse isBlank s with
  | case1 => exact .nil
  | case2 a ha d rest hd ih => exact ih
  | case3 a ha d rest hd ih =>
    refine List.isChain_cons.2 ⟨fun e he _ => ?_, ih⟩
    by_contra hblank
    obtain ⟨c, hc, hcb⟩ := isBlank_head?_collapse he (by simpa using hblank)
    obtain rfl : d = c := by simpa using hc
    exact hd hcb
  | case4 a ha => exact .singleton _
  | case5 a rest ha ih =>
    exact List.isChain_cons.2 ⟨fun e _ hblank => absurd hblank ha, ih⟩

/-- What holds of neighbours in a text holds of them in every piece of it. -/
theorem isChain_of_isInfix {R : α → α → Prop} {s t : List α} (ht : t.IsChain R)
    (hpiece : s <:+: t) : s.IsChain R := by
  obtain ⟨before, behind, rfl⟩ := hpiece
  exact ht.left_of_append.right_of_append

/-- Collapsing and then trimming squeezes a text. -/
theorem isSqueezed_trim_collapse (s : List Char) :
    IsSqueezed (trim isBlank (collapse isBlank s)) where
  trimmed := trim_isTrimmed _ _
  space _ hc hblank := eq_space_of_mem_collapse ((trim_isInfix _ _).subset hc) hblank
  single := isChain_of_isInfix (isChain_collapse s) (trim_isInfix _ _)

end PagePlan.Text
