/-
# Where the text of a value begins and ends

A reader takes a piece off the front of a text and leaves the rest.  The piece begins with a letter
that opens a value and ends with one that closes it: a quote, a bracket, a brace, a digit or a
letter of a name.

* `exists_ends_of_readLetters` — a trimmed text that holds a value begins with an opening letter
  and ends in a closing one.
-/
import PagePlan.Proofs.Json.RoundTrip
import PagePlan.Proofs.Text.Blank

namespace PagePlan.Json

open Text (Letter letters)

/-- Whether the text of a value can begin with a letter. -/
def opensValue : Letter → Bool :=
  Letter.isIn fun c => c.isDigit || ['\x22', '\x7b', '[', '-', 'n', 't', 'f', 'N', 'I'].contains c

/-- Whether the text of a value can end in a letter. -/
def closesValue : Letter → Bool :=
  Letter.isIn fun c => c.isAlphanum || ['\x22', '\x7d', ']'].contains c

/-- Off the front of a text a piece was taken that ends in a closing letter. -/
def Took (s rest : List Letter) : Prop :=
  ∃ piece l, closesValue l = true ∧ s = piece ++ l :: rest

theorem took_cons {l : Letter} (hl : closesValue l = true) (rest : List Letter) :
    Took (l :: rest) rest :=
  ⟨[], l, hl, rfl⟩

/-- What stands before a piece may be taken with it. -/
theorem Took.of_suffix {s t rest : List Letter} (h : Took t rest) (hsuffix : t <:+ s) :
    Took s rest := by
  obtain ⟨before, rfl⟩ := hsuffix
  obtain ⟨piece, l, hl, rfl⟩ := h
  exact ⟨before ++ piece, l, hl, by rw [List.append_assoc]⟩

theorem Took.cons {s rest : List Letter} (h : Took s rest) (l : Letter) : Took (l :: s) rest :=
  h.of_suffix (List.suffix_cons l s)

theorem Took.suffix {s rest : List Letter} (h : Took s rest) : rest <:+ s := by
  obtain ⟨piece, l, -, rfl⟩ := h
  exact ⟨piece ++ [l], by simp⟩

/-- A second piece may be taken after a first one. -/
theorem Took.trans {s t rest : List Letter} (hs : Took s t) (ht : Took t rest) : Took s rest :=
  ht.of_suffix hs.suffix

theorem skipBlanks_suffix (s : List Letter) : skipBlanks s <:+ s :=
  List.dropWhile_suffix _

theorem isIn_isBlank_of_isXmlBlank {l : Letter} (h : l.isIn Text.isXmlBlank = true) :
    l.isIn Text.isBlank = true := by
  cases l with
  | char c => exact Text.isBlank_of_isXmlBlank h
  | half n => cases h

/-! ### Texts -/

theorem suffix_of_fourHex? {s rest : List Letter} {n : Nat} (h : fourHex? s = some (n, rest)) :
    rest <:+ s := by
  unfold fourHex? at h
  split at h
  · next a b c d l tail =>
    simp only [Option.bind_eq_bind, Option.bind_eq_some_iff, pure, Option.some.injEq,
      Prod.mk.injEq] at h
    obtain ⟨_, -, _, -, _, -, _, -, -, rfl⟩ := h
    exact ⟨[.char a, .char b, .char c, .char d], rfl⟩
  · simp at h

theorem suffix_of_readUnits {s rest : List Letter} {l : Letter} (h : readUnits s = .ok (l, rest)) :
    rest <:+ s := by
  unfold readUnits at h
  split at h
  · simp at h
  · next high after hhigh =>
    have hafter := suffix_of_fourHex? hhigh
    split at h
    · next more =>
      split at h
      · split at h
        · simp at h
        · next low last hlow =>
          split at h
          · -- two units make one character
            simp only [Except.ok.injEq, Prod.mk.injEq] at h
            rw [← h.2]
            have hmore : more <:+ .char '\\' :: .char 'u' :: more :=
              ⟨[.char '\\', .char 'u'], rfl⟩
            exact ((suffix_of_fourHex? hlow).trans hmore).trans hafter
          · simp only [Except.ok.injEq, Prod.mk.injEq] at h
            rw [← h.2]
            exact hafter
      · simp only [Except.ok.injEq, Prod.mk.injEq] at h
        rw [← h.2]
        exact hafter
    · simp only [Except.ok.injEq, Prod.mk.injEq] at h
      rw [← h.2]
      exact hafter

/-- The rest of a text literal ends in its closing quote. -/
theorem took_of_readString {start fuel : Nat} {s ds rest : List Letter}
    (h : readString start fuel s = .ok (ds, rest)) : Took s rest := by
  induction fuel generalizing s ds with
  | zero => simp [readString] at h
  | succ fuel ih =>
    cases s with
    | nil => simp [readString] at h
    | cons l s =>
      unfold readString at h
      split at h
      · next hquote =>
        simp only [Except.ok.injEq, Prod.mk.injEq] at h
        rw [← h.2, hquote]
        exact took_cons rfl s
      · split at h
        · -- an escape
          split at h
          · simp at h
          · next more =>
            obtain ⟨⟨d, after⟩, hunits, h⟩ := except_bind_eq_ok.1 h
            obtain ⟨⟨others, after'⟩, hrest, h⟩ := except_bind_eq_ok.1 h
            simp only [pure, Except.pure, Except.ok.injEq, Prod.mk.injEq] at h
            rw [h.2] at hrest
            exact (((ih hrest).of_suffix (suffix_of_readUnits hunits)).cons _).cons _
          · next e after _ =>
            split at h
            · simp at h
            · obtain ⟨⟨others, after'⟩, hrest, h⟩ := except_bind_eq_ok.1 h
              simp only [pure, Except.pure, Except.ok.injEq, Prod.mk.injEq] at h
              rw [h.2] at hrest
              exact ((ih hrest).cons _).cons _
        · split at h
          · simp at h
          · obtain ⟨⟨others, after'⟩, hrest, h⟩ := except_bind_eq_ok.1 h
            simp only [pure, Except.pure, Except.ok.injEq, Prod.mk.injEq] at h
            rw [h.2] at hrest
            exact (ih hrest).cons _

/-! ### Numbers and names -/

theorem closesValue_digit {c : Char} (h : c.isDigit = true) : closesValue (.char c) = true := by
  simp [closesValue, Letter.isIn, Char.isAlphanum, h]

/-- No digit is read and nothing is taken, or the digits that are read are taken. -/
theorem spanDigits_nil_or_took (s : List Letter) :
    (spanDigits s).1 = [] ∧ (spanDigits s).2 = s ∨ Took s (spanDigits s).2 := by
  induction s with
  | nil => exact .inl ⟨rfl, rfl⟩
  | cons l s ih =>
    cases l with
    | half n => exact .inl ⟨rfl, rfl⟩
    | char c =>
      by_cases hc : c.isDigit = true
      · right
        simp only [spanDigits, hc, if_true]
        rcases ih with ⟨-, hrest⟩ | htook
        · rw [hrest]
          exact took_cons (closesValue_digit hc) s
        · exact htook.cons _
      · exact .inl (by simp [spanDigits, hc])

theorem took_of_spanDigits {s rest : List Letter} {ds : List Char} (h : spanDigits s = (ds, rest))
    (hds : ds ≠ []) : Took s rest := by
  have hspan := spanDigits_nil_or_took s
  rw [h] at hspan
  exact hspan.resolve_left fun hnone => hds hnone.1

theorem took_of_wholeDigits {s rest : List Letter} {ds : List Char} (h : wholeDigits s = (ds, rest))
    (hds : ds ≠ []) : Took s rest := by
  unfold wholeDigits at h
  split at h
  · simp only [Prod.mk.injEq] at h
    rw [← h.2]
    exact took_cons (by decide) _
  · exact took_of_spanDigits h hds

theorem took_of_fraction? {s rest : List Letter} {ds : List Char}
    (h : fraction? s = some (ds, rest)) : Took s rest := by
  unfold fraction? at h
  split at h
  · split at h
    · simp at h
    · next hnone =>
      simp only [Option.some.injEq] at h
      refine (took_of_spanDigits h ?_).cons _
      rintro rfl
      exact hnone _ h
  · simp at h

theorem took_of_exponent? {s rest : List Letter} {n : Int} (h : exponent? s = some (n, rest)) :
    Took s rest := by
  unfold exponent? at h
  split at h
  · next e tail =>
    split at h
    · split at h
      next negative ds hsign =>
      have hsuffix : ds <:+ tail := by
        split at hsign <;> cases hsign
        · exact List.suffix_cons _ _
        · exact List.suffix_cons _ _
        · exact List.suffix_rfl
      split at h
      · simp at h
      · next digits after hne hspan =>
        simp only [Option.some.injEq, Prod.mk.injEq] at h
        rw [← h.2]
        exact ((took_of_spanDigits hspan hne).of_suffix hsuffix).cons _
    · simp at h
  · simp at h

theorem took_of_readUnsigned {start : Nat} {negative : Bool} {s rest : List Letter} {v : Value}
    (h : readUnsigned start negative s = .ok (v, rest)) : Took s rest := by
  unfold readUnsigned at h
  split at h
  next whole afterWhole hspan =>
  split at h
  · simp at h
  · next hne =>
    have hwhole : Took s afterWhole := took_of_wholeDigits hspan (by simpa using hne)
    -- a part that does not stand there takes nothing
    have hfraction : Took s (((fraction? afterWhole).map Prod.snd).getD afterWhole) := by
      cases hpart : fraction? afterWhole with
      | none => exact hwhole
      | some part => exact hwhole.trans (took_of_fraction? hpart)
    have hexponent {t : List Letter} (ht : Took s t) :
        Took s (((exponent? t).map Prod.snd).getD t) := by
      cases hpart : exponent? t with
      | none => exact ht
      | some part => exact ht.trans (took_of_exponent? hpart)
    have hrest : rest = ((exponent? (((fraction? afterWhole).map Prod.snd).getD afterWhole)).map
        Prod.snd).getD (((fraction? afterWhole).map Prod.snd).getD afterWhole) := by
      simp only at h
      split at h
      · split at h
        · simp at h
        · simp only [Except.ok.injEq, Prod.mk.injEq] at h
          exact h.2.symm
      · simp only [Except.ok.injEq, Prod.mk.injEq] at h
        exact h.2.symm
    rw [hrest]
    exact hexponent hfraction

/-- A word that stands in front is taken. -/
theorem took_of_afterFront? (name : List Letter) (l : Letter) (hl : closesValue l = true)
    {s rest : List Letter} (h : Text.afterFront? (name ++ [l]) s = some rest) : Took s rest := by
  unfold Text.afterFront? at h
  split at h
  · next hprefix =>
    obtain ⟨tail, rfl⟩ := List.isPrefixOf_iff_prefix.1 hprefix
    simp only [List.drop_left, Option.some.injEq] at h
    exact ⟨name, l, hl, by simp [h]⟩
  · simp at h

theorem took_of_literal? {s rest : List Letter} {v : Value} (h : literal? s = some (v, rest)) :
    Took s rest := by
  obtain ⟨name, hname, hfront⟩ := isNamed_of_literal? h
  cases hname with
  | null => exact took_of_afterFront? (letters "nul".toList) (.char 'l') (by decide) hfront
  | yes => exact took_of_afterFront? (letters "tru".toList) (.char 'e') (by decide) hfront
  | no => exact took_of_afterFront? (letters "fals".toList) (.char 'e') (by decide) hfront
  | nan => exact took_of_afterFront? (letters "Na".toList) (.char 'N') (by decide) hfront
  | infinity => exact took_of_afterFront? (letters "Infinit".toList) (.char 'y') (by decide) hfront

theorem took_of_readNumber {s rest : List Letter} {v : Value} (h : readNumber s = .ok (v, rest)) :
    Took s rest := by
  unfold readNumber at h
  split at h
  · next tail hfront =>
    simp only [Except.ok.injEq, Prod.mk.injEq] at h
    rw [← h.2]
    exact took_of_afterFront? (letters "-Infinit".toList) (.char 'y') (by decide) hfront
  · split at h
    · exact (took_of_readUnsigned h).cons _
    · exact took_of_readUnsigned h

/-! ### Values -/

/-- Blanks before the last letter of a piece are taken with it. -/
theorem took_of_skipBlanks {s rest : List Letter} {l : Letter} (hl : closesValue l = true)
    (h : skipBlanks s = l :: rest) : Took s rest :=
  (took_cons hl rest).of_suffix (h ▸ skipBlanks_suffix s)

/-- So are blanks before a letter and behind it, where a piece follows. -/
theorem Took.between {s t rest : List Letter} {l : Letter} (h : Took (skipBlanks t) rest)
    (hs : skipBlanks s = l :: t) : Took s rest :=
  ((h.of_suffix (skipBlanks_suffix t)).cons l).of_suffix (hs ▸ skipBlanks_suffix s)

theorem IsMember.took {s name after : List Letter} {v : Value}
    (h : IsMember (fun s _ rest => Took s rest) s name v after) : Took s after := by
  obtain ⟨hname, hcolon, hvalue⟩ := h
  exact ((took_of_readString hname).cons _).trans (hvalue.between hcolon)

/-- The three readers take what they read. -/
theorem rules_took : Rules (fun s _ rest => Took s rest) (fun s _ rest => Took s rest)
    (fun _ s _ rest => Took s rest) where
  text h := (took_of_readString h).cons _
  literal := took_of_literal?
  number := took_of_readNumber
  emptyDict h := (took_of_skipBlanks (by decide) h).cons _
  dict h := (h.of_suffix (skipBlanks_suffix _)).cons _
  emptyList h := (took_of_skipBlanks (by decide) h).cons _
  list h := (h.of_suffix (skipBlanks_suffix _)).cons _
  lastItem hv hend := hv.trans (took_of_skipBlanks (by decide) hend)
  item hv hcomma hrest := hv.trans (hrest.between hcomma)
  lastMember hmember hend := hmember.took.trans (took_of_skipBlanks (by decide) hend)
  member hmember hcomma hrest := hmember.took.trans (hrest.between hcomma)

/-- The text begins with a letter that opens a value. -/
def OpensValue (s : List Letter) : Prop := ∃ l tail, s = l :: tail ∧ opensValue l = true

theorem opensValue_of_literal? {s rest : List Letter} {v : Value} (h : literal? s = some (v, rest)) :
    OpensValue s := by
  obtain ⟨name, hname, hfront⟩ := isNamed_of_literal? h
  unfold Text.afterFront? at hfront
  split at hfront
  · next hprefix =>
    obtain ⟨tail, rfl⟩ := List.isPrefixOf_iff_prefix.1 hprefix
    cases hname <;> exact ⟨_, _, rfl, by decide⟩
  · cases hfront

theorem opensValue_of_readNumber {s rest : List Letter} {v : Value}
    (h : readNumber s = .ok (v, rest)) : OpensValue s := by
  obtain ⟨c, tail, rfl, hc⟩ := exists_front_of_readNumber h
  refine ⟨.char c, tail, rfl, ?_⟩
  rcases hc with rfl | hc
  · decide
  · simp [opensValue, Letter.isIn, hc]

/-- What is read begins with a letter that opens a value; what is read in it does not count. -/
theorem rules_opensValue :
    Rules (fun s _ _ => OpensValue s) (fun _ _ _ => True) (fun _ _ _ _ => True) where
  text _ := ⟨_, _, rfl, by decide⟩
  literal := opensValue_of_literal?
  number := opensValue_of_readNumber
  emptyDict _ := ⟨_, _, rfl, by decide⟩
  dict _ := ⟨_, _, rfl, by decide⟩
  emptyList _ := ⟨_, _, rfl, by decide⟩
  list _ := ⟨_, _, rfl, by decide⟩
  lastItem _ _ := trivial
  item _ _ _ := trivial
  lastMember _ _ := trivial
  member _ _ _ := trivial

/-! ### Whole texts -/

/-- **A trimmed text of a value has the ends of a value**: it begins with a letter that opens one
and ends in a letter that closes one. -/
theorem exists_ends_of_readLetters {t : List Letter} {v : Value}
    (htrim : Text.IsTrimmed (Letter.isIn Text.isBlank) t) (h : readLetters t = .ok v) :
    OpensValue t ∧ ∃ front l, t = front ++ [l] ∧ closesValue l = true := by
  have hskip : skipBlanks t = t := by
    cases t with
    | nil => rfl
    | cons l tail =>
      have hl : l.isIn Text.isBlank = false := htrim.head l rfl
      refine skipBlanks_cons (Bool.eq_false_iff.2 fun hblank => ?_) tail
      rw [isIn_isBlank_of_isXmlBlank hblank] at hl
      cases hl
  obtain ⟨-, hopens, -⟩ := rules_opensValue.of_readLetters h
  obtain ⟨after, ⟨front, l, hl, heq⟩, hafter⟩ := rules_took.of_readLetters h
  rw [hskip] at hopens heq
  refine ⟨hopens, ?_⟩
  -- what is left are blanks, and no blank stands at the end
  rcases List.eq_nil_or_concat' after with rfl | ⟨before, last, rfl⟩
  · exact ⟨front, l, heq, hl⟩
  · have hblank := List.dropWhile_eq_nil_iff.1 hafter last (by simp)
    have hend : t = (front ++ l :: before) ++ [last] := by simp [heq]
    have hlast : last.isIn Text.isBlank = false :=
      htrim.last last (by rw [hend, List.getLast?_concat]; rfl)
    rw [isIn_isBlank_of_isXmlBlank hblank] at hlast
    cases hlast

end PagePlan.Json
