/-
# How far a token reaches

A token ends inside the text it is read from: what follows it is the end of that text, and at least
one character shorter.  So the fuel of the tokenizer, one more than the length of the text, never
runs out, and the tokens of a text with some markup in front are those of the markup and then those
of the text.

* `readToken_suffix` — what follows a token is the end of the text after its first character;
* `readTokens_fuel` — any fuel above the length of the text gives the same tokens.
-/
import PagePlan.Html.Token
import Mathlib.Data.List.TakeWhile

namespace PagePlan.Html

variable {s rest : List Char}

/-! ### Names, attributes and comments -/

theorem readName_suffix (s : List Char) : (readName s).2 <:+ s := List.dropWhile_suffix _

theorem readAttributeName_suffix (s : List Char) : (readAttributeName s).2 <:+ s := by
  unfold readAttributeName
  split
  · exact (List.dropWhile_suffix _).trans (List.suffix_cons _ _)
  · exact List.dropWhile_suffix _

theorem readAttributeValue_suffix {value : String} (h : readAttributeValue s = some (value, rest)) :
    rest <:+ s := by
  have hblank := List.dropWhile_suffix Text.isHtmlBlank (l := s)
  -- What stands behind the closing quotation mark stands in the text behind the opening one.
  have hquoted {q q' d : Char} {t after : List Char} (ht : s.dropWhile Text.isHtmlBlank = q' :: t)
      (hafter : t.dropWhile (· != q) = d :: after) : after <:+ s :=
    ((List.suffix_cons d after).trans (hafter ▸ List.dropWhile_suffix _)).trans
      ((List.suffix_cons q' t).trans (ht ▸ hblank))
  unfold readAttributeValue at h
  dsimp only at h
  split at h
  · next t ht =>
    split at h
    · cases h
    · next hafter =>
      cases h
      exact hquoted ht hafter
  · next t ht =>
    split at h
    · cases h
    · next hafter =>
      cases h
      exact hquoted ht hafter
  · next t _ _ =>
    cases h
    exact (List.dropWhile_suffix _).trans hblank

theorem readAttributes_suffix {fuel : Nat} {found : List (String × Option String)} {closed : Bool}
    (h : readAttributes fuel s = some (found, closed, rest)) : rest <:+ s := by
  induction fuel generalizing s found closed rest with
  | zero => cases h
  | succ fuel ih =>
    have hblank := List.dropWhile_suffix Text.isHtmlBlank (l := s)
    rw [readAttributes] at h
    split at h
    · cases h
    · next t heq =>
      cases h
      exact (List.suffix_cons _ _).trans (heq ▸ hblank)
    · next t heq =>
      cases h
      exact ((List.suffix_cons _ _).trans (List.suffix_cons _ _)).trans (heq ▸ hblank)
    · next t _ heq => exact (ih h).trans ((List.suffix_cons _ t).trans (heq ▸ hblank))
    · -- An attribute, with a value or without, and those behind it.
      have hname := (readAttributeName_suffix (s.dropWhile Text.isHtmlBlank)).trans hblank
      dsimp only at h
      split at h
      · next t heq =>
        have ht : t <:+ s := ((List.suffix_cons _ t).trans (heq ▸ List.dropWhile_suffix _)).trans hname
        obtain ⟨⟨value, t'⟩, hvalue, h⟩ := Option.bind_eq_some_iff.1 h
        obtain ⟨⟨others, closed', t''⟩, hothers, h⟩ := Option.bind_eq_some_iff.1 h
        cases h
        exact (ih hothers).trans ((readAttributeValue_suffix hvalue).trans ht)
      · obtain ⟨⟨others, closed', t''⟩, hothers, h⟩ := Option.bind_eq_some_iff.1 h
        cases h
        exact (ih hothers).trans ((List.dropWhile_suffix _).trans hname)

theorem readCommentBody_suffix (s : List Char) : (readCommentBody s).2 <:+ s := by
  fun_induction readCommentBody s with
  | case1 => exact List.suffix_refl _
  | case2 rest => exact List.suffix_append ['-', '-', '>'] rest
  | case3 rest => exact List.suffix_append ['-', '-', '!', '>'] rest
  | case4 => exact List.nil_suffix
  | case5 => exact List.nil_suffix
  | case6 => exact List.nil_suffix
  | case7 c rest _ _ _ _ _ body after heq ih =>
    rw [heq] at ih
    exact ih.trans (List.suffix_cons c rest)

theorem readComment_suffix (s : List Char) : (readComment s).2 <:+ s := by
  unfold readComment
  split
  · exact List.suffix_cons _ _
  · exact List.suffix_append ['-', '>'] _
  · exact readCommentBody_suffix _

theorem readBogusComment_suffix (s : List Char) : (readBogusComment s).2 <:+ s :=
  (List.drop_suffix 1 _).trans (List.dropWhile_suffix _)

/-! ### Texts -/

theorem spanText_suffix (s : List Char) : (spanText s).2 <:+ s := by
  fun_induction spanText s with
  | case1 => exact List.suffix_refl _
  | case2 c rest _ => exact List.suffix_refl _
  | case3 c rest _ before after heq ih =>
    rw [heq] at ih
    exact ih.trans (List.suffix_cons c rest)

theorem spanRaw_suffix (name s : List Char) : (spanRaw name s).2 <:+ s := by
  fun_induction spanRaw name s with
  | case1 => exact List.suffix_refl _
  | case2 c rest _ => exact List.suffix_refl _
  | case3 c rest _ before after heq ih =>
    rw [heq] at ih
    exact ih.trans (List.suffix_cons c rest)

theorem spanScript_suffix (state : ScriptState) (s : List Char) : (spanScript state s).2 <:+ s := by
  fun_induction spanScript state s with
  | case1 => exact List.suffix_refl _
  | case2 => exact List.suffix_refl _
  | case3 state c rest _ _ _ before after heq ih =>
    rw [heq] at ih
    exact ih.trans (List.suffix_cons c rest)

theorem readElementText_suffix (name : String) (s : List Char) :
    (readElementText name s).2 <:+ s := by
  unfold readElementText
  split
  · exact List.suffix_refl _
  · exact spanRaw_suffix _ s
  · exact spanRaw_suffix _ s
  · exact spanScript_suffix _ s
  · exact List.nil_suffix

/-! ### Tokens -/

/-- **What follows a token is the end of the text after its first character.** -/
theorem readToken_suffix {c : Char} {found : List Token}
    (h : readToken (c :: s) = some (found, rest)) : rest <:+ s := by
  unfold readToken at h
  split at h
  · next t heq =>
    cases heq
    cases h
    exact List.suffix_append ['/', '>'] _
  · -- An end tag, or what is read as a comment in its place.
    next d t _ heq =>
    cases heq
    split at h
    · obtain ⟨⟨attributes, closed, t'⟩, hread, h⟩ := Option.bind_eq_some_iff.1 h
      cases h
      exact (readAttributes_suffix hread).trans
        ((readName_suffix _).trans (List.suffix_cons '/' (d :: t)))
    · cases h
      exact (readBogusComment_suffix _).trans (List.suffix_cons '/' (d :: t))
  · next heq =>
    cases h
    exact List.nil_suffix
  · next t heq =>
    cases heq
    cases h
    exact (readComment_suffix t).trans (List.suffix_append ['!', '-', '-'] t)
  · next t _ heq =>
    cases heq
    have hrest : rest = (readBogusComment t).2 := by
      dsimp only at h
      split at h <;> (cases h; rfl)
    exact hrest ▸ (readBogusComment_suffix t).trans (List.suffix_cons '!' t)
  · next t heq =>
    cases heq
    cases h
    exact readBogusComment_suffix _
  · -- A start tag with the text that belongs to its element, or an angle bracket in a text.
    next d t _ _ _ _ _ _ heq =>
    cases heq
    split at h
    · obtain ⟨⟨attributes, closed, t'⟩, hread, h⟩ := Option.bind_eq_some_iff.1 h
      have ht' := (readAttributes_suffix hread).trans (readName_suffix (d :: t))
      cases closed with
      | true =>
        cases h
        exact ht'
      | false =>
        cases h
        exact (readElementText_suffix _ t').trans ht'
    · cases h
      exact spanText_suffix (d :: t)
  · -- Text, or one character that is neither.
    by_cases hmarkup : startsMarkup (c :: s)
    · rw [spanText, if_pos hmarkup] at h
      cases h
      exact List.suffix_refl _
    · rw [spanText, if_neg hmarkup] at h
      cases h
      exact spanText_suffix s

/-- **Any fuel above the length of a text gives the same tokens.** -/
theorem readTokens_fuel {n m : Nat} (hn : s.length < n) (hm : s.length < m) :
    readTokens n s = readTokens m s := by
  induction n generalizing s m with
  | zero => omega
  | succ n ih =>
    obtain ⟨m, rfl⟩ : ∃ k, m = k + 1 := ⟨m - 1, by omega⟩
    cases s with
    | nil => rfl
    | cons c s =>
      rw [readTokens, readTokens]
      · cases h : readToken (c :: s) with
        | none => rfl
        | some found =>
          obtain ⟨found, rest⟩ := found
          have hlength := (readToken_suffix h).length_le
          rw [List.length_cons] at hn hm
          exact congrArg (found ++ ·) (ih (by omega) (by omega))
      all_goals nofun

/-- The tokens of a text that is normalized already. -/
theorem readTokens_cons {c : Char} {found : List Token} {n : Nat}
    (h : readToken (c :: s) = some (found, rest)) (hn : (c :: s).length < n) :
    readTokens n (c :: s) = found ++ readTokens (rest.length + 1) rest := by
  obtain ⟨n, rfl⟩ : ∃ k, n = k + 1 := ⟨n - 1, by omega⟩
  have hlength := (readToken_suffix h).length_le
  rw [List.length_cons] at hn
  rw [readTokens, h]
  · exact congrArg (found ++ ·) (readTokens_fuel (by omega) (by omega))
  · nofun

/-! ### Markup in front of a text -/

/-- Characters that are no line ends and not null are kept. -/
theorem normalize_append {front : List Char} (h : ∀ c ∈ front, c ≠ '\r' ∧ c.toNat ≠ 0)
    (s : List Char) : normalize (front ++ s) = front ++ normalize s := by
  induction front with
  | nil => rfl
  | cons c front ih =>
    obtain ⟨hreturn, hnull⟩ := h c List.mem_cons_self
    rw [List.cons_append, normalize, if_neg hnull, ih fun d hd => h d (List.mem_cons_of_mem c hd)]
    · rfl
    · exact fun _ heq _ => hreturn heq
    · exact hreturn

/-- **The tokens of a text with one instruction in front are a comment and the tokens of the text.**
-/
theorem tokens_instruction (body s : List Char)
    (h : ∀ c ∈ body, c ≠ '\r' ∧ c.toNat ≠ 0 ∧ c ≠ '>') :
    tokens ('<' :: '?' :: body ++ '>' :: s) =
      .comment (String.ofList ('?' :: body)) :: tokens s := by
  have hfront : ∀ c ∈ '<' :: '?' :: body ++ ['>'], c ≠ '\r' ∧ c.toNat ≠ 0 := by
    intro c hc
    simp only [List.cons_append, List.mem_cons, List.mem_append, List.not_mem_nil, or_false] at hc
    rcases hc with rfl | rfl | hc | rfl
    · decide
    · decide
    · exact ⟨(h c hc).1, (h c hc).2.1⟩
    · decide
  have hbody : ∀ c ∈ '?' :: body, (c != '>') = true := by
    intro c hc
    rcases List.mem_cons.1 hc with rfl | hc
    · decide
    · simpa using (h c hc).2.2
  have hread : readToken ('<' :: '?' :: body ++ '>' :: normalize s) =
      some ([.comment (String.ofList ('?' :: body))], normalize s) := by
    rw [List.cons_append, List.cons_append, readToken, readBogusComment, ← List.cons_append,
      List.takeWhile_append_of_pos hbody, List.dropWhile_append_of_pos hbody]
    simp
  have hnormalize : normalize ('<' :: '?' :: body ++ '>' :: s) =
      '<' :: '?' :: body ++ '>' :: normalize s := by
    have heq := normalize_append hfront s
    simpa using heq
  unfold tokens
  rw [hnormalize, List.cons_append]
  exact readTokens_cons hread (by simp)

end PagePlan.Html
