/-
# Fences around a reply

A reply holds its JSON between an opening fence, with or without the name of the language, and a
closing one; either may be missing, and blanks may stand around each.  The text of a value begins
and ends like no fence, so that what is dropped ends where the value begins, and what is left is
the text of the value letter by letter, whatever its strings hold.

* `parse_fenced` — a reply means what the text between its fences means.
-/
import PagePlan.Model.Reply
import PagePlan.Proofs.Json.Ends

namespace PagePlan

namespace Text

variable {α : Type} [BEq α] [LawfulBEq α]

theorem afterFront?_self_append (pat s : List α) : afterFront? pat (pat ++ s) = some s := by
  simp [afterFront?]

theorem afterFront?_of_head_ne {a : α} (pat : List α) {s : List α} (h : ∀ b ∈ s.head?, b ≠ a) :
    afterFront? (a :: pat) s = none := by
  cases s with
  | nil => simp [afterFront?]
  | cons b s => simp [afterFront?, (h b rfl).symm]

end Text

namespace Reply

open Text (Letter letters)

/-- The blanks that may stand around a fence. -/
def Blanks (s : List Letter) : Prop := ∀ l ∈ s, l.isIn Text.isBlank = true

theorem Blanks.append {s t : List Letter} (hs : Blanks s) (ht : Blanks t) : Blanks (s ++ t) :=
  fun l hl => (List.mem_append.1 hl).elim (hs l) (ht l)

theorem Blanks.reverse {s : List Letter} (h : Blanks s) : Blanks s.reverse :=
  fun l hl => h l (List.mem_reverse.1 hl)

theorem Blanks.dropWhile_append {s : List Letter} (h : Blanks s) {t : List Letter}
    (ht : ∀ l ∈ t.head?, l.isIn Text.isBlank = false) :
    (s ++ t).dropWhile (Letter.isIn Text.isBlank) = t := by
  rw [List.dropWhile_append_of_pos h]
  cases t with
  | nil => rfl
  | cons l t => exact List.dropWhile_cons_of_neg (by simp [ht l rfl])

/-- A text that begins like no fence, and like no name of a language. -/
structure Begins (s : List Letter) : Prop where
  ne_nil : s ≠ []
  notBlank : ∀ l ∈ s.head?, l.isIn Text.isBlank = false
  notFence : ∀ l ∈ s.head?, l ≠ .char '\x60'
  notName : ∀ l ∈ s.head?, l ≠ .char 'j'

/-- A text that ends like no fence. -/
structure Ends (s : List Letter) : Prop where
  ne_nil : s ≠ []
  notBlank : ∀ l ∈ s.getLast?, l.isIn Text.isBlank = false
  notFence : ∀ l ∈ s.getLast?, l ≠ .char '\x60'

theorem Begins.append {s : List Letter} (h : Begins s) (t : List Letter) : Begins (s ++ t) := by
  have hhead : (s ++ t).head? = s.head? := List.head?_append_of_ne_nil s h.ne_nil
  exact ⟨by simp [h.ne_nil], hhead ▸ h.notBlank, hhead ▸ h.notFence, hhead ▸ h.notName⟩

/-- The text of a value begins and ends like no fence. -/
theorem begins_of_readLetters {t : List Letter} {v : Value}
    (htrim : Text.IsTrimmed (Letter.isIn Text.isBlank) t) (h : Json.readLetters t = .ok v) :
    Begins t := by
  obtain ⟨⟨l, tail, rfl, hl⟩, -⟩ := Json.exists_ends_of_readLetters htrim h
  refine ⟨List.cons_ne_nil _ _, htrim.head, ?_, ?_⟩
  · rintro _ ⟨⟩ rfl
    exact absurd hl (by decide)
  · rintro _ ⟨⟩ rfl
    exact absurd hl (by decide)

theorem ends_of_readLetters {t : List Letter} {v : Value}
    (htrim : Text.IsTrimmed (Letter.isIn Text.isBlank) t) (h : Json.readLetters t = .ok v) :
    Ends t := by
  obtain ⟨-, front, l, rfl, hl⟩ := Json.exists_ends_of_readLetters htrim h
  refine ⟨by simp, htrim.last, ?_⟩
  rw [List.getLast?_concat]
  rintro _ ⟨⟩ rfl
  exact absurd hl (by decide)

/-! ### Opening fences -/

theorem dropOpening_of_begins {s : List Letter} (h : Begins s) : dropOpening s = s := by
  have hfront : Text.afterFront? fence s = none := Text.afterFront?_of_head_ne _ h.notFence
  rw [dropOpening, hfront]

theorem dropOpening_fence {w s : List Letter} (hw : Blanks w) (h : Begins s) :
    dropOpening (fence ++ (w ++ s)) = s := by
  have hname : Text.afterFront? (letters "json".toList) (w ++ s) = none := by
    apply Text.afterFront?_of_head_ne
    cases w with
    | nil => exact h.notName
    | cons l w =>
      rintro _ ⟨⟩ rfl
      exact absurd (hw _ List.mem_cons_self) (by decide)
  rw [dropOpening, Text.afterFront?_self_append]
  simp only [hname, Option.getD_none]
  exact hw.dropWhile_append h.notBlank

theorem dropOpening_fence_name {w s : List Letter} (hw : Blanks w) (h : Begins s) :
    dropOpening (fence ++ letters "json".toList ++ (w ++ s)) = s := by
  rw [List.append_assoc, dropOpening, Text.afterFront?_self_append]
  simp only [Text.afterFront?_self_append, Option.getD_some]
  exact hw.dropWhile_append h.notBlank

/-- What stands before a value is blanks and then what is dropped with the opening fence. -/
theorem exists_front {w₀ opening w₁ : List Letter} (h₀ : Blanks w₀) (h₁ : Blanks w₁)
    (hopening : opening ∈ [[], fence, fence ++ letters "json".toList]) :
    ∃ before front, w₀ ++ opening ++ w₁ = before ++ front ∧ Blanks before ∧
      (∀ l ∈ front.head?, l.isIn Text.isBlank = false) ∧
      ∀ s, Begins s → dropOpening (front ++ s) = s := by
  simp only [List.mem_cons, List.not_mem_nil, or_false] at hopening
  rcases hopening with rfl | rfl | rfl
  · refine ⟨w₀ ++ w₁, [], by simp, h₀.append h₁, by simp, fun s hs => ?_⟩
    exact dropOpening_of_begins hs
  · refine ⟨w₀, fence ++ w₁, by simp, h₀, ?_, fun s hs => ?_⟩
    · rintro _ ⟨⟩
      rfl
    · rw [List.append_assoc]
      exact dropOpening_fence h₁ hs
  · refine ⟨w₀, fence ++ letters "json".toList ++ w₁, by simp, h₀, ?_, fun s hs => ?_⟩
    · rintro _ ⟨⟩
      rfl
    · rw [List.append_assoc]
      exact dropOpening_fence_name h₁ hs

/-! ### Closing fences -/

theorem dropClosing_of_ends {s : List Letter} (h : Ends s) : dropClosing s = s := by
  have hfront : Text.afterFront? fence s.reverse = none :=
    Text.afterFront?_of_head_ne _ (by rw [List.head?_reverse]; exact h.notFence)
  rw [dropClosing, hfront]

theorem dropClosing_fence {s w : List Letter} (h : Ends s) (hw : Blanks w) :
    dropClosing (s ++ (w ++ fence)) = s := by
  have hreverse : (s ++ (w ++ fence)).reverse = fence ++ (w.reverse ++ s.reverse) := by
    have hfence : fence.reverse = fence := by decide
    simp [hfence]
  rw [dropClosing, hreverse, Text.afterFront?_self_append]
  simp only
  rw [hw.reverse.dropWhile_append (by rw [List.head?_reverse]; exact h.notBlank),
    List.reverse_reverse]

/-- What stands behind a value is what is dropped with the closing fence and then blanks. -/
theorem exists_back {w₂ closing w₃ : List Letter} (h₂ : Blanks w₂) (h₃ : Blanks w₃)
    (hclosing : closing ∈ [[], fence]) :
    ∃ back behind, w₂ ++ closing ++ w₃ = back ++ behind ∧ Blanks behind ∧
      (∀ l ∈ back.getLast?, l.isIn Text.isBlank = false) ∧
      ∀ s, Ends s → dropClosing (s ++ back) = s := by
  simp only [List.mem_cons, List.not_mem_nil, or_false] at hclosing
  rcases hclosing with rfl | rfl
  · refine ⟨[], w₂ ++ w₃, by simp, h₂.append h₃, by simp, fun s hs => ?_⟩
    rw [List.append_nil]
    exact dropClosing_of_ends hs
  · refine ⟨w₂ ++ fence, w₃, by simp, h₃, ?_, fun s hs => dropClosing_fence hs h₂⟩
    rw [List.getLast?_append_of_ne_nil _ (by decide)]
    rintro _ ⟨⟩
    rfl

/-! ### Replies -/

theorem parse_ofLetters {s : List Letter} {v : Value}
    (h : Json.readLetters (stripFences s) = .ok v) : parse (.ofLetters s) = .ok v := by
  have hparse {w : Value} (hw : w.isText = true) (hletters : w.asLetters = s) :
      parse w = .ok v := by
    unfold parse
    split
    · cases hw
    · simp only [hletters, h]
  exact hparse (Json.isText_ofLetters s) (Value.asLetters_ofLetters s)

/-- **Fences are transparent.**  A reply that holds the text of a value between fences and blanks
means that value: what is left of it is the text itself, with the fences that its strings hold. -/
theorem parse_fenced {t : List Letter} {v : Value}
    (htrim : Text.IsTrimmed (Letter.isIn Text.isBlank) t) (hread : Json.readLetters t = .ok v)
    {opening closing : List Letter}
    (hopening : opening ∈ [[], fence, fence ++ letters "json".toList])
    (hclosing : closing ∈ [[], fence])
    {w₀ w₁ w₂ w₃ : List Letter} (h₀ : Blanks w₀) (h₁ : Blanks w₁) (h₂ : Blanks w₂)
    (h₃ : Blanks w₃) :
    stripFences (w₀ ++ opening ++ w₁ ++ t ++ w₂ ++ closing ++ w₃) = t ∧
      parse (.ofLetters (w₀ ++ opening ++ w₁ ++ t ++ w₂ ++ closing ++ w₃)) = .ok v := by
  have hbegins := begins_of_readLetters htrim hread
  have hends := ends_of_readLetters htrim hread
  obtain ⟨before, front, hfront, hbefore, hhead, hopen⟩ := exists_front h₀ h₁ hopening
  obtain ⟨back, behind, hback, hbehind, hlast, hclose⟩ := exists_back h₂ h₃ hclosing
  have hwhole : w₀ ++ opening ++ w₁ ++ t ++ w₂ ++ closing ++ w₃ =
      before ++ (front ++ t ++ back) ++ behind := by
    calc w₀ ++ opening ++ w₁ ++ t ++ w₂ ++ closing ++ w₃
        = (w₀ ++ opening ++ w₁) ++ t ++ (w₂ ++ closing ++ w₃) := by simp only [List.append_assoc]
      _ = before ++ (front ++ t ++ back) ++ behind := by
        rw [hfront, hback]
        simp only [List.append_assoc]
  have hinner : Text.IsTrimmed (Letter.isIn Text.isBlank) (front ++ t ++ back) := by
    constructor
    · intro l hl
      rw [List.append_assoc, List.head?_append, Option.mem_def, Option.or_eq_some_iff] at hl
      rcases hl with hl | ⟨-, hl⟩
      · exact hhead l hl
      · exact (hbegins.append back).notBlank l hl
    · intro l hl
      rw [List.getLast?_append, Option.mem_def, Option.or_eq_some_iff] at hl
      rcases hl with hl | ⟨-, hl⟩
      · exact hlast l hl
      · rw [List.getLast?_append_of_ne_nil _ hends.ne_nil] at hl
        exact hends.notBlank l hl
  have hstrip : stripFences (w₀ ++ opening ++ w₁ ++ t ++ w₂ ++ closing ++ w₃) = t := by
    calc stripFences (w₀ ++ opening ++ w₁ ++ t ++ w₂ ++ closing ++ w₃)
        = dropClosing (dropOpening (front ++ t ++ back)) := by
          rw [stripFences, hwhole, Text.trim_append hbefore hinner hbehind]
      _ = dropClosing (t ++ back) := by
          rw [List.append_assoc, hopen _ (hbegins.append back)]
      _ = t := hclose t hends
  exact ⟨hstrip, parse_ofLetters (by rw [hstrip]; exact hread)⟩

/-- A text of fences alone, as JSON writes it. -/
def quotedFences : List Letter :=
  letters ['\x22', '\x60', '\x60', '\x60', ' ', '\x60', '\x60', '\x60', '\x22']

theorem parse_fenced_quotedFences :
    parse (.ofLetters (letters ['\u00a0'] ++ (fence ++ letters "json".toList) ++ [] ++
      quotedFences ++ letters ['\n'] ++ fence ++ letters [' '])) =
      .ok (.str "\x60\x60\x60 \x60\x60\x60") := by
  have hblanks {s : List Letter} (h : s.all (Letter.isIn Text.isBlank) = true) : Blanks s :=
    List.all_eq_true.1 h
  refine (parse_fenced (t := quotedFences) ⟨?_, ?_⟩ ?_ ?_ ?_ ?_ ?_ ?_ ?_).2
  · decide
  · decide
  · rfl
  · decide
  · decide
  · exact hblanks (by decide)
  · exact hblanks (by decide)
  · exact hblanks (by decide)
  · exact hblanks (by decide)

end Reply

end PagePlan
