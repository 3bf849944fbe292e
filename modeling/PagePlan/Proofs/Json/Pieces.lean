/-
# The pieces of a written value

What is written as JSON is put together of line breaks with their indentation, of closing brackets
on lines of their own, and of printed pieces: names, numbers, text literals and marks.  So a
property holds of all that is written if it holds of these and is kept when texts are put together.

* `OfPieces.writeAt` — what holds of the pieces holds of the whole.
-/
import PagePlan.Json.Writer
import PagePlan.Proofs.Decimal.Layout

namespace PagePlan.Json

open Text (Letter letters)

/-- The characters of ASCII that are printed. -/
def isAscii (c : Char) : Bool :=
  32 ≤ c.toNat && c.toNat ≤ 126

/-- No letter of a text is a control character, and where all else is escaped, each is one of
ASCII. -/
def Printed (style : Style) (s : List Letter) : Prop :=
  ∀ l ∈ s, 32 ≤ l.code ∧ (style = .ascii → l.code ≤ 126)

/-! ### Printed pieces -/

variable {style : Style}

theorem mem_letters {c : Char} {cs : List Char} : .char c ∈ letters cs ↔ c ∈ cs := by
  simp [letters]

theorem printed_letters (cs : List Char) (h : cs.all isAscii = true) :
    Printed style (letters cs) := by
  intro l hl
  obtain ⟨c, hc, rfl⟩ := List.mem_map.1 hl
  have hascii := List.all_eq_true.1 h c hc
  simp only [isAscii, Bool.and_eq_true, decide_eq_true_eq] at hascii
  exact ⟨hascii.1, fun _ => hascii.2⟩

theorem Printed.append {s t : List Letter} (hs : Printed style s) (ht : Printed style t) :
    Printed style (s ++ t) :=
  List.forall_mem_append.2 ⟨hs, ht⟩

theorem isAscii_of_isDigit {c : Char} (h : c.isDigit = true) : isAscii c = true := by
  simp only [Char.isDigit, Bool.and_eq_true, decide_eq_true_eq] at h
  simp only [isAscii, Bool.and_eq_true, decide_eq_true_eq]
  exact ⟨le_trans (by decide) (UInt32.le_iff_toNat_le.1 h.1),
    le_trans (UInt32.le_iff_toNat_le.1 h.2) (by decide)⟩

theorem printed_ofInt (n : Int) : Printed style (letters (Decimal.ofInt n)) := by
  have hnat (n : Nat) : (Decimal.ofNat n).all isAscii = true :=
    List.all_eq_true.2 fun _ hc => isAscii_of_isDigit (Decimal.isDigit_of_mem_ofNat hc)
  cases n with
  | ofNat n => exact printed_letters _ (hnat n)
  | negSucc n => exact printed_letters _ (Bool.and_eq_true_iff.2 ⟨by decide, hnat (n + 1)⟩)

theorem printed_writeFloat (x : Binary64) : Printed style (letters (writeFloat x)) := by
  have hmarks : (['.', '-', '+', 'e'] ++ (Decimal.jsonLayout.wholeEnd.toList ++
      Decimal.jsonLayout.infinity.toList ++ Decimal.jsonLayout.nan.toList)).all isAscii = true := by
    decide
  rw [List.all_eq_true] at hmarks
  refine printed_letters _ (List.all_eq_true.2 fun c hc => ?_)
  rcases Decimal.Layout.writes_of_mem_write hc with hdigit | hmark | hname
  · exact isAscii_of_isDigit hdigit
  · exact hmarks c (List.mem_append_left _ hmark)
  · exact hmarks c (List.mem_append_right _ hname)

theorem isAscii_of_mem_hexDigits {width n : Nat} {c : Char} (h : c ∈ Text.hexDigits width n) :
    isAscii c = true := by
  induction width generalizing n with
  | zero => cases h
  | succ width ih =>
    have all : ∀ d, d < 16 → isAscii (Text.hexDigit d) = true := by decide
    rcases List.mem_append.1 h with h | h
    · exact ih h
    · rw [List.mem_singleton.1 h]
      exact all _ (Nat.mod_lt _ (by decide))

theorem printed_unitEscape (n : Nat) : Printed style (letters (unitEscape n)) := by
  refine printed_letters _ (List.all_eq_true.2 ?_)
  rw [unitEscape, List.forall_mem_cons, List.forall_mem_cons]
  exact ⟨by decide, by decide, fun _ => isAscii_of_mem_hexDigits⟩

theorem printed_writeLetter (style : Style) (l : Letter) : Printed style (writeLetter style l) := by
  cases l with
  | half n =>
    rw [writeLetter]
    split
    · exact printed_unitEscape _
    · next hstyle =>
      intro l hl
      obtain rfl := List.mem_singleton.1 hl
      exact ⟨by rw [Letter.code]; omega, fun h => absurd h hstyle⟩
  | char c =>
    simp only [writeLetter, writeChar]
    repeat' split
    · next h =>
      rw [Bool.or_eq_true, beq_iff_eq, beq_iff_eq] at h
      rcases h with rfl | rfl <;> exact printed_letters _ (by decide)
    · exact printed_letters _ (by decide)
    · exact printed_letters _ (by decide)
    · exact printed_letters _ (by decide)
    · exact printed_letters _ (by decide)
    · exact printed_letters _ (by decide)
    · exact printed_unitEscape _
    · rw [unitEscapes]
      split
      · exact printed_unitEscape _
      · rw [Text.letters_append]
        exact (printed_unitEscape _).append (printed_unitEscape _)
    · next hcontrol hascii =>
      intro l hl
      obtain rfl := List.mem_singleton.1 hl
      refine ⟨Nat.not_lt.1 hcontrol, fun hstyle => ?_⟩
      simpa [hstyle, Letter.code] using hascii

theorem printed_writeString (style : Style) (s : List Letter) :
    Printed style (writeString style s) := by
  have hquote : Printed style [.char '\x22'] := printed_letters ['\x22'] (by decide)
  have hinside : Printed style (s.flatMap (writeLetter style)) := by
    intro l hl
    obtain ⟨m, -, hm⟩ := List.mem_flatMap.1 hl
    exact printed_writeLetter style m l hm
  exact (hquote.append hinside).append hquote

/-- Where all but ASCII is escaped, no half is left. -/
theorem Printed.any_isHalf {s : List Letter} (h : Printed .ascii s) :
    s.any Letter.isHalf = false := by
  refine List.any_eq_false.2 fun l hl => ?_
  cases l with
  | char c => simp [Letter.isHalf]
  | half n =>
    have hcode : 0xD800 + n.val ≤ 126 := (h _ hl).2 rfl
    omega

/-! ### The whole -/

/-- A property of texts that the pieces of a written value have, and that is kept when texts are put
together. -/
structure OfPieces (style : Style) (Q : List Letter → Prop) : Prop where
  append {s t : List Letter} : Q s → Q t → Q (s ++ t)
  printed {s : List Letter} : Printed style s → Q s
  newline (level : Nat) : Q (newline (level + 1))
  /-- A closing bracket stands on a line of its own. -/
  closing (level : Nat) {c : Char} : c ∈ [']', '\x7d'] → Q (Json.newline level ++ [.char c])

namespace OfPieces

variable {Q : List Letter → Prop}

/-- Parts between brackets, each on lines of its own. -/
theorem brackets (hQ : OfPieces style Q) (level : Nat) {opening closing : Char}
    {parts : List Letter} (hopening : isAscii opening = true) (hclosing : closing ∈ [']', '\x7d'])
    (hparts : Q parts) :
    Q (.char opening :: Json.newline (level + 1) ++ parts ++ Json.newline level ++
      [.char closing]) := by
  have hfront : Q [.char opening] :=
    hQ.printed (printed_letters [opening] (by simpa using hopening))
  have hall := hQ.append (hQ.append (hQ.append hfront (hQ.newline level)) hparts)
    (hQ.closing level hclosing)
  simpa using hall

/-- Two parts with a comma and a line break between them. -/
theorem comma (hQ : OfPieces style Q) (level : Nat) {first others : List Letter} (hfirst : Q first)
    (hothers : Q others) : Q (first ++ .char ',' :: Json.newline (level + 1) ++ others) := by
  have hmark : Q [.char ','] := hQ.printed (printed_letters [','] (by decide))
  have hall := hQ.append (hQ.append (hQ.append hfirst hmark) (hQ.newline level)) hothers
  simpa using hall

/-- A name and a value with a colon between them. -/
theorem member (hQ : OfPieces style Q) (name : List Letter) {value : List Letter}
    (hvalue : Q value) : Q (writeString style name ++ .char ':' :: .char ' ' :: value) := by
  have hmark : Q [.char ':', .char ' '] :=
    hQ.printed (printed_letters [':', ' '] (by decide))
  have hall := hQ.append (hQ.append (hQ.printed (printed_writeString style name)) hmark) hvalue
  simpa using hall

mutual

/-- **What holds of the pieces of a written value holds of all of it.** -/
theorem writeAt (hQ : OfPieces style Q) (level : Nat) (v : Value) {text : List Letter}
    (h : writeAt? style level v = some text) : Q text := by
  match v with
  | .null =>
    simp only [writeAt?, Option.some.injEq] at h
    subst h
    exact hQ.printed (printed_letters _ (by decide))
  | .bool b =>
    simp only [writeAt?, Option.some.injEq] at h
    subst h
    cases b <;> exact hQ.printed (printed_letters _ (by decide))
  | .int n =>
    simp only [writeAt?, Option.some.injEq] at h
    subst h
    exact hQ.printed (printed_ofInt n)
  | .float x =>
    simp only [writeAt?, Option.some.injEq] at h
    subst h
    exact hQ.printed (printed_writeFloat x)
  | .str s =>
    simp only [writeAt?, Option.some.injEq] at h
    subst h
    exact hQ.printed (printed_writeString style _)
  | .unpaired t =>
    simp only [writeAt?, Option.some.injEq] at h
    subst h
    exact hQ.printed (printed_writeString style _)
  | .list [] =>
    simp only [writeAt?, Option.some.injEq] at h
    subst h
    exact hQ.printed (printed_letters ['[', ']'] (by decide))
  | .list (x :: xs) =>
    simp only [writeAt?, Option.bind_eq_bind, Option.bind_eq_some_iff] at h
    obtain ⟨items, hitems, h⟩ := h
    obtain rfl := Option.some.inj h
    exact hQ.brackets level (by decide) (by decide) (hQ.writeItems level (x :: xs) (by simp) hitems)
  | .tuple [] =>
    simp only [writeAt?, Option.some.injEq] at h
    subst h
    exact hQ.printed (printed_letters ['[', ']'] (by decide))
  | .tuple (x :: xs) =>
    simp only [writeAt?, Option.bind_eq_bind, Option.bind_eq_some_iff] at h
    obtain ⟨items, hitems, h⟩ := h
    obtain rfl := Option.some.inj h
    exact hQ.brackets level (by decide) (by decide) (hQ.writeItems level (x :: xs) (by simp) hitems)
  | .dict [] =>
    simp only [writeAt?, Option.some.injEq] at h
    subst h
    exact hQ.printed (printed_letters ['\x7b', '\x7d'] (by decide))
  | .dict (e :: es) =>
    simp only [writeAt?, Option.bind_eq_bind, Option.bind_eq_some_iff] at h
    obtain ⟨members, hmembers, h⟩ := h
    obtain rfl := Option.some.inj h
    exact hQ.brackets level (by decide) (by decide)
      (hQ.writeMembers level (e :: es) (by simp) hmembers)

/-- What holds of the pieces holds of the items of a sequence. -/
theorem writeItems (hQ : OfPieces style Q) (level : Nat) (xs : List Value) (hne : xs ≠ [])
    {text : List Letter} (h : writeItems? style (level + 1) xs = some text) : Q text := by
  match xs with
  | [] => exact absurd rfl hne
  | [x] =>
    rw [writeItems?] at h
    exact hQ.writeAt (level + 1) x h
  | x :: y :: ys =>
    simp only [writeItems?, Option.bind_eq_bind, Option.bind_eq_some_iff] at h
    obtain ⟨first, hfirst, others, hothers, h⟩ := h
    obtain rfl := Option.some.inj h
    exact hQ.comma level (hQ.writeAt (level + 1) x hfirst)
      (hQ.writeItems level (y :: ys) (by simp) hothers)

/-- What holds of the pieces holds of the members of a mapping. -/
theorem writeMembers (hQ : OfPieces style Q) (level : Nat) (es : List (Value × Value))
    (hne : es ≠ []) {text : List Letter}
    (h : writeMembers? style (level + 1) es = some text) : Q text := by
  match es with
  | [] => exact absurd rfl hne
  | [(key, v)] =>
    simp only [writeMembers?, Option.bind_eq_bind, Option.bind_eq_some_iff] at h
    obtain ⟨name, -, value, hvalue, h⟩ := h
    obtain rfl := Option.some.inj h
    exact hQ.member name (hQ.writeAt (level + 1) v hvalue)
  | (key, v) :: e :: es =>
    simp only [writeMembers?, Option.bind_eq_bind, Option.bind_eq_some_iff] at h
    obtain ⟨name, -, value, hvalue, others, hothers, h⟩ := h
    obtain rfl := Option.some.inj h
    exact hQ.comma level (hQ.member name (hQ.writeAt (level + 1) v hvalue))
      (hQ.writeMembers level (e :: es) (by simp) hothers)

end

end OfPieces

end PagePlan.Json
