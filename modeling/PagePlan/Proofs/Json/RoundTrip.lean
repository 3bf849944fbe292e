/-
# Written values read back

The writer puts a value on several lines and the reader skips the blanks between its parts, so that
a value that JSON text can hold is read back from its text, inside any text that goes on with
something other than a part of a number.  The reader's fuel is two for each letter of the text,
which is more than one call for each value and one for each item or member.  This holds in every
style in which the texts of the value are legible.

* `exists_legible_readsBack` — a value with legible texts is written so that it is read back.
* `readLetters_write` — what is written is read back.
-/
import PagePlan.Proofs.Json.Data
import PagePlan.Proofs.Json.Literal
import Mathlib.Data.List.TakeWhile

namespace PagePlan.Json

open Text (Letter letters letters_nil letters_cons letters_append length_letters)

/-! ### Blanks between the parts -/

theorem skipBlanks_cons {l : Letter} (h : l.isIn Text.isXmlBlank = false) (s : List Letter) :
    skipBlanks (l :: s) = l :: s := by
  simp [skipBlanks, h]

/-- A line break and an indentation are skipped. -/
theorem skipBlanks_newline (level : Nat) {l : Letter} (h : l.isIn Text.isXmlBlank = false)
    (s : List Letter) : skipBlanks (newline level ++ l :: s) = l :: s := by
  have hindent (n : Nat) :
      skipBlanks (List.replicate n (.char ' ') ++ l :: s) = l :: s := by
    induction n with
    | zero => exact skipBlanks_cons h s
    | succ n ih =>
      rw [List.replicate_succ, List.cons_append]
      exact ih
  rw [newline, List.cons_append]
  exact hindent (2 * level)

theorem endsNumber_cons {c : Char}
    (h : c.isDigit = false ∧ c ≠ '.' ∧ c ≠ 'e' ∧ c ≠ 'E') (s : List Letter) :
    EndsNumber (.char c :: s) := by
  rintro _ _ ⟨⟩
  exact h

theorem endsNumber_newline (level : Nat) (s : List Letter) : EndsNumber (newline level ++ s) :=
  endsNumber_cons (by decide) _

/-! ### Texts that read back -/

/-- A text that begins like a value: with no blank and no closing bracket. -/
def Opens (text : List Letter) : Prop :=
  ∃ l tail, text = l :: tail ∧ l.isIn Text.isXmlBlank = false ∧ l ≠ .char ']' ∧
    l ≠ .char '\x7d' ∧ l ≠ .char '\ufeff'

/-- A value is read back from its text, with enough fuel, where the text around goes on with
something other than a part of a number. -/
structure ReadsBack (v : Value) (text : List Letter) : Prop where
  opens : Opens text
  reads : ∀ {fuel : Nat} {rest : List Letter}, 2 * text.length ≤ fuel + 1 → EndsNumber rest →
    readValue fuel (text ++ rest) = .ok (v, rest)

theorem Opens.length_pos {text : List Letter} (h : Opens text) : 0 < text.length := by
  obtain ⟨l, tail, rfl, -⟩ := h
  simp

theorem Opens.append {text : List Letter} (h : Opens text) (s : List Letter) :
    Opens (text ++ s) := by
  obtain ⟨l, tail, rfl, hl⟩ := h
  exact ⟨l, tail ++ s, rfl, hl⟩

theorem Opens.skipBlanks {text : List Letter} (h : Opens text) : skipBlanks text = text := by
  obtain ⟨l, tail, rfl, hl, -⟩ := h
  exact skipBlanks_cons hl tail

theorem Opens.skipBlanks_space {text : List Letter} (h : Opens text) :
    Json.skipBlanks (.char ' ' :: text) = text := by
  obtain ⟨l, tail, rfl, hl, -⟩ := h
  exact skipBlanks_cons hl tail

theorem Opens.skipBlanks_newline {text : List Letter} (h : Opens text) (level : Nat) :
    Json.skipBlanks (newline level ++ text) = text := by
  obtain ⟨l, tail, rfl, hl, -⟩ := h
  exact Json.skipBlanks_newline level hl tail

/-! ### Names and numbers -/

theorem exists_front_of_readNumber {s : List Letter} {found : Value × List Letter}
    (h : readNumber s = .ok found) :
    ∃ c rest, s = .char c :: rest ∧ (c = '-' ∨ c.isDigit = true) := by
  match s with
  | [] => simp [readNumber, Text.afterFront?, readUnsigned, wholeDigits, spanDigits] at h
  | .half n :: rest =>
    simp [readNumber, Text.afterFront?, readUnsigned, wholeDigits, spanDigits] at h
  | .char c :: rest =>
    refine ⟨c, rest, rfl, ?_⟩
    by_cases hminus : c = '-'
    · exact Or.inl hminus
    · right
      have hread : readUnsigned (rest.length + 1) false (.char c :: rest) = .ok found := by
        simpa [readNumber, Text.afterFront?, Ne.symm hminus, hminus] using h
      obtain ⟨d, tail, heq, hd⟩ := exists_digit_of_readUnsigned hread
      cases heq
      exact hd

theorem front_ne {c : Char} (hc : c = '-' ∨ c.isDigit = true) {d : Char}
    (hd : d.isDigit = false) (hminus : d ≠ '-') : c ≠ d := by
  rintro rfl
  rcases hc with rfl | hc
  · exact hminus rfl
  · simp [hd] at hc

/-- What can be read as a number is read so. -/
theorem readValue_of_readNumber (fuel : Nat) {s : List Letter} {found : Value × List Letter}
    (h : readNumber s = .ok found) : readValue (fuel + 1) s = .ok found := by
  obtain ⟨c, rest, rfl, hc⟩ := exists_front_of_readNumber h
  have hliteral : literal? (.char c :: rest) = none := by
    have hn := (front_ne hc (d := 'n') (by decide) (by decide)).symm
    have ht := (front_ne hc (d := 't') (by decide) (by decide)).symm
    have hf := (front_ne hc (d := 'f') (by decide) (by decide)).symm
    have hN := (front_ne hc (d := 'N') (by decide) (by decide)).symm
    have hI := (front_ne hc (d := 'I') (by decide) (by decide)).symm
    simp [literal?, Text.afterFront?, hn, ht, hf, hN, hI]
  have hquote := front_ne hc (d := '\x22') (by decide) (by decide)
  have hbrace := front_ne hc (d := '\x7b') (by decide) (by decide)
  have hbracket := front_ne hc (d := '[') (by decide) (by decide)
  simp [readValue, hquote, hbrace, hbracket, hliteral, h]

theorem readsBack_of_readNumber {v : Value} {text : List Letter}
    (h : ∀ rest, EndsNumber rest → readNumber (text ++ rest) = .ok (v, rest)) :
    ReadsBack v text := by
  obtain ⟨c, tail, htext, hc⟩ := exists_front_of_readNumber (h [] endsNumber_nil)
  rw [List.append_nil] at htext
  have hopens : Opens text := by
    have hne {d : Char} (hd : d.isDigit = false) (hminus : d ≠ '-') : c ≠ d := front_ne hc hd hminus
    refine ⟨.char c, tail, htext, ?_, ?_, ?_, ?_⟩
    · simp [Letter.isIn, Text.isXmlBlank, hne]
    · simpa using hne (d := ']') (by decide) (by decide)
    · simpa using hne (d := '\x7d') (by decide) (by decide)
    · simpa using hne (d := '\ufeff') (by decide) (by decide)
  refine ⟨hopens, ?_⟩
  intro fuel rest hfuel hrest
  have hpos := hopens.length_pos
  obtain ⟨fuel, rfl⟩ : ∃ k, fuel = k + 1 := ⟨fuel - 1, by omega⟩
  exact readValue_of_readNumber fuel (h rest hrest)

theorem readsBack_of_literal {v : Value} {l : Letter} {tail : List Letter}
    (hfront : l.isIn Char.isAlpha = true)
    (h : ∀ rest, literal? (l :: (tail ++ rest)) = some (v, rest)) : ReadsBack v (l :: tail) := by
  have hne {c : Char} (hc : c.isAlpha = false) : l ≠ .char c := by
    rintro rfl
    simp [Letter.isIn, hc] at hfront
  refine ⟨⟨l, tail, rfl, ?_, ?_, ?_, ?_⟩, ?_⟩
  · cases l with
    | half n => rfl
    | char c =>
      have hblank {d : Char} (hd : d.isAlpha = false) : c ≠ d := fun e => hne hd (e ▸ rfl)
      simp [Letter.isIn, Text.isXmlBlank, hblank]
  · exact hne (by decide)
  · exact hne (by decide)
  · exact hne (by decide)
  · intro fuel rest hfuel hrest
    obtain ⟨fuel, rfl⟩ : ∃ k, fuel = k + 1 := ⟨fuel - 1, by simp at hfuel; omega⟩
    simp only [List.cons_append, readValue, if_neg (hne (c := '\x22') (by decide)),
      if_neg (hne (c := '\x7b') (by decide)), if_neg (hne (c := '[') (by decide)), h]

theorem readsBack_null : ReadsBack .null (letters "null".toList) := by
  have htext : letters "null".toList = .char 'n' :: letters "ull".toList := by simp
  rw [htext]
  exact readsBack_of_literal rfl fun rest => by simp [literal?, Text.afterFront?]

theorem readsBack_bool (b : Bool) :
    ReadsBack (.bool b) (letters (if b then "true" else "false").toList) := by
  cases b with
  | false =>
    have htext : letters "false".toList = .char 'f' :: letters "alse".toList := by simp
    rw [if_neg (by simp), htext]
    exact readsBack_of_literal rfl fun rest => by simp [literal?, Text.afterFront?]
  | true =>
    have htext : letters "true".toList = .char 't' :: letters "rue".toList := by simp
    rw [if_pos rfl, htext]
    exact readsBack_of_literal rfl fun rest => by simp [literal?, Text.afterFront?]

theorem readsBack_int {n : Int} (h : (Decimal.ofNat n.natAbs).length ≤ digitLimit) :
    ReadsBack (.int n) (letters (Decimal.ofInt n)) :=
  readsBack_of_readNumber fun _ hrest => readNumber_ofInt h hrest

theorem readsBack_nan : ReadsBack (.float .nan) (letters (writeFloat .nan)) := by
  have htext : letters (writeFloat .nan) = .char 'N' :: letters "aN".toList := by
    have hnan : Binary64.nan.isNaN = true := by decide
    simp [writeFloat, Decimal.Layout.write, hnan, Decimal.jsonLayout]
  rw [htext]
  exact readsBack_of_literal rfl fun rest => by simp [literal?, Text.afterFront?]

theorem readsBack_infinity {x : Binary64} (h : x.isInfinite = true) :
    ReadsBack (.float x) (letters (writeFloat x)) := by
  have hmagnitude : x.magnitude = Binary64.infiniteMagnitude := by
    simpa [Binary64.isInfinite] using h
  have hnan : x.isNaN = false := by simp [Binary64.isNaN, hmagnitude]
  have hvalue : x = .infinity x.negative := by
    rw [Binary64.infinity, ← hmagnitude, Binary64.ofMagnitude_magnitude]
  cases hsign : x.negative with
  | false =>
    have htext : letters (writeFloat x) = .char 'I' :: letters "nfinity".toList := by
      simp [writeFloat, Decimal.Layout.write, hnan, h, hsign, Decimal.jsonLayout]
    rw [htext, hvalue, hsign]
    exact readsBack_of_literal rfl fun rest => by simp [literal?, Text.afterFront?]
  | true =>
    have htext : letters (writeFloat x) = letters "-Infinity".toList := by
      simp [writeFloat, Decimal.Layout.write, hnan, h, hsign, Decimal.jsonLayout]
    rw [htext, hvalue, hsign]
    exact readsBack_of_readNumber fun rest _ => by simp [readNumber, Text.afterFront?]

/-- A number reads back, the ones outside JSON from the names that they have there. -/
theorem readsBack_float {x : Binary64} (h : x.isNaN = true → x = .nan) :
    ReadsBack (.float x) (letters (writeFloat x)) := by
  by_cases hnan : x.isNaN = true
  · rw [h hnan]
    exact readsBack_nan
  · by_cases hinf : x.isInfinite = true
    · exact readsBack_infinity hinf
    · have hfin : x.isFinite = true := by
        rw [Binary64.isFinite_iff]
        simp only [Binary64.isNaN, decide_eq_true_eq, not_lt] at hnan
        exact lt_of_le_of_ne hnan (by simpa [Binary64.isInfinite] using hinf)
      exact readsBack_of_readNumber fun _ hrest => readNumber_writeFloat hfin hrest

/-! ### Texts -/

variable {style : Style}

theorem readsBack_text {s : List Letter} (hs : Legible style s) :
    ReadsBack (.ofLetters s) (writeString style s) := by
  refine ⟨⟨_, _, rfl, by decide, by decide, by decide, by decide⟩, ?_⟩
  intro fuel rest hfuel hrest
  obtain ⟨fuel, rfl⟩ : ∃ k, fuel = k + 1 := by
    refine ⟨fuel - 1, ?_⟩
    simp only [writeString, List.length_append, List.length_cons] at hfuel
    omega
  have hlength := length_le_writeLetters style s
  -- the reader takes its fuel from the length of the text, which is that of the letters at least
  have hread (start : Nat) := readString_writeLetters start hs rest
    (show s.length < (s.flatMap (writeLetter style) ++ .char '\x22' :: rest).length.succ by
      rw [List.length_append]; omega)
  simp only [writeString, List.cons_append, List.append_assoc, List.nil_append, readValue, if_true]
  rw [hread]
  rfl

/-! ### Sequences -/

section Steps

variable {fuel : Nat} {s inside after rest : List Letter} {v : Value} {vs : List Value}
  {es es' : Entries} {name : List Letter}

theorem readItems_last (hv : readValue fuel s = .ok (v, after))
    (hafter : skipBlanks after = .char ']' :: rest) :
    readItems (fuel + 1) s = .ok ([v], rest) := by
  simp [readItems, hv, hafter, bind, Except.bind, pure, Except.pure]

theorem readItems_more (hv : readValue fuel s = .ok (v, after))
    (hafter : skipBlanks after = .char ',' :: inside)
    (hvs : readItems fuel (skipBlanks inside) = .ok (vs, rest)) :
    readItems (fuel + 1) s = .ok (v :: vs, rest) := by
  simp [readItems, hv, hafter, hvs, bind, Except.bind, pure, Except.pure]

theorem readValue_array (hinside : skipBlanks s = inside)
    (hne : ∀ rest, inside ≠ .char ']' :: rest) (hvs : readItems fuel inside = .ok (vs, rest)) :
    readValue (fuel + 1) (.char '[' :: s) = .ok (.list vs, rest) := by
  have hquote : Letter.char '[' ≠ .char '\x22' := by decide
  have hbrace : Letter.char '[' ≠ .char '\x7b' := by decide
  simp only [readValue, if_neg hquote, if_neg hbrace, if_true, hinside]
  simp [hvs, bind, Except.bind, pure, Except.pure]

theorem readMembers_last
    (hname : readString (s.length + 1) (s.length + 1) s = .ok (name, after))
    (hafter : skipBlanks after = .char ':' :: inside) {after' : List Letter}
    (hv : readValue fuel (skipBlanks inside) = .ok (v, after'))
    (hafter' : skipBlanks after' = .char '\x7d' :: rest) :
    readMembers (fuel + 1) es (.char '\x22' :: s) = .ok (es.set (.ofLetters name) v, rest) := by
  simp [readMembers, hname, hafter, hv, hafter', bind, Except.bind, pure, Except.pure]

theorem readMembers_more
    (hname : readString (s.length + 1) (s.length + 1) s = .ok (name, after))
    (hafter : skipBlanks after = .char ':' :: inside) {after' inside' : List Letter}
    (hv : readValue fuel (skipBlanks inside) = .ok (v, after'))
    (hafter' : skipBlanks after' = .char ',' :: inside')
    (hes : readMembers fuel (es.set (.ofLetters name) v) (skipBlanks inside') = .ok (es', rest)) :
    readMembers (fuel + 1) es (.char '\x22' :: s) = .ok (es', rest) := by
  simp [readMembers, hname, hafter, hv, hafter', hes, bind, Except.bind]

theorem readValue_object (hinside : skipBlanks s = inside)
    (hne : ∀ rest, inside ≠ .char '\x7d' :: rest)
    (hes : readMembers fuel [] inside = .ok (es, rest)) :
    readValue (fuel + 1) (.char '\x7b' :: s) = .ok (.dict es, rest) := by
  have hquote : Letter.char '\x7b' ≠ .char '\x22' := by decide
  simp only [readValue, if_neg hquote, if_true, hinside]
  simp [hes, bind, Except.bind, pure, Except.pure]

end Steps

/-- Items are read back up to the closing bracket. -/
structure ItemsReadBack (xs : List Value) (text : List Letter) : Prop where
  opens : Opens text
  reads : ∀ {fuel level : Nat} {rest : List Letter}, 2 * text.length ≤ fuel →
    readItems fuel (text ++ (newline level ++ .char ']' :: rest)) = .ok (xs, rest)

theorem itemsReadBack_singleton {x : Value} {text : List Letter} (h : ReadsBack x text) :
    ItemsReadBack [x] text := by
  refine ⟨h.opens, ?_⟩
  intro fuel level rest hfuel
  have hpos := h.opens.length_pos
  obtain ⟨fuel, rfl⟩ : ∃ k, fuel = k + 1 := ⟨fuel - 1, by omega⟩
  exact readItems_last (h.reads (by omega) (endsNumber_newline level _))
    (skipBlanks_newline level (by decide) rest)

theorem itemsReadBack_cons {x : Value} {xs : List Value} {first others : List Letter} (level : Nat)
    (hx : ReadsBack x first) (hxs : ItemsReadBack xs others) :
    ItemsReadBack (x :: xs) (first ++ .char ',' :: newline level ++ others) := by
  refine ⟨(hx.opens.append _).append _, ?_⟩
  intro fuel level' rest hfuel
  have hpos := hx.opens.length_pos
  simp only [List.length_append, List.length_cons] at hfuel
  obtain ⟨fuel, rfl⟩ : ∃ k, fuel = k + 1 := ⟨fuel - 1, by omega⟩
  rw [List.append_assoc, List.append_assoc, List.cons_append]
  refine readItems_more (hx.reads (by omega) (endsNumber_cons (by decide) _))
    (skipBlanks_cons (by decide) _) ?_
  rw [(hxs.opens.append _).skipBlanks_newline]
  exact hxs.reads (by omega)

/-- The items of a sequence are written so that they are read back, if each of them is. -/
theorem exists_itemsReadBack (level : Nat) {xs : List Value} (hne : xs ≠ [])
    (h : ∀ x ∈ xs, ∃ text, writeAt? style level x = some text ∧ ReadsBack x text) :
    ∃ text, writeItems? style level xs = some text ∧ ItemsReadBack xs text := by
  induction xs with
  | nil => exact absurd rfl hne
  | cons x xs ih =>
    obtain ⟨first, hwrite, hfirst⟩ := h x List.mem_cons_self
    rcases xs with - | ⟨y, ys⟩
    · exact ⟨first, by simp [writeItems?, hwrite], itemsReadBack_singleton hfirst⟩
    · obtain ⟨others, hwriteOthers, hothers⟩ :=
        ih (by simp) fun z hz => h z (List.mem_cons_of_mem x hz)
      exact ⟨first ++ .char ',' :: newline level ++ others,
        by simp [writeItems?, hwrite, hwriteOthers], itemsReadBack_cons level hfirst hothers⟩

theorem readsBack_list {xs : List Value} (level : Nat)
    (h : ∀ x ∈ xs, ∃ text, writeAt? style (level + 1) x = some text ∧ ReadsBack x text) :
    ∃ text, writeAt? style level (.list xs) = some text ∧ ReadsBack (.list xs) text := by
  rcases xs with - | ⟨x, xs⟩
  · refine ⟨_, by rw [writeAt?], ⟨_, _, rfl, by decide, by decide, by decide, by decide⟩, ?_⟩
    intro fuel rest hfuel hrest
    obtain ⟨fuel, rfl⟩ : ∃ k, fuel = k + 1 := ⟨fuel - 1, by simp at hfuel; omega⟩
    simp [readValue, skipBlanks, Letter.isIn, Text.isXmlBlank]
  · obtain ⟨text, hwrite, htext⟩ := exists_itemsReadBack (level + 1) (by simp) h
    refine ⟨.char '[' :: newline (level + 1) ++ text ++ newline level ++ [.char ']'],
      by rw [writeAt?, hwrite]; rfl, ⟨_, _, rfl, by decide, by decide, by decide, by decide⟩, ?_⟩
    intro fuel rest hfuel hrest
    simp only [List.length_append, List.length_cons] at hfuel
    obtain ⟨fuel, rfl⟩ : ∃ k, fuel = k + 1 := ⟨fuel - 1, by omega⟩
    have hopens := htext.opens.append (newline level ++ .char ']' :: rest)
    simp only [List.cons_append, List.append_assoc, List.nil_append]
    refine readValue_array (hopens.skipBlanks_newline (level + 1)) ?_ (htext.reads (by omega))
    -- the items open like a value, so that the array does not close at once
    obtain ⟨l, tail, hl, -, hbracket, -⟩ := hopens
    rw [hl]
    rintro _ ⟨⟩
    exact hbracket rfl

/-! ### Mappings -/

/-- Members are read back up to the closing brace, behind those that were read before. -/
structure MembersReadBack (es : Entries) (text : List Letter) : Prop where
  opens : Opens text
  reads : ∀ {fuel level : Nat} {before : Entries} {rest : List Letter}, 2 * text.length ≤ fuel →
    (before ++ es : Entries).Distinct →
    readMembers fuel before (text ++ (newline level ++ .char '\x7d' :: rest)) =
      .ok (before ++ es, rest)

/-- The text of a member. -/
def memberText (style : Style) (name value : List Letter) : List Letter :=
  writeString style name ++ .char ':' :: .char ' ' :: value

section Member

variable {key v : Value} {name value more rest : List Letter} {fuel : Nat} {es : Entries}

/-- The name of a member is read back from its text. -/
theorem readString_memberText (hname : Legible style name) (value more : List Letter) :
    ∃ s, memberText style name value ++ more = .char '\x22' :: s ∧
      readString (s.length + 1) (s.length + 1) s =
        .ok (name, .char ':' :: .char ' ' :: (value ++ more)) := by
  have hlength := length_le_writeLetters style name
  refine ⟨name.flatMap (writeLetter style) ++
    .char '\x22' :: .char ':' :: .char ' ' :: (value ++ more), ?_, ?_⟩
  · simp [memberText, writeString]
  · apply readString_writeLetters _ hname
    rw [List.length_append]
    omega

theorem readValue_memberText (hv : ReadsBack v value) (hfuel : 2 * value.length ≤ fuel + 1)
    (hmore : EndsNumber more) :
    readValue fuel (skipBlanks (.char ' ' :: (value ++ more))) = .ok (v, more) := by
  rw [(hv.opens.append more).skipBlanks_space]
  exact hv.reads hfuel hmore

theorem readMembers_memberText_last (hkey : key.letters? = some name)
    (hname : Legible style name) (hv : ReadsBack v value)
    (hfuel : 2 * value.length ≤ fuel + 1) (hmore : EndsNumber more)
    (hafter : skipBlanks more = .char '\x7d' :: rest) :
    readMembers (fuel + 1) es (memberText style name value ++ more) = .ok (es.set key v, rest) := by
  obtain ⟨s, hs, hread⟩ := readString_memberText hname value more
  rw [hs, ← Value.ofLetters_of_letters? hkey]
  exact readMembers_last hread (skipBlanks_cons (by decide) _)
    (readValue_memberText hv hfuel hmore) hafter

theorem readMembers_memberText_more (hkey : key.letters? = some name)
    (hname : Legible style name) (hv : ReadsBack v value)
    (hfuel : 2 * value.length ≤ fuel + 1) (hmore : EndsNumber more) {inside : List Letter}
    (hafter : skipBlanks more = .char ',' :: inside) {es' : Entries}
    (hes : readMembers fuel (es.set key v) (skipBlanks inside) = .ok (es', rest)) :
    readMembers (fuel + 1) es (memberText style name value ++ more) = .ok (es', rest) := by
  obtain ⟨s, hs, hread⟩ := readString_memberText hname value more
  rw [← Value.ofLetters_of_letters? hkey] at hes
  rw [hs]
  exact readMembers_more hread (skipBlanks_cons (by decide) _)
    (readValue_memberText hv hfuel hmore) hafter hes

end Member

theorem opens_memberText (style : Style) (name value : List Letter) :
    Opens (memberText style name value) :=
  ⟨_, _, rfl, by decide, by decide, by decide, by decide⟩

theorem membersReadBack_singleton {key v : Value} {name value : List Letter}
    (hkey : key.letters? = some name) (hname : Legible style name) (hv : ReadsBack v value) :
    MembersReadBack [(key, v)] (memberText style name value) := by
  refine ⟨opens_memberText style name value, ?_⟩
  intro fuel level before rest hfuel hdistinct
  simp only [memberText, writeString, List.length_append, List.length_cons] at hfuel
  obtain ⟨fuel, rfl⟩ : ∃ k, fuel = k + 1 := ⟨fuel - 1, by omega⟩
  rw [← Entries.set_of_distinct hdistinct]
  exact readMembers_memberText_last hkey hname hv (by omega) (endsNumber_newline level _)
    (skipBlanks_newline level (by decide) rest)

theorem membersReadBack_cons {key v : Value} {es : Entries} {name value others : List Letter}
    (level : Nat) (hkey : key.letters? = some name) (hname : Legible style name)
    (hv : ReadsBack v value) (hes : MembersReadBack es others) :
    MembersReadBack ((key, v) :: es)
      (memberText style name value ++ .char ',' :: newline level ++ others) := by
  refine ⟨((opens_memberText style name value).append _).append _, ?_⟩
  intro fuel level' before rest hfuel hdistinct
  simp only [memberText, writeString, List.length_append, List.length_cons] at hfuel
  obtain ⟨fuel, rfl⟩ : ∃ k, fuel = k + 1 := ⟨fuel - 1, by omega⟩
  -- setting the first key puts it behind the members before, as it is none of theirs
  have hset := Entries.set_of_distinct hdistinct
  have hsplit : before ++ (key, v) :: es = before.set key v ++ es := by
    rw [hset, List.append_assoc, List.singleton_append]
  rw [hsplit] at hdistinct
  rw [hsplit, List.append_assoc, List.append_assoc, List.cons_append]
  refine readMembers_memberText_more hkey hname hv (by omega) (endsNumber_cons (by decide) _)
    (skipBlanks_cons (by decide) _) ?_
  rw [(hes.opens.append _).skipBlanks_newline]
  exact hes.reads (by omega) hdistinct

/-- A text key is written as its letters. -/
theorem keyText?_of_letters? {key : Value} {name : List Letter} (h : key.letters? = some name) :
    keyText? key = some name := by
  cases key with
  | str s => exact h
  | unpaired t => exact h
  | _ => cases h

/-- The members of a mapping are written so that they are read back, if their values are. -/
theorem exists_membersReadBack (level : Nat) {es : Entries} (hne : es ≠ [])
    (hkeys : ∀ e ∈ es, ∃ name, e.1.letters? = some name ∧ Legible style name)
    (h : ∀ e ∈ es, ∃ text, writeAt? style level e.2 = some text ∧ ReadsBack e.2 text) :
    ∃ text, writeMembers? style level es = some text ∧ MembersReadBack es text := by
  induction es with
  | nil => exact absurd rfl hne
  | cons e es ih =>
    obtain ⟨key, v⟩ := e
    obtain ⟨value, hwrite, hvalue⟩ := h (key, v) List.mem_cons_self
    obtain ⟨name, hkey, hlegible⟩ := hkeys (key, v) List.mem_cons_self
    have hname : keyText? key = some name := keyText?_of_letters? hkey
    rcases es with - | ⟨e, es⟩
    · exact ⟨memberText style name value, by simp [writeMembers?, hwrite, hname, memberText],
        membersReadBack_singleton hkey hlegible hvalue⟩
    · obtain ⟨others, hwriteOthers, hothers⟩ := ih (by simp)
        (fun e he => hkeys e (List.mem_cons_of_mem _ he))
        fun e he => h e (List.mem_cons_of_mem _ he)
      exact ⟨memberText style name value ++ .char ',' :: newline level ++ others,
        by simp [writeMembers?, hwrite, hname, hwriteOthers, memberText],
        membersReadBack_cons level hkey hlegible hvalue hothers⟩

theorem readsBack_dict {es : Entries} (level : Nat)
    (hkeys : ∀ e ∈ es, ∃ name, e.1.letters? = some name ∧ Legible style name)
    (hdistinct : es.Distinct)
    (h : ∀ e ∈ es, ∃ text, writeAt? style (level + 1) e.2 = some text ∧ ReadsBack e.2 text) :
    ∃ text, writeAt? style level (.dict es) = some text ∧ ReadsBack (.dict es) text := by
  rcases es with - | ⟨e, es⟩
  · refine ⟨_, by rw [writeAt?], ⟨_, _, rfl, by decide, by decide, by decide, by decide⟩, ?_⟩
    intro fuel rest hfuel hrest
    obtain ⟨fuel, rfl⟩ : ∃ k, fuel = k + 1 := ⟨fuel - 1, by simp at hfuel; omega⟩
    simp [readValue, skipBlanks, Letter.isIn, Text.isXmlBlank]
  · obtain ⟨text, hwrite, htext⟩ := exists_membersReadBack (level + 1) (by simp) hkeys h
    refine ⟨.char '\x7b' :: newline (level + 1) ++ text ++ newline level ++ [.char '\x7d'],
      by rw [writeAt?, hwrite]; rfl, ⟨_, _, rfl, by decide, by decide, by decide, by decide⟩, ?_⟩
    intro fuel rest hfuel hrest
    simp only [List.length_append, List.length_cons] at hfuel
    obtain ⟨fuel, rfl⟩ : ∃ k, fuel = k + 1 := ⟨fuel - 1, by omega⟩
    have hopens := htext.opens.append (newline level ++ .char '\x7d' :: rest)
    simp only [List.cons_append, List.append_assoc, List.nil_append]
    refine readValue_object (hopens.skipBlanks_newline (level + 1)) ?_
      (htext.reads (by omega) hdistinct)
    -- the members open like a value, so that the object does not close at once
    obtain ⟨l, tail, hl, -, -, hbrace, -⟩ := hopens
    rw [hl]
    rintro _ ⟨⟩
    exact hbrace rfl

/-! ### Values -/

/-- What holds of the letters of every text in a value, its names included. -/
inductive AllTexts (P : List Letter → Prop) : Value → Prop where
  | null : AllTexts P .null
  | bool (b : Bool) : AllTexts P (.bool b)
  | int (n : Int) : AllTexts P (.int n)
  | float (x : Binary64) : AllTexts P (.float x)
  | text {v : Value} {s : List Letter} (hv : v.letters? = some s) (hs : P s) : AllTexts P v
  | list {xs : List Value} (h : ∀ x ∈ xs, AllTexts P x) : AllTexts P (.list xs)
  | dict {es : Entries} (hkeys : ∀ e ∈ es, ∃ s, e.1.letters? = some s ∧ P s)
      (h : ∀ e ∈ es, AllTexts P e.2) : AllTexts P (.dict es)

theorem exists_letters?_of_isText {v : Value} (h : v.isText = true) : ∃ s, v.letters? = some s := by
  cases v with
  | str s => exact ⟨_, rfl⟩
  | unpaired t => exact ⟨_, rfl⟩
  | _ => cases h

/-- What holds of every text holds of those in a value. -/
theorem IsJson.allTexts {P : List Letter → Prop} (hP : ∀ s, P s) {v : Value} (h : IsJson v) :
    AllTexts P v := by
  induction h with
  | null => exact .null
  | bool b => exact .bool b
  | int _ => exact .int _
  | float _ => exact .float _
  | str s => exact .text rfl (hP _)
  | unpaired t => exact .text rfl (hP _)
  | list _ ih => exact .list ih
  | dict hkeys _ _ ih =>
    refine .dict (fun e he => ?_) ih
    obtain ⟨s, hs⟩ := exists_letters?_of_isText (hkeys e he)
    exact ⟨s, hs, hP s⟩

/-- A value that JSON text can hold is written at every level so that it is read back, in a style in
which its texts are legible. -/
theorem exists_legible_readsBack {v : Value} (h : IsJson v) (htexts : AllTexts (Legible style) v)
    (level : Nat) : ∃ text, writeAt? style level v = some text ∧ ReadsBack v text := by
  have hstring {w : Value} {s : List Letter} (hw : w.letters? = some s) (hs : Legible style s) :
      ReadsBack w (writeString style s) := Value.ofLetters_of_letters? hw ▸ readsBack_text hs
  induction h generalizing level with
  | null => exact ⟨_, by rw [writeAt?], readsBack_null⟩
  | bool b => exact ⟨_, by rw [writeAt?], readsBack_bool b⟩
  | int h => exact ⟨_, by rw [writeAt?], readsBack_int h⟩
  | float h => exact ⟨_, by rw [writeAt?], readsBack_float h⟩
  | str s =>
    cases htexts with
    | text hv hs =>
      cases hv
      exact ⟨_, by rw [writeAt?], hstring rfl hs⟩
  | unpaired t =>
    cases htexts with
    | text hv hs =>
      cases hv
      exact ⟨_, by rw [writeAt?], hstring rfl hs⟩
  | list _ ih =>
    cases htexts with
    | text hv _ => cases hv
    | list hxs => exact readsBack_list level fun x hx => ih x hx (hxs x hx) (level + 1)
  | dict _ hdistinct _ ih =>
    cases htexts with
    | text hv _ => cases hv
    | dict hkeys hes =>
      exact readsBack_dict level hkeys hdistinct fun e he => ih e he (hes e he) (level + 1)

/-- Where only what JSON requires is escaped, every text is legible. -/
theorem exists_readsBack {v : Value} (h : IsJson v) (level : Nat) :
    ∃ text, writeAt? .unicode level v = some text ∧ ReadsBack v text :=
  exists_legible_readsBack h (h.allTexts fun _ hstyle => absurd hstyle (by decide)) level

/-- Blanks do not go on with a number. -/
theorem endsNumber_of_blanks {s : List Letter}
    (h : ∀ l ∈ s, l.isIn Text.isXmlBlank = true) : EndsNumber s := by
  rintro c rest rfl
  have hc : Text.isXmlBlank c = true := h _ List.mem_cons_self
  simp only [Text.isXmlBlank, Bool.or_eq_true, beq_iff_eq] at hc
  rcases hc with ((rfl | rfl) | rfl) | rfl <;> decide

/-- A whole text may have blanks at its end. -/
theorem ReadsBack.readLetters_append {v : Value} {text after : List Letter} (h : ReadsBack v text)
    (hafter : ∀ l ∈ after, l.isIn Text.isXmlBlank = true) :
    readLetters (text ++ after) = .ok v := by
  have hread := h.reads (show 2 * text.length ≤ 2 * (text ++ after).length + 2 + 1 by
    rw [List.length_append]
    omega) (endsNumber_of_blanks hafter)
  have hend : skipBlanks after = [] := List.dropWhile_eq_nil_iff.2 hafter
  have hopens := h.opens.append after
  have hblanks := hopens.skipBlanks
  obtain ⟨l, tail, heq, -, -, -, hmark⟩ := hopens
  rw [heq] at hread hblanks ⊢
  have hwhole : readWhole (l :: tail) = .ok v := by
    unfold readWhole
    split
    · next h => exact absurd (List.cons.inj h).1 hmark
    · rw [hblanks, hread]
      simp only [bind, Except.bind, hend]
      rfl
  rw [readLetters, hwhole]

/-- **What is written is read back.**  Every value that JSON text can hold has a text, and that text
holds the value and nothing else. -/
theorem readLetters_write {v : Value} (h : IsJson v) :
    ∃ text, write? .unicode v = some text ∧ readLetters text = .ok v := by
  obtain ⟨text, hwrite, htext⟩ := exists_readsBack h 0
  refine ⟨text, hwrite, ?_⟩
  have hread := htext.readLetters_append (List.forall_mem_nil _)
  rwa [List.append_nil] at hread

end PagePlan.Json
