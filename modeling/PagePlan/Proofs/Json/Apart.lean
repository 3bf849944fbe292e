/-
# Texts that are read

An escape can spell half of a surrogate pair.  The escape of a first half with that of a second
behind it spells one character, so that in the texts of a value that was read from a text of
characters no first half has a second right behind it.  This is what makes them legible where all
but ASCII is escaped.

* `allTexts_of_read` — the texts of a value that was read from a string.
* `read_writeAscii` — such a value is read back from its text in ASCII.
-/
import PagePlan.Proofs.Json.Ends
import PagePlan.Proofs.Json.LineBreak

namespace PagePlan.Json

open Text (Letter letters Apart)

/-! ### Escapes -/

theorem code_bounds_of_isHigh_ofCode {n : Nat} (h : (Letter.ofCode n).isHigh = true) :
    0xD800 ≤ n ∧ n < 0xDC00 := by
  unfold Letter.ofCode at h
  split at h
  · next hhalf =>
    have hcode := of_decide_eq_true h
    simp only [Letter.code] at hcode
    omega
  · rw [Letter.not_isHigh_char] at h
    cases h

theorem code_bounds_of_isLow_ofCode {n : Nat} (h : (Letter.ofCode n).isLow = true) :
    0xDC00 ≤ n ∧ n < 0xE000 := by
  unfold Letter.ofCode at h
  split at h
  · next hhalf =>
    have hcode := of_decide_eq_true h
    simp only [Letter.code] at hcode
    omega
  · rw [Letter.not_isLow_char] at h
    cases h

/-- The digits of the escape of a second half stand at the front of a text. -/
def SpellsLow (s : List Letter) : Prop :=
  ∃ low rest, fourHex? s = some (low, rest) ∧ 0xDC00 ≤ low ∧ low < 0xE000

theorem length_of_fourHex? {s rest : List Letter} {n : Nat} (h : fourHex? s = some (n, rest)) :
    5 ≤ s.length := by
  unfold fourHex? at h
  split at h
  · simp
  · cases h

/-- An escape is read as a second half only where its digits are those of one, and as a first half
only where the escape of a second does not follow. -/
theorem readUnits_halves {s rest : List Letter} {l : Letter} (h : readUnits s = .ok (l, rest)) :
    (l.isLow = true → SpellsLow s) ∧
      (l.isHigh = true → ∀ more, rest = .char '\\' :: .char 'u' :: more → ¬SpellsLow more) := by
  unfold readUnits at h
  split at h
  · cases h
  · next high after hfour =>
    have hlow : (Letter.ofCode high).isLow = true → SpellsLow s := fun hl =>
      ⟨high, after, hfour, code_bounds_of_isLow_ofCode hl⟩
    split at h
    · next more =>
      split at h
      · next hpair =>
        split at h
        · cases h
        · next low last hfour' =>
          split at h
          · -- two halves make one character
            next hrange =>
            simp only [Bool.and_eq_true, decide_eq_true_eq] at hrange hpair
            simp only [Except.ok.injEq, Prod.mk.injEq] at h
            rw [← h.1]
            constructor
            · intro hl
              have := code_bounds_of_isLow_ofCode hl
              omega
            · intro hl
              have := code_bounds_of_isHigh_ofCode hl
              omega
          · next hrange =>
            simp only [Except.ok.injEq, Prod.mk.injEq] at h
            obtain ⟨rfl, rfl⟩ := h
            refine ⟨hlow, ?_⟩
            rintro _ _ ⟨⟩ ⟨low', last', hfour'', hrange'⟩
            rw [hfour'] at hfour''
            simp only [Option.some.injEq, Prod.mk.injEq] at hfour''
            rw [hfour''.1] at hrange
            exact hrange (by simpa using hrange')
      · next hpair =>
        simp only [Except.ok.injEq, Prod.mk.injEq] at h
        obtain ⟨rfl, rfl⟩ := h
        refine ⟨hlow, ?_⟩
        rintro hl _ ⟨⟩ ⟨low, last, hfour', -⟩
        have hbounds := code_bounds_of_isHigh_ofCode hl
        have hlength := length_of_fourHex? hfour'
        simp only [Bool.and_eq_true, decide_eq_true_eq] at hpair
        exact hpair ⟨hbounds, hlength⟩
    · next hnot =>
      simp only [Except.ok.injEq, Prod.mk.injEq] at h
      obtain ⟨rfl, rfl⟩ := h
      exact ⟨hlow, fun _ more hmore => absurd hmore (hnot more)⟩

/-! ### Text literals -/

/-- No half stands in a text. -/
def NoHalf (s : List Letter) : Prop := s.any Letter.isHalf = false

theorem NoHalf.of_suffix {s t : List Letter} (ht : NoHalf t) (h : s <:+ t) : NoHalf s :=
  List.any_eq_false.2 fun l hl => List.any_eq_false.1 ht l (h.subset hl)

/-- What stands behind a letter, blanks aside. -/
theorem NoHalf.behind {s t : List Letter} {l : Letter} (hs : NoHalf s)
    (h : skipBlanks s = l :: t) : NoHalf t :=
  hs.of_suffix ((List.suffix_cons l t).trans (h ▸ skipBlanks_suffix s))

theorem NoHalf.skipBlanks {s : List Letter} (hs : NoHalf s) : NoHalf (skipBlanks s) :=
  hs.of_suffix (skipBlanks_suffix s)

theorem NoHalf.tail {s : List Letter} {l : Letter} (hs : NoHalf (l :: s)) : NoHalf s :=
  hs.of_suffix (List.suffix_cons l s)

/-- A text literal without a half in it spells no two halves that belong together.  If it begins
with a second half, that is an escape; the induction needs this for what stands before. -/
theorem apart_of_readString {start fuel : Nat} {s ds rest : List Letter}
    (h : readString start fuel s = .ok (ds, rest)) (hs : NoHalf s) :
    Apart ds ∧ ∀ l ∈ ds.head?, l.isLow = true →
      ∃ more, s = .char '\\' :: .char 'u' :: more ∧ SpellsLow more := by
  induction fuel generalizing s ds rest with
  | zero => simp [readString] at h
  | succ fuel ih =>
    cases s with
    | nil => simp [readString] at h
    | cons l s =>
      have htail := hs.tail
      -- a letter that is no half at all may stand before any text
      have hplain {c : Char} {others : List Letter} (hothers : Apart others) :
          Apart (.char c :: others) ∧ ∀ m ∈ (Letter.char c :: others).head?, m.isLow = true →
            ∃ more, l :: s = .char '\\' :: .char 'u' :: more ∧ SpellsLow more := by
        refine ⟨List.isChain_cons.2 ⟨fun m _ hhigh => ?_, hothers⟩, ?_⟩
        · rw [Letter.not_isHigh_char] at hhigh
          cases hhigh
        · rintro _ ⟨⟩ hlow
          rw [Letter.not_isLow_char] at hlow
          cases hlow
      unfold readString at h
      split at h
      · simp only [Except.ok.injEq, Prod.mk.injEq] at h
        rw [← h.1]
        exact ⟨.nil, by simp⟩
      · split at h
        · -- an escape
          next hback =>
          split at h
          · cases h
          · next more =>
            obtain ⟨⟨d, after⟩, hunits, h⟩ := except_bind_eq_ok.1 h
            obtain ⟨⟨others, after'⟩, hothers, h⟩ := except_bind_eq_ok.1 h
            simp only [pure, Except.pure, Except.ok.injEq, Prod.mk.injEq] at h
            rw [← h.1]
            obtain ⟨hapart, hfirst⟩ :=
              ih hothers (htail.tail.of_suffix (suffix_of_readUnits hunits))
            obtain ⟨hlow, hhigh⟩ := readUnits_halves hunits
            refine ⟨List.isChain_cons.2 ⟨fun m hm hd => ?_, hapart⟩, ?_⟩
            · refine Bool.eq_false_iff.2 fun hmlow => ?_
              obtain ⟨more', hafter, hspells⟩ := hfirst m hm hmlow
              exact hhigh hd more' hafter hspells
            · rintro _ ⟨⟩ hd
              exact ⟨more, by rw [hback], hlow hd⟩
          · next e after _ =>
            split at h
            · cases h
            · obtain ⟨⟨others, after'⟩, hothers, h⟩ := except_bind_eq_ok.1 h
              simp only [pure, Except.pure, Except.ok.injEq, Prod.mk.injEq] at h
              rw [← h.1]
              exact hplain (ih hothers htail.tail).1
        · split at h
          · cases h
          · obtain ⟨⟨others, after'⟩, hothers, h⟩ := except_bind_eq_ok.1 h
            simp only [pure, Except.pure, Except.ok.injEq, Prod.mk.injEq] at h
            rw [← h.1]
            cases l with
            | char c => exact hplain (ih hothers htail).1
            | half n => simp [NoHalf, Letter.isHalf] at hs

/-! ### Values -/

variable {P : List Letter → Prop}

theorem allTexts_ofLetters {s : List Letter} (hs : P s) : AllTexts P (.ofLetters s) :=
  .text (Value.letters?_ofLetters s) hs

theorem AllTexts.imp {Q : List Letter → Prop} (hPQ : ∀ s, P s → Q s) {v : Value}
    (h : AllTexts P v) : AllTexts Q v := by
  induction h with
  | null => exact .null
  | bool b => exact .bool b
  | int n => exact .int n
  | float x => exact .float x
  | text hv hs => exact .text hv (hPQ _ hs)
  | list _ ih => exact .list ih
  | dict hkeys _ ih =>
    refine .dict (fun e he => ?_) ih
    obtain ⟨s, hs, hP⟩ := hkeys e he
    exact ⟨s, hs, hPQ s hP⟩

/-- The texts of a mapping in which a text key is set. -/
theorem AllTexts.set {es : Entries} (hes : AllTexts P (.dict es)) {name : List Letter}
    (hname : P name) {v : Value} (hv : AllTexts P v) :
    AllTexts P (.dict (es.set (.ofLetters name) v)) := by
  cases hes with
  | text hdict _ => cases hdict
  | dict hkeys h =>
    have hkeys' : ∀ e ∈ es.set (.ofLetters name) v, ∃ s, e.1.letters? = some s ∧ P s :=
      Entries.forall_key_set (P := fun k => ∃ s, k.letters? = some s ∧ P s) hkeys
        ⟨name, Value.letters?_ofLetters name, hname⟩
    exact .dict hkeys' (Entries.forall_value_set h hv)

theorem allTexts_emptyDict : AllTexts P (.dict []) :=
  .dict (List.forall_mem_nil _) (List.forall_mem_nil _)

theorem IsNumber.allTexts {v : Value} (h : IsNumber v) : AllTexts P v := by
  cases h with
  | int _ => exact .int _
  | float _ => exact .float _

theorem IsNamed.allTexts {name : String} {v : Value} (h : IsNamed name v) : AllTexts P v := by
  cases h with
  | null => exact .null
  | yes => exact .bool true
  | no => exact .bool false
  | nan => exact .float _
  | infinity => exact .float _

/-- From a text without a half, values with texts that are apart are read; none is left. -/
def ReadsApart (s : List Letter) (v : Value) (rest : List Letter) : Prop :=
  NoHalf s → AllTexts Apart v ∧ NoHalf rest

theorem IsMember.apart {s name after : List Letter} {v : Value}
    (h : IsMember ReadsApart s name v after) (hs : NoHalf s) :
    Apart name ∧ AllTexts Apart v ∧ NoHalf after := by
  obtain ⟨hname, hcolon, hvalue⟩ := h
  have hbehind := (hs.tail.of_suffix (took_of_readString hname).suffix).behind hcolon
  exact ⟨(apart_of_readString hname hs.tail).1, hvalue hbehind.skipBlanks⟩

/-- The three readers take a text without a half and give values with texts that are apart. -/
theorem rules_apart : Rules ReadsApart
    (fun s vs rest => NoHalf s → (∀ v ∈ vs, AllTexts Apart v) ∧ NoHalf rest)
    (fun es s es' rest => NoHalf s → AllTexts Apart (.dict es) →
      AllTexts Apart (.dict es') ∧ NoHalf rest) where
  text h hs :=
    ⟨allTexts_ofLetters (apart_of_readString h hs.tail).1,
      hs.tail.of_suffix (took_of_readString h).suffix⟩
  literal h hs := by
    obtain ⟨name, hname, -⟩ := isNamed_of_literal? h
    exact ⟨hname.allTexts, hs.of_suffix (took_of_literal? h).suffix⟩
  number h hs := ⟨(isNumber_of_readNumber h).allTexts, hs.of_suffix (took_of_readNumber h).suffix⟩
  emptyDict h hs := ⟨allTexts_emptyDict, hs.tail.behind h⟩
  dict hes hs := hes hs.tail.skipBlanks allTexts_emptyDict
  emptyList h hs := ⟨.list (List.forall_mem_nil _), hs.tail.behind h⟩
  list hvs hs := (hvs hs.tail.skipBlanks).imp_left .list
  lastItem hv hend hs :=
    have ⟨hfirst, hafter⟩ := hv hs
    ⟨List.forall_mem_singleton.2 hfirst, hafter.behind hend⟩
  item hv hcomma hrest hs :=
    have ⟨hfirst, hafter⟩ := hv hs
    (hrest (hafter.behind hcomma).skipBlanks).imp_left fun hvs =>
      List.forall_mem_cons.2 ⟨hfirst, hvs⟩
  lastMember hmember hend hs hes :=
    have ⟨hname, hv, hafter⟩ := hmember.apart hs
    ⟨hes.set hname hv, hafter.behind hend⟩
  member hmember hcomma hrest hs hes :=
    have ⟨hname, hv, hafter⟩ := hmember.apart hs
    hrest (hafter.behind hcomma).skipBlanks (hes.set hname hv)

/-- In a value that was read from a string, no first half has a second right behind it. -/
theorem allTexts_of_read {source : String} {v : Value} (h : read source = .ok v) :
    AllTexts Apart v := by
  obtain ⟨rest, hread, -⟩ := rules_apart.of_readLetters h
  have hsource : NoHalf (letters source.toList) := Text.any_isHalf_letters _
  exact (hread hsource.skipBlanks).1

/-! ### Read back from ASCII -/

/-- Where all but ASCII is escaped, the text is a string. -/
theorem letters_of_write {v : Value} {text : List Letter} (h : write? .ascii v = some text) :
    letters (text.map Letter.shown) = text := by
  have hpieces : OfPieces .ascii fun s => s.any Letter.isHalf = false := by
    refine ⟨?_, Printed.any_isHalf, ?_, ?_⟩
    · intro s t hs ht
      rw [List.any_append, hs, ht]
      rfl
    · intro level
      simp [newline, Letter.isHalf]
    · intro level c _
      simp [newline, Letter.isHalf]
  have hletters := Text.letters_filterMap_char? (hpieces.writeAt 0 v h)
  have hshown (cs : List Char) : (letters cs).map Letter.shown = cs := by
    simp [letters, Function.comp_def, Letter.shown]
  rw [← hletters, hshown]

/-- **A value that was read from a string is read back from its text in ASCII.** -/
theorem read_writeAscii {source : String} {v : Value} (h : read source = .ok v) :
    ∃ s, writeAscii? v = some s ∧ read s = .ok v := by
  have hlegible : AllTexts (Legible .ascii) v :=
    (allTexts_of_read h).imp fun _ hapart _ => hapart
  obtain ⟨text, hwrite, hreads⟩ := exists_legible_readsBack (isJson_of_readLetters h) hlegible 0
  have hread := hreads.readLetters_append (List.forall_mem_nil _)
  rw [List.append_nil, ← letters_of_write hwrite] at hread
  refine ⟨String.ofList (text.map Letter.shown), by rw [writeAscii?, write?, hwrite]; rfl, ?_⟩
  rw [read, String.toList_ofList]
  exact hread

end PagePlan.Json
