/-
# What is written is standard JSON

The text of a value follows the grammar of JSON, unless a number in it is not finite: such a number
is written by a name that begins with a capital, and no standard text has one there.  The texts in
the value have to be texts of whole characters, since half of a surrogate pair is none.

* `exists_written` — the text of a value is standard just if all numbers in the value are finite.
-/
import PagePlan.Model.Chat
import PagePlan.Proofs.Json.RoundTrip
import PagePlan.Proofs.Json.Standard
import PagePlan.Proofs.Plan.Reading

namespace PagePlan.Json

open Text (Letter letters letters_nil letters_cons letters_append)

namespace Standard

/-! ### Blanks around parts -/

theorem Blanks.append {s t : List Char} (hs : Blanks s) (ht : Blanks t) : Blanks (s ++ t) := by
  intro c hc
  exact (List.mem_append.1 hc).elim (hs c) (ht c)

theorem blanks_nil : Blanks [] := List.forall_mem_nil _

/-- Blanks may stand before any part but a value. -/
theorem Spells.after_blanks {part : Part} {s blanks : List Char} (h : Spells part s)
    (hpart : part ≠ .value) (hblanks : Blanks blanks) : Spells part (blanks ++ s) := by
  induction h with
  | element hbefore hvalue hafter =>
    rw [← List.append_assoc, ← List.append_assoc]
    exact .element (hblanks.append hbefore) hvalue hafter
  | lastItem _ ih => exact .lastItem (ih nofun)
  | moreItems _ hrest ih =>
    rw [← List.append_assoc]
    exact .moreItems (ih nofun) hrest
  | member hbefore hname hafter helement =>
    rw [← List.append_assoc, ← List.append_assoc, ← List.append_assoc]
    exact .member (hblanks.append hbefore) hname hafter helement
  | lastMember _ ih => exact .lastMember (ih nofun)
  | moreMembers _ hrest ih =>
    rw [← List.append_assoc]
    exact .moreMembers (ih nofun) hrest
  | _ => exact absurd rfl hpart

/-- Blanks may stand behind any part but a value. -/
theorem Spells.before_blanks {part : Part} {s blanks : List Char} (h : Spells part s)
    (hpart : part ≠ .value) (hblanks : Blanks blanks) : Spells part (s ++ blanks) := by
  induction h with
  | element hbefore hvalue hafter =>
    rw [List.append_assoc]
    exact .element hbefore hvalue (hafter.append hblanks)
  | lastItem _ ih => exact .lastItem (ih nofun)
  | moreItems hfirst _ _ ih =>
    rw [List.append_assoc, List.cons_append]
    exact .moreItems hfirst (ih nofun)
  | member hbefore hname hafter _ ih =>
    rw [List.append_assoc, List.cons_append]
    exact .member hbefore hname hafter (ih nofun)
  | lastMember _ ih => exact .lastMember (ih nofun)
  | moreMembers hfirst _ _ ih =>
    rw [List.append_assoc, List.cons_append]
    exact .moreMembers hfirst (ih nofun)
  | _ => exact absurd rfl hpart

/-- A value is an element. -/
theorem Spells.toElement {s : List Char} (h : Spells .value s) : Spells .element s := by
  simpa using Spells.element blanks_nil h blanks_nil

/-! ### Numerals -/

theorem whole_of_isWhole {ds : List Char} (h : Decimal.IsWhole ds) : Whole ds := by
  obtain ⟨d, ds, rfl⟩ := List.exists_cons_of_ne_nil h.ne_nil
  by_cases hd : d = '0'
  · rw [h.leading (by rw [hd]; rfl)]
    exact .zero
  · exact .other ⟨h.ne_nil, h.digits⟩ hd

theorem numeral_ofInt (n : Int) : Numeral (Decimal.ofInt n) := by
  have hwhole (k : Nat) := whole_of_isWhole (Decimal.isWhole_ofNat k)
  cases n with
  | ofNat n =>
    have hsign : [] ∈ [[], ['-']] := by simp
    simpa [Decimal.ofInt] using Numeral.parts hsign (hwhole n) .none .none
  | negSucc n =>
    have hsign : ['-'] ∈ [[], ['-']] := by simp
    simpa [Decimal.ofInt] using Numeral.parts hsign (hwhole (n + 1)) .none .none

theorem exponent_exponentText (width : Nat) (e : Int) :
    Exponent ('e' :: Decimal.exponentText width e) := by
  have hdigits : Digits (List.replicate (width - (Decimal.ofNat e.natAbs).length) '0' ++
      Decimal.ofNat e.natAbs) := by
    refine ⟨List.append_ne_nil_of_right_ne_nil _ (Decimal.ofNat_ne_nil _), fun c hc => ?_⟩
    exact (List.mem_append.1 hc).elim Decimal.isDigit_of_mem_replicate_zero
      Decimal.isDigit_of_mem_ofNat
  have hsign : [if e < 0 then '-' else '+'] ∈ [[], ['-'], ['+']] := by split <;> simp
  have he : 'e' ∈ ['e', 'E'] := by simp
  simpa [Decimal.exponentText] using Exponent.some he hsign hdigits

/-- Digits that do not begin with a zero are laid out as a numeral. -/
theorem numeral_place {sign ds : List Char} (hsign : sign ∈ [[], ['-']]) (hds : Digits ds)
    (hhead : ds.head? ≠ some '0') (point : Int) :
    Numeral (sign ++ Decimal.jsonLayout.place ds point) := by
  by_cases hpositional : Decimal.jsonLayout.lowest < point ∧ point ≤ Decimal.jsonLayout.limit
  · obtain ⟨whole, places, hsplits⟩ :=
      Decimal.Layout.place_positional hds.2 hds.1 hhead rfl hpositional.1 hpositional.2
    have hplaces : Digits places := ⟨hsplits.ne_nil, hsplits.isDigit⟩
    rw [hsplits.text_eq]
    simpa using Numeral.parts hsign (whole_of_isWhole hsplits.isWhole) (.some hplaces) .none
  · -- an exponent: one digit stands before the point
    obtain ⟨d, rest, rfl⟩ := List.exists_cons_of_ne_nil hds.1
    have hd : d ≠ '0' := by simpa using hhead
    have hwhole : Whole [d] := .other ⟨by simp, fun c hc => hds.2 c (by simp_all)⟩ hd
    have hexponent := exponent_exponentText Decimal.jsonLayout.exponentWidth (point - 1)
    rw [Decimal.Layout.place_exponent hpositional]
    rcases rest with - | ⟨e, rest⟩
    · simpa [Decimal.Layout.pointText] using Numeral.parts hsign hwhole .none hexponent
    · have hplaces : Digits (e :: rest) :=
        ⟨by simp, fun c hc => hds.2 c (List.mem_cons_of_mem d hc)⟩
      simpa [Decimal.Layout.pointText] using
        Numeral.parts hsign hwhole (.some hplaces) hexponent

theorem numeral_writeFloat {x : Binary64} (hfin : x.isFinite = true) : Numeral (writeFloat x) := by
  have hsign : x.signChars ∈ [[], ['-']] := by
    unfold Binary64.signChars
    split <;> simp
  cases hzero : x.isZero with
  | true =>
    have hplaces : Digits ['0'] := ⟨by simp, by simp⟩
    rw [writeFloat, Binary64.write_of_isZero _ hzero]
    simpa [Decimal.jsonLayout, Decimal.numberLayout] using
      Numeral.parts hsign .zero (.some hplaces) .none
  | false =>
    rw [writeFloat, Binary64.write_of_isFinite _ hfin hzero]
    exact numeral_place hsign
      ⟨Binary64.shortestDigits_ne_nil hfin hzero, fun _ => Binary64.isDigit_of_mem_shortestDigits⟩
      (Binary64.head_shortestDigits hfin hzero) _

/-- The name of a number that is not finite has a capital outside literals, like all of it. -/
theorem bares_writeFloat {x : Binary64} (hfin : x.isFinite = false) :
    Bares (writeFloat x) (writeFloat x) ∧ ('I' ∈ writeFloat x ∨ 'N' ∈ writeFloat x) := by
  have hname : writeFloat x ∈ ["NaN".toList, "Infinity".toList, "-Infinity".toList] := by
    have hcases : x.isNaN = true ∨ x.isInfinite = true := by
      have hnot : ¬x.magnitude < Binary64.infiniteMagnitude := by
        intro hlt
        rw [Binary64.isFinite_iff.2 hlt] at hfin
        cases hfin
      rcases (not_lt.1 hnot).lt_or_eq with hlt | heq
      · exact Or.inl (by simpa [Binary64.isNaN] using hlt)
      · exact Or.inr (by simp [Binary64.isInfinite, heq])
    rw [writeFloat, Decimal.Layout.write]
    by_cases hnan : x.isNaN = true
    · simp [hnan, Decimal.jsonLayout]
    · rw [if_neg hnan, if_pos (hcases.resolve_left hnan)]
      split <;> simp [Decimal.jsonLayout]
  have hall : ∀ s ∈ ["NaN".toList, "Infinity".toList, "-Infinity".toList],
      '\x22' ∉ s ∧ ('I' ∈ s ∨ 'N' ∈ s) := by decide
  exact ⟨bares_of_noQuote (hall _ hname).1, (hall _ hname).2⟩

/-! ### Text literals -/

theorem isHexDigit_hexDigit {n : Nat} (h : n < 16) : isHexDigit (Text.hexDigit n) = true := by
  have all : ∀ n, n < 16 → isHexDigit (Text.hexDigit n) = true := by decide
  exact all n h

theorem isHexDigit_of_mem_hexDigits {width n : Nat} {c : Char} (h : c ∈ Text.hexDigits width n) :
    isHexDigit c = true := by
  induction width generalizing n with
  | zero => cases h
  | succ width ih =>
    rcases List.mem_append.1 h with h | h
    · exact ih h
    · rw [List.mem_singleton.1 h]
      exact isHexDigit_hexDigit (Nat.mod_lt _ (by decide))

/-- A character is written so that it may stand in a literal. -/
theorem LiteralBody.writeChar {s : List Char} (h : LiteralBody s) (c : Char) :
    LiteralBody (Json.writeChar .unicode c ++ s) := by
  rw [writeChar_unicode]
  split
  · next hc =>
    refine .escape ?_ h
    rw [Bool.or_eq_true, beq_iff_eq, beq_iff_eq] at hc
    rcases hc with rfl | rfl
    all_goals decide
  · next hplain =>
    rw [Bool.or_eq_true, beq_iff_eq, beq_iff_eq, not_or] at hplain
    repeat' split
    · exact .escape (by decide) h
    · exact .escape (by decide) h
    · exact .escape (by decide) h
    · exact .escape (by decide) h
    · exact .escape (by decide) h
    · exact .unit (Text.length_hexDigits 4 _) (fun _ => isHexDigit_of_mem_hexDigits) h
    · next hcontrol => exact .plain (Nat.not_lt.1 hcontrol) hplain.1 hplain.2 h

/-- A text of whole characters is written as a literal. -/
theorem exists_literal (cs : List Char) :
    ∃ s, writeString .unicode (letters cs) = letters s ∧ Literal s := by
  have hbody : ∃ body, (letters cs).flatMap (writeLetter .unicode) = letters body ∧
      LiteralBody body := by
    induction cs with
    | nil => exact ⟨[], rfl, .nil⟩
    | cons c cs ih =>
      obtain ⟨body, hbody, hliteral⟩ := ih
      exact ⟨Json.writeChar .unicode c ++ body,
        by rw [letters_cons, List.flatMap_cons, hbody, writeLetter, letters_append],
        hliteral.writeChar c⟩
  obtain ⟨body, hbody, hliteral⟩ := hbody
  exact ⟨'\x22' :: (body ++ ['\x22']), by rw [writeString, hbody]; simp, .quoted hliteral⟩

end Standard

open Standard

/-! ### Values -/

/-- The text of a part that has only finite numbers, or not: it is standard just if it has. -/
structure Written (part : Part) (finite : Bool) (s : List Char) : Prop where
  standard : finite = true → Spells part s
  bares : ∃ shown, Bares s shown ∧ (finite = false → 'I' ∈ shown ∨ 'N' ∈ shown)

/-- A standard text is written for finite numbers. -/
theorem Written.of_spells {part : Part} {s : List Char} (h : Spells part s) :
    Written part true s := by
  obtain ⟨shown, hshown, -, -⟩ := h.quiet
  exact ⟨fun _ => h, shown, hshown, nofun⟩

/-- The text of a part makes the text of a larger part, with standard text around it. -/
theorem Written.within {part part' : Part} {finite : Bool} {s before after : List Char}
    (h : Written part finite s) (hbefore : Quiet before) (hafter : Quiet after)
    (hspells : Spells part s → Spells part' (before ++ s ++ after)) :
    Written part' finite (before ++ s ++ after) := by
  obtain ⟨hstandard, shown, hshown, hcapital⟩ := h
  obtain ⟨first, hfirst, -, -⟩ := hbefore
  obtain ⟨last, hlast, -, -⟩ := hafter
  refine ⟨fun hfin => hspells (hstandard hfin), _, (hfirst.append hshown).append hlast, ?_⟩
  intro hfin
  rcases hcapital hfin with h | h
  · exact Or.inl (by simp [h])
  · exact Or.inr (by simp [h])

/-- The texts of two parts with a comma between them. -/
theorem Written.join {part part' : Part} {finite finite' : Bool} {s t : List Char}
    (hs : Written part finite s) (ht : Written part' finite' t) {whole : Part}
    (hspells : Spells part s → Spells part' t → Spells whole (s ++ ',' :: t)) :
    Written whole (finite && finite') (s ++ ',' :: t) := by
  obtain ⟨hstandard, shown, hshown, hcapital⟩ := hs
  obtain ⟨hstandard', shown', hshown', hcapital'⟩ := ht
  have hcomma : Bares (',' :: t) (',' :: shown') :=
    (bares_of_noQuote (s := [',']) (by decide)).append hshown'
  refine ⟨?_, shown ++ ',' :: shown', hshown.append hcomma, ?_⟩
  · intro hfin
    rw [Bool.and_eq_true] at hfin
    exact hspells (hstandard hfin.1) (hstandard' hfin.2)
  · intro hfin
    rw [Bool.and_eq_false_iff] at hfin
    rcases hfin with hfin | hfin
    · exact (hcapital hfin).imp (by simp +contextual) (by simp +contextual)
    · exact (hcapital' hfin).imp (by simp +contextual) (by simp +contextual)

/-- A line break and the indentation of a level, as characters. -/
def lineBreak (level : Nat) : List Char := '\n' :: List.replicate (2 * level) ' '

theorem newline_eq (level : Nat) : newline level = letters (lineBreak level) := by
  simp [newline, lineBreak, letters]

theorem blanks_lineBreak (level : Nat) : Blanks (lineBreak level) := by
  intro c hc
  rcases List.mem_cons.1 hc with rfl | hc
  · rfl
  · rw [List.eq_of_mem_replicate hc]
    rfl

/-- The text of a value at a level of indentation. -/
def WrittenAt (level : Nat) (v : Value) (s : List Char) : Prop :=
  writeAt? .unicode level v = some (letters s) ∧ Written .value v.allFinite s

/-- The items of a sequence are written as items, if each of them is written as a value. -/
theorem exists_writtenItems (level : Nat) {xs : List Value} (hne : xs ≠ [])
    (h : ∀ x ∈ xs, ∃ s, WrittenAt level x s) :
    ∃ s, writeItems? .unicode level xs = some (letters s) ∧
      Written .items (Value.allFiniteItems xs) s := by
  induction xs with
  | nil => exact absurd rfl hne
  | cons x xs ih =>
    obtain ⟨first, hwrite, hfirst⟩ := h x List.mem_cons_self
    have hlast : Written .items x.allFinite first := by
      simpa using hfirst.within quiet_nil quiet_nil fun hs => by simpa using .lastItem hs.toElement
    rcases xs with - | ⟨y, ys⟩
    · exact ⟨first, by simp [writeItems?, hwrite], by simpa [Value.allFiniteItems] using hlast⟩
    · obtain ⟨others, hwriteOthers, hothers⟩ :=
        ih (by simp) fun z hz => h z (List.mem_cons_of_mem x hz)
      have hindented : Written .items (Value.allFiniteItems (y :: ys)) (lineBreak level ++ others) := by
        simpa using hothers.within (blanks_lineBreak level).quiet quiet_nil fun hs => by
          simpa using hs.after_blanks nofun (blanks_lineBreak level)
      refine ⟨first ++ ',' :: (lineBreak level ++ others), ?_, ?_⟩
      · simp [writeItems?, hwrite, hwriteOthers, newline_eq]
      · rw [Value.allFiniteItems]
        exact hfirst.join hindented fun hs ht => .moreItems hs.toElement ht

/-- What stands between brackets, on lines of its own. -/
theorem Written.indented {part : Part} {finite : Bool} {s : List Char} (h : Written part finite s)
    (hpart : part ≠ .value) (inner outer : Nat) :
    Written part finite (lineBreak inner ++ s ++ lineBreak outer) :=
  h.within (blanks_lineBreak inner).quiet (blanks_lineBreak outer).quiet fun hs =>
    (hs.after_blanks hpart (blanks_lineBreak inner)).before_blanks hpart (blanks_lineBreak outer)

theorem exists_writtenList (level : Nat) {xs : List Value}
    (h : ∀ x ∈ xs, ∃ s, WrittenAt (level + 1) x s) : ∃ s, WrittenAt level (.list xs) s := by
  rcases xs with - | ⟨x, xs⟩
  · exact ⟨['[', ']'], by simp [writeAt?],
      .of_spells (by simpa using Spells.emptyArray blanks_nil)⟩
  · obtain ⟨items, hwrite, hitems⟩ := exists_writtenItems (level + 1) (by simp) h
    refine ⟨['['] ++ (lineBreak (level + 1) ++ items ++ lineBreak level) ++ [']'], ?_, ?_⟩
    · simp [writeAt?, hwrite, newline_eq]
    · rw [Value.allFinite]
      exact (hitems.indented nofun (level + 1) level).within
        (quiet_nil.cons (by decide) (by decide) (by decide))
        (quiet_nil.cons (by decide) (by decide) (by decide)) fun hs => .array hs

/-- A member with a name of whole characters. -/
theorem exists_writtenMember (level : Nat) {key v : Value} (hkey : key.isText = true)
    (hpaired : key.isPaired = true) (h : ∃ s, WrittenAt level v s) :
    ∃ name value, keyText? key = some name ∧ writeAt? .unicode level v = some value ∧
      ∃ s, writeString .unicode name ++ .char ':' :: .char ' ' :: value = letters s ∧
        Written .member v.allFinite s := by
  obtain ⟨value, hwrite, hvalue⟩ := h
  obtain ⟨cs, hname⟩ : ∃ cs, keyText? key = some (letters cs) := by
    cases key with
    | str s => exact ⟨s.toList, rfl⟩
    | unpaired t => cases hpaired
    | _ => cases hkey
  obtain ⟨name, hliteral, hspells⟩ := exists_literal cs
  refine ⟨letters cs, letters value, hname, hwrite, name ++ [':', ' '] ++ value ++ [], ?_, ?_⟩
  · simp [hliteral]
  · refine hvalue.within (hspells.quiet.append ?_) quiet_nil fun hs => ?_
    · exact (quiet_nil.cons (by decide) (by decide) (by decide)).cons (by decide) (by decide)
        (by decide)
    · have hblank : Blanks [' '] := by simp [Blanks, Text.isXmlBlank]
      have hspaced : Spells .element (' ' :: value) := hs.toElement.after_blanks (by simp) hblank
      simpa using Spells.member blanks_nil hspells blanks_nil hspaced

/-- The members of a mapping are written as members, if their values are written as values. -/
theorem exists_writtenMembers (level : Nat) {es : Entries} (hne : es ≠ [])
    (hkeys : ∀ e ∈ es, e.1.isText = true ∧ e.1.isPaired = true)
    (h : ∀ e ∈ es, ∃ s, WrittenAt level e.2 s) :
    ∃ s, writeMembers? .unicode level es = some (letters s) ∧
      Written .members (Value.allFiniteEntries es) s := by
  induction es with
  | nil => exact absurd rfl hne
  | cons e es ih =>
    obtain ⟨key, v⟩ := e
    obtain ⟨htext, hpaired⟩ := hkeys _ List.mem_cons_self
    obtain ⟨name, value, hname, hwrite, first, hfirst, hmember⟩ :=
      exists_writtenMember level htext hpaired (h _ List.mem_cons_self)
    rcases es with - | ⟨e, es⟩
    · refine ⟨first, by simp [writeMembers?, hname, hwrite, ← hfirst], ?_⟩
      rw [Value.allFiniteEntries, Value.allFiniteEntries, Bool.and_true]
      simpa using hmember.within quiet_nil quiet_nil fun hs => by simpa using .lastMember hs
    · obtain ⟨others, hwriteOthers, hothers⟩ := ih (by simp)
        (fun e he => hkeys e (List.mem_cons_of_mem _ he))
        fun e he => h e (List.mem_cons_of_mem _ he)
      have hindented : Written .members (Value.allFiniteEntries (e :: es))
          (lineBreak level ++ others) := by
        simpa using hothers.within (blanks_lineBreak level).quiet quiet_nil fun hs => by
          simpa using hs.after_blanks nofun (blanks_lineBreak level)
      refine ⟨first ++ ',' :: (lineBreak level ++ others), ?_, ?_⟩
      · simp [writeMembers?, hname, hwrite, hwriteOthers, newline_eq, ← hfirst]
      · rw [Value.allFiniteEntries]
        exact hmember.join hindented fun hs ht => .moreMembers hs ht

theorem exists_writtenDict (level : Nat) {es : Entries}
    (hkeys : ∀ e ∈ es, e.1.isText = true ∧ e.1.isPaired = true)
    (h : ∀ e ∈ es, ∃ s, WrittenAt (level + 1) e.2 s) : ∃ s, WrittenAt level (.dict es) s := by
  rcases es with - | ⟨e, es⟩
  · exact ⟨['\x7b', '\x7d'], by simp [writeAt?],
      .of_spells (by simpa using Spells.emptyObject blanks_nil)⟩
  · obtain ⟨members, hwrite, hmembers⟩ := exists_writtenMembers (level + 1) (by simp) hkeys h
    refine ⟨['\x7b'] ++ (lineBreak (level + 1) ++ members ++ lineBreak level) ++ ['\x7d'], ?_, ?_⟩
    · simp [writeAt?, hwrite, newline_eq]
    · rw [Value.allFinite]
      exact (hmembers.indented nofun (level + 1) level).within
        (quiet_nil.cons (by decide) (by decide) (by decide))
        (quiet_nil.cons (by decide) (by decide) (by decide)) fun hs => .object hs

/-- A value of whole characters is written at every level. -/
theorem exists_writtenAt {v : Value} (h : IsJson v) (hpaired : v.isPaired = true) (level : Nat) :
    ∃ s, WrittenAt level v s := by
  induction h generalizing level with
  | null => exact ⟨_, by rw [writeAt?], .of_spells .null⟩
  | bool b =>
    refine ⟨_, by rw [writeAt?], ?_⟩
    cases b with
    | false => exact .of_spells .false
    | true => exact .of_spells .true
  | int h => exact ⟨_, by rw [writeAt?], .of_spells (.numeral (numeral_ofInt _))⟩
  | @float x _ =>
    refine ⟨_, by rw [writeAt?], ?_⟩
    rw [Value.allFinite]
    cases hfin : x.isFinite with
    | true => exact .of_spells (.numeral (numeral_writeFloat hfin))
    | false =>
      obtain ⟨hbares, hcapital⟩ := bares_writeFloat hfin
      exact ⟨nofun, _, hbares, fun _ => hcapital⟩
  | str s =>
    obtain ⟨literal, hliteral, hspells⟩ := exists_literal s.toList
    exact ⟨literal, by rw [writeAt?, hliteral], .of_spells (.literal hspells)⟩
  | unpaired t => cases hpaired
  | list _ ih =>
    rw [Value.isPaired, Value.isPairedItems_iff] at hpaired
    exact exists_writtenList level fun x hx => ih x hx (hpaired x hx) (level + 1)
  | dict hkeys _ _ ih =>
    rw [Value.isPaired, Value.isPairedEntries_iff] at hpaired
    exact exists_writtenDict level (fun e he => ⟨hkeys e he, (hpaired e he).1⟩)
      fun e he => ih e he (hpaired e he).2 (level + 1)

/-- **What is written is standard JSON just if all numbers are finite, and is read back either
way.**  This holds with blanks after it too. -/
theorem exists_written {v : Value} (h : IsJson v) (hpaired : v.isPaired = true) :
    ∃ text : String, write? .unicode v = some (letters text.toList) ∧
      ∀ after : String, Blanks after.toList →
        (IsStandard (text ++ after) ↔ v.allFinite = true) ∧ read (text ++ after) = .ok v := by
  obtain ⟨s, hwrite, hstandard, shown, hshown, hcapital⟩ := exists_writtenAt h hpaired 0
  obtain ⟨text, hwrite', hreads⟩ := exists_readsBack h 0
  obtain rfl : letters s = text := Option.some.inj (hwrite.symm.trans hwrite')
  refine ⟨String.ofList s, by rw [String.toList_ofList]; exact hwrite, fun after hafter => ⟨?_, ?_⟩⟩
  · rw [IsStandard, String.toList_append, String.toList_ofList]
    constructor
    · intro hspells
      by_contra hfin
      obtain ⟨last, hlast, -, -⟩ := hafter.quiet
      refine not_spells_of_bares (hshown.append hlast) ?_ hspells
      rcases hcapital (by simpa using hfin) with hI | hN
      · exact Or.inl (List.mem_append_left _ hI)
      · exact Or.inr (List.mem_append_left _ hN)
    · intro hfin
      exact (hstandard hfin).toElement.before_blanks nofun hafter
  · rw [read, String.toList_append, String.toList_ofList, letters_append]
    refine hreads.readLetters_append fun l hl => ?_
    obtain ⟨c, hc, rfl⟩ := List.mem_map.1 hl
    exact hafter c hc

end PagePlan.Json
