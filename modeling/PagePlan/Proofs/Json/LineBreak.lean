/-
# Written values and line breaks

A text file is read with a line feed for every line break.  What is written as JSON has line feeds
alone, since a carriage return in a text is escaped, so that reading the file back does not touch
it.  Nor can it be taken for the end of a fenced block: line breaks in texts are escaped too, and
every other one has an indentation or a closing bracket behind it.

* `text_put_toUtf8` — a file has the text that was put in it, if that has no carriage return.
* `noReturn_writeAt` — what is written has no carriage return.
* `unfenced_ofPieces` — no line of it begins with a back quote.
-/
import PagePlan.Files.Basic
import PagePlan.Proofs.Json.Pieces
import PagePlan.Proofs.Text.Utf8

namespace PagePlan

namespace Text

/-- A text without carriage returns is read as it is. -/
theorem unifyLineBreaks_eq_self {cs : List Char} (h : '\r' ∉ cs) : unifyLineBreaks cs = cs := by
  induction cs with
  | nil => rfl
  | cons c cs ih =>
    obtain ⟨hc, hcs⟩ : '\r' ≠ c ∧ '\r' ∉ cs := by simpa using h
    rw [unifyLineBreaks, if_neg (by simpa using Ne.symm hc), ih hcs]
    rintro rest rfl
    exact absurd rfl hc

end Text

/-- A file has the text that was put in it. -/
theorem Files.text_put_toUtf8 (fs : Files) (name : FileName) {cs : List Char} (h : '\r' ∉ cs) :
    (fs.put name (Text.toUtf8 cs)).text name = .ok (String.ofList cs) := by
  simp only [Files.text, Files.bytes?_put, Text.ofUtf8?_toUtf8, Text.unifyLineBreaks_eq_self h]

namespace Json

open Text (Letter letters)

variable {style : Style}

/-- A line break in a text has something else than a back quote behind it. -/
def Unfenced (s : List Letter) : Prop :=
  ∀ before behind, s = before ++ .char '\n' :: behind →
    ∃ l rest, behind = l :: rest ∧ l ≠ .char '\x60'

theorem Printed.not_mem {s : List Letter} (h : Printed style s) {c : Char} (hc : c.toNat < 32) :
    .char c ∉ s :=
  fun hmem => absurd (h _ hmem).1 (Nat.not_le.2 hc)

theorem not_mem_newline {c : Char} (hbreak : c ≠ '\n') (hblank : c ≠ ' ') (level : Nat) :
    .char c ∉ newline level := by
  simp [newline, hbreak, hblank]

/-- What is written has no carriage return. -/
theorem noReturn_ofPieces : OfPieces style fun s => .char '\r' ∉ s where
  append hs ht := by
    rw [List.mem_append, not_or]
    exact ⟨hs, ht⟩
  printed h := h.not_mem (by decide)
  newline level := not_mem_newline (by decide) (by decide) _
  closing level c hc := by
    rw [List.mem_append, not_or]
    refine ⟨not_mem_newline (by decide) (by decide) level, ?_⟩
    intro hreturn
    obtain rfl := Letter.char.inj (List.mem_singleton.1 hreturn)
    exact absurd hc (by decide)

theorem noReturn_writeAt (level : Nat) (v : Value) {text : List Letter}
    (h : writeAt? style level v = some text) : .char '\r' ∉ text :=
  noReturn_ofPieces.writeAt level v h

/-- A line break with blanks and a letter behind it. -/
theorem unfenced_newline_append (level : Nat) {s : List Letter} (hs : .char '\n' ∉ s)
    (hfront : ∀ l ∈ (List.replicate (2 * level) (Letter.char ' ') ++ s).head?, l ≠ .char '\x60')
    (hne : List.replicate (2 * level) (Letter.char ' ') ++ s ≠ []) :
    Unfenced (newline level ++ s) := by
  intro before behind heq
  rw [newline, List.cons_append] at heq
  cases before with
  | nil =>
    obtain ⟨l, rest, hbehind⟩ := List.exists_cons_of_ne_nil hne
    rw [hbehind] at heq hfront
    exact ⟨l, rest, (List.cons.inj heq).2.symm, hfront l rfl⟩
  | cons b before =>
    -- there is no other line break
    have hmem : Letter.char '\n' ∈ List.replicate (2 * level) (Letter.char ' ') ++ s := by
      rw [(List.cons.inj heq).2]
      simp
    rcases List.mem_append.1 hmem with hmem | hmem
    · exact absurd (List.eq_of_mem_replicate hmem) (by decide)
    · exact absurd hmem hs

/-- What is written has no line that begins with a back quote, and does not end in a line break. -/
theorem unfenced_ofPieces : OfPieces style Unfenced where
  append {s t} hs ht := by
    intro before behind heq
    rcases List.append_eq_append_iff.1 heq with ⟨mid, hbefore, hmid⟩ | ⟨mid, hs', hmid⟩
    · exact ht mid behind hmid
    · cases mid with
      | nil => exact ht [] behind hmid.symm
      | cons l mid =>
        obtain ⟨rfl, hbehind⟩ := List.cons.inj hmid
        obtain ⟨m, rest, rfl, hm⟩ := hs before mid hs'
        exact ⟨m, rest ++ t, hbehind, hm⟩
  printed h := by
    rintro before behind rfl
    exact absurd (List.mem_append_right _ List.mem_cons_self) (h.not_mem (by decide))
  newline level := by
    have h := unfenced_newline_append (level + 1) (List.not_mem_nil (a := Letter.char '\n'))
      (by simp [Nat.mul_add, List.replicate_succ]) (by simp)
    rwa [List.append_nil] at h
  closing level {c} hc := by
    have hclosing : ∀ d ∈ [']', '\x7d'], d ≠ '\n' ∧ d ≠ '\x60' := by simp
    refine unfenced_newline_append level ?_ ?_ (by simp)
    · simpa using (hclosing c hc).1.symm
    · cases level with
      | zero => simpa using (hclosing c hc).2
      | succ level => simp [Nat.mul_add, List.replicate_succ]

end Json

end PagePlan
