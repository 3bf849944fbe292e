/-
# What a prompt shows

A prompt shows properties in a fenced block under a heading.  The heading stands nowhere before,
and no line of the written properties begins with a back quote, so that whoever looks for the first
heading and for the first fence after it finds the properties as they were written, whatever their
texts hold.

* `shownBlock_forPlan`, `shownBlock_forData` — the block of a prompt is what was written.
* `prompt_shows_properties` — and it is read back as the properties, if these are the value of a
  JSON text.
-/
import PagePlan.Model.Prompt
import PagePlan.Proofs.Json.Apart

namespace PagePlan

namespace Text

/-! ### The first place of a pattern -/

variable {α : Type} [BEq α] [LawfulBEq α] {pat s before after : List α}

theorem eq_append_of_splitAtFirst (h : splitAtFirst pat s = some (before, after)) :
    s = before ++ pat ++ after := by
  induction s generalizing before with
  | nil =>
    rw [splitAtFirst] at h
    split at h
    · next hempty =>
      cases h
      simpa using hempty
    · cases h
  | cons c s ih =>
    rw [splitAtFirst] at h
    split at h
    · next hfront =>
      cases h
      rw [List.nil_append]
      exact (List.prefix_iff_eq_append.1 (List.isPrefixOf_iff_prefix.1 hfront)).symm
    · obtain ⟨⟨front, behind⟩, hfound, h⟩ := Option.map_eq_some_iff.1 h
      cases h
      rw [ih hfound, List.cons_append, List.cons_append]

/-- A pattern that stands in a text stands there still when the text goes on. -/
theorem splitAtFirst_append_right (h : splitAtFirst pat s = some (before, after)) (t : List α) :
    splitAtFirst pat (s ++ t) = some (before, after ++ t) := by
  induction s generalizing before with
  | nil =>
    rw [splitAtFirst] at h
    split at h
    · next hempty =>
      cases h
      obtain rfl : pat = [] := by simpa using hempty
      cases t with
      | nil => rfl
      | cons c t => rfl
    · cases h
  | cons c s ih =>
    have hlength : pat.length ≤ (c :: s).length := by
      rw [eq_append_of_splitAtFirst h, List.length_append, List.length_append]
      omega
    rw [splitAtFirst] at h
    rw [List.cons_append, splitAtFirst]
    split at h
    · next hfront =>
      cases h
      have hstands := List.isPrefixOf_iff_prefix.1 hfront
      have hlonger : pat.isPrefixOf (c :: (s ++ t)) = true :=
        List.isPrefixOf_iff_prefix.2 (hstands.trans (List.prefix_append (c :: s) t))
      rw [if_pos hlonger, ← List.cons_append, List.drop_append_of_le_length hlength]
    · next hfront =>
      -- the pattern is no longer than the text, so that what comes behind makes no difference
      have hlonger : ¬pat.isPrefixOf (c :: (s ++ t)) = true := by
        intro hlonger
        have hstands := List.isPrefixOf_iff_prefix.1 hlonger
        rw [← List.cons_append] at hstands
        exact hfront (List.isPrefixOf_iff_prefix.2
          (List.prefix_of_prefix_length_le hstands (List.prefix_append _ t) hlength))
      obtain ⟨⟨front, behind⟩, hfound, h⟩ := Option.map_eq_some_iff.1 h
      cases h
      rw [if_neg hlonger, ih hfound]
      rfl

end Text

namespace Prompt

open Text (letters)

/-- The heading over the properties, with the line that opens their block. -/
def heading : String := "## Requirements Schema (what to extract)\n\x60\x60\x60json\n"

/-- A line break and a fence. -/
def blockEnd : List Char := ['\n', '\x60', '\x60', '\x60']

/-- What a prompt shows between the first heading and the first line after it that begins with a
fence. -/
def shownBlock? (prompt : String) : Option String :=
  (Text.splitAtFirst heading.toList prompt.toList).bind fun found =>
    (Text.splitAtFirst blockEnd found.2).map fun block => String.ofList block.1

/-- A text ends at the fence behind it, if none of its lines begins with a back quote. -/
theorem splitAtFirst_blockEnd {cs : List Char} (h : Json.Unfenced (letters cs)) (t : List Char) :
    Text.splitAtFirst blockEnd (cs ++ blockEnd ++ t) = some (cs, t) := by
  induction cs with
  | nil => rfl
  | cons c cs ih =>
    have htail : Json.Unfenced (letters cs) := fun before behind heq =>
      h (.char c :: before) behind (by rw [Text.letters_cons, heq, List.cons_append])
    have hfront : ¬blockEnd.isPrefixOf (c :: (cs ++ blockEnd ++ t)) = true := by
      rw [List.isPrefixOf_iff_prefix, blockEnd, List.cons_prefix_cons]
      rintro ⟨rfl, hfence⟩
      obtain ⟨l, rest, hrest, hl⟩ := h [] (letters cs) rfl
      cases cs with
      | nil => cases hrest
      | cons d cs =>
        simp only [List.cons_append, List.cons_prefix_cons] at hfence
        exact hl (by rw [← (List.cons.inj hrest).1, hfence.1])
    rw [List.cons_append, List.cons_append, Text.splitAtFirst, if_neg hfront, ih htail]
    rfl

/-- The block under a heading that stands nowhere before. -/
theorem shownBlock_of_opening {opening : String} {properties : Value} {s : String}
    (hopening : (Text.splitAtFirst heading.toList opening.toList).map Prod.snd = some [])
    (hs : Json.writeAscii? properties = some s) (rest : String) :
    shownBlock? (opening ++ s ++ "\n" ++ fenceLine ++ rest) = some s := by
  obtain ⟨⟨before, after⟩, hfound, hafter⟩ := Option.map_eq_some_iff.1 hopening
  obtain rfl : after = [] := hafter
  obtain ⟨text, hwrite, rfl⟩ := Option.map_eq_some_iff.1 hs
  have hletters := Json.letters_of_write hwrite
  have hunfenced : Json.Unfenced (letters (text.map Text.Letter.shown)) := by
    rw [hletters]
    exact Json.unfenced_ofPieces.writeAt 0 properties hwrite
  have hlist : (opening ++ String.ofList (text.map Text.Letter.shown) ++ "\n" ++ fenceLine ++
      rest).toList = opening.toList ++ (text.map Text.Letter.shown ++ blockEnd ++
        '\n' :: rest.toList) := by
    simp [fenceLine, blockEnd]
  rw [shownBlock?, hlist, Text.splitAtFirst_append_right hfound]
  simp only [Option.bind_some, List.nil_append, splitAtFirst_blockEnd hunfenced, Option.map_some]

theorem toList_text (lines : List String) :
    (text lines).toList = lines.flatMap fun line => line.toList ++ ['\n'] := by
  simp [text, List.flatMap_map]

theorem opening_forPlan :
    (Text.splitAtFirst heading.toList (text openingLines).toList).map Prod.snd = some [] := by
  rw [toList_text]
  simp only [openingLines, heading, List.flatMap_cons, List.flatMap_nil]
  repeat rw [String.toList_ofList]
  decide +kernel

theorem opening_forData :
    (Text.splitAtFirst heading.toList (text directLines).toList).map Prod.snd = some [] := by
  rw [toList_text]
  simp only [directLines, heading, List.flatMap_cons, List.flatMap_nil]
  repeat rw [String.toList_ofList]
  decide +kernel

variable {properties : Value} {s : String}

/-- **The block of a prompt for a plan is what was written.** -/
theorem shownBlock_forPlan (h : Json.writeAscii? properties = some s) :
    ∃ prompt, forPlan properties = .ok prompt ∧ shownBlock? prompt = some s := by
  have hshown := shownBlock_of_opening opening_forPlan h
    ("\n" ++ text formatLines ++ "\n" ++ text ruleLines ++ text closingLines)
  refine ⟨_, by rw [forPlan, block, h]; rfl, ?_⟩
  simpa [String.append_assoc] using hshown

/-- **The block of a prompt for data is what was written.** -/
theorem shownBlock_forData (h : Json.writeAscii? properties = some s) :
    ∃ prompt, forData properties = .ok prompt ∧ shownBlock? prompt = some s := by
  have hshown := shownBlock_of_opening opening_forData h ""
  refine ⟨_, by rw [forData, block, h]; rfl, ?_⟩
  simpa using hshown

/-- **No text breaks out of the block of a prompt.**  What a prompt shows of the value of a JSON
text, from the heading to the next fence at the beginning of a line, is the text of the value and
is read back as the value.  Prompts that are the same ask for the same. -/
theorem prompt_shows_properties {source : String} (h : Json.read source = .ok properties) :
    ∃ s plan data, Json.writeAscii? properties = some s ∧ Json.read s = .ok properties ∧
      forPlan properties = .ok plan ∧ shownBlock? plan = some s ∧
      forData properties = .ok data ∧ shownBlock? data = some s ∧
      ∀ source' other, Json.read source' = .ok other →
        forPlan other = .ok plan ∨ forData other = .ok data → other = properties := by
  obtain ⟨s, hwrite, hread⟩ := Json.read_writeAscii h
  obtain ⟨plan, hplan, hplanBlock⟩ := shownBlock_forPlan hwrite
  obtain ⟨data, hdata, hdataBlock⟩ := shownBlock_forData hwrite
  refine ⟨s, plan, data, hwrite, hread, hplan, hplanBlock, hdata, hdataBlock, ?_⟩
  intro source' other hother hsame
  obtain ⟨s', hwrite', hread'⟩ := Json.read_writeAscii hother
  -- the block is found in the prompt alone, so that equal prompts show one text
  have htext : s' = s := by
    rcases hsame with hsame | hsame
    · obtain ⟨plan', hplan', hblock'⟩ := shownBlock_forPlan hwrite'
      obtain rfl : plan' = plan := Except.ok.inj (hplan'.symm.trans hsame)
      exact Option.some.inj (hblock'.symm.trans hplanBlock)
    · obtain ⟨data', hdata', hblock'⟩ := shownBlock_forData hwrite'
      obtain rfl : data' = data := Except.ok.inj (hdata'.symm.trans hsame)
      exact Option.some.inj (hblock'.symm.trans hdataBlock)
  rw [htext, hread] at hread'
  exact (Except.ok.inj hread').symm

/-- A property that is named by a fence on a line of its own, with a quote and a fence in its
default. -/
def fencedProperties : Value :=
  .dict [(.str "\n\x60\x60\x60\n", .dict [(.str "default", .str "\x22\n\x60\x60\x60")])]

/-- The text of these properties. -/
def fencedSource : String :=
  "\x7b\x22\\n\x60\x60\x60\\n\x22:\x7b\x22default\x22:\x22\\\x22\\n\x60\x60\x60\x22\x7d\x7d"

theorem prompt_shows_fences : Json.read fencedSource = .ok fencedProperties ∧
    ∃ s plan, Json.read s = .ok fencedProperties ∧ forPlan fencedProperties = .ok plan ∧
      shownBlock? plan = some s := by
  have hread : Json.read fencedSource = .ok fencedProperties := by
    rw [Json.read, fencedSource, String.toList_ofList]
    rfl
  obtain ⟨s, plan, data, -, hback, hplan, hblock, -⟩ := prompt_shows_properties hread
  exact ⟨hread, s, plan, hback, hplan, hblock⟩

end Prompt

end PagePlan
