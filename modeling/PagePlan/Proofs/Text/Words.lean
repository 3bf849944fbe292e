/-
# The words of a text

The words of a text are its maximal runs of characters that are not blank, in their order.
Collapsing the blanks of a text keeps its words and leaves one blank between them; trimming takes
away what is left around them.  So a text that is coerced to a text is its words with single spaces
between them.

* `runs_iff` — the maximal runs of a text are the pieces between its blanks, the empty ones left
  out.
* `trim_collapse_eq_joined` — collapsing and trimming joins the words.
* `coerceNamed_string_eq_joined` — what the coercion of a text to a text is, and what it depends
  on.
-/
import PagePlan.Plan.Coercion
import PagePlan.Proofs.Text.Blank

namespace PagePlan

namespace Text

/-- The pieces of a text between its blanks, without the empty ones. -/
def words (s : List Char) : List (List Char) :=
  (s.splitOnP isBlank).filter (· ≠ [])

/-- Words with single spaces between them. -/
def joined (ws : List (List Char)) : List Char :=
  [' '].intercalate ws

/-- A word is not empty and has no blank in it. -/
def IsWord (w : List Char) : Prop :=
  w ≠ [] ∧ ∀ c ∈ w, isBlank c = false

/-- The maximal runs of characters that are not blank, in their order: before each run stand blanks,
and behind it a blank or nothing at all. -/
inductive Runs : List Char → List (List Char) → Prop where
  | none {gap : List Char} (hgap : ∀ c ∈ gap, isBlank c = true) : Runs gap []
  | run {gap w rest : List Char} {ws : List (List Char)} (hgap : ∀ c ∈ gap, isBlank c = true)
      (hw : IsWord w) (hrest : ∀ c ∈ rest.head?, isBlank c = true) (hruns : Runs rest ws) :
      Runs (gap ++ w ++ rest) (w :: ws)

/-! ### Runs and words -/

theorem words_append_blank {c : Char} (hc : isBlank c = true) (s t : List Char) :
    words (s ++ c :: t) = words s ++ words t := by
  rw [words, List.splitOnP_append_cons s t hc, List.filter_append]
  rfl

theorem words_nil : words [] = [] := by
  simp [words, List.splitOnP_nil]

/-- Blanks at the front belong to no word. -/
theorem words_blanks_append (gap : List Char) (hgap : ∀ c ∈ gap, isBlank c = true)
    (s : List Char) : words (gap ++ s) = words s := by
  induction gap with
  | nil => rfl
  | cons c gap ih =>
    have hfront := words_append_blank (hgap c List.mem_cons_self) [] (gap ++ s)
    rw [List.nil_append, words_nil, List.nil_append] at hfront
    rw [List.cons_append, hfront, ih fun d hd => hgap d (List.mem_cons_of_mem c hd)]

theorem IsWord.words_eq {w : List Char} (hw : IsWord w) : words w = [w] := by
  rw [words, List.splitOnP_eq_singleton hw.2]
  simp [hw.1]

/-- A word with a blank or nothing behind it is the first one. -/
theorem IsWord.words_append {w rest : List Char} (hw : IsWord w)
    (hrest : ∀ c ∈ rest.head?, isBlank c = true) : words (w ++ rest) = w :: words rest := by
  cases rest with
  | nil => rw [List.append_nil, hw.words_eq, words_nil]
  | cons c rest =>
    have hc : isBlank c = true := hrest c rfl
    have hafter := words_blanks_append [c] (by simpa using hc) rest
    rw [words_append_blank hc, hw.words_eq, ← hafter]
    rfl

theorem Runs.eq_words {s : List Char} {ws : List (List Char)} (h : Runs s ws) : ws = words s := by
  induction h with
  | @none gap hgap =>
    have hwords := words_blanks_append gap hgap []
    rw [List.append_nil, words_nil] at hwords
    exact hwords.symm
  | run hgap hw hrest _ ih =>
    rw [List.append_assoc, words_blanks_append _ hgap, hw.words_append hrest, ih]

/-- What begins with no blank is a word with a blank or nothing behind it. -/
theorem exists_word_append {c : Char} (hc : isBlank c = false) (s : List Char) :
    ∃ w rest, c :: s = w ++ rest ∧ IsWord w ∧ (∀ d ∈ rest.head?, isBlank d = true) ∧
      rest.length ≤ s.length := by
  induction s generalizing c with
  | nil => exact ⟨[c], [], rfl, ⟨by simp, by simpa using hc⟩, by simp, le_refl _⟩
  | cons d s ih =>
    cases hd : isBlank d with
    | true => exact ⟨[c], d :: s, rfl, ⟨by simp, by simpa using hc⟩, by simpa using hd, le_refl _⟩
    | false =>
      obtain ⟨w, rest, heq, hw, hrest, hle⟩ := ih hd
      exact ⟨c :: w, rest, by rw [heq, List.cons_append],
        ⟨by simp, List.forall_mem_cons.2 ⟨hc, hw.2⟩⟩, hrest, Nat.le_succ_of_le hle⟩

/-- Every text has its runs: what stands before the first word, the word, and the rest. -/
theorem exists_runs (s : List Char) : ∃ ws, Runs s ws := by
  have hgap : ∀ c ∈ s.takeWhile isBlank, isBlank c = true := List.all_eq_true.1 List.all_takeWhile
  have hsplit : s.takeWhile isBlank ++ s.dropWhile isBlank = s := List.takeWhile_append_dropWhile
  cases ht : s.dropWhile isBlank with
  | nil =>
    rw [ht, List.append_nil] at hsplit
    exact ⟨[], .none (hsplit ▸ hgap)⟩
  | cons c t =>
    have hc : isBlank c = false := by
      have h := List.head?_dropWhile_not isBlank s
      rw [ht] at h
      simpa using h
    obtain ⟨w, rest, heq, hw, hrest, hle⟩ := exists_word_append hc t
    have hshorter : rest.length < s.length := by
      have hdrop : (s.dropWhile isBlank).length ≤ s.length :=
        (List.dropWhile_suffix isBlank).length_le
      rw [ht, List.length_cons] at hdrop
      omega
    obtain ⟨ws, hws⟩ := exists_runs rest
    have hruns := Runs.run hgap hw hrest hws
    rw [List.append_assoc, ← heq, ← ht, hsplit] at hruns
    exact ⟨w :: ws, hruns⟩
termination_by s.length

/-- The maximal runs of a text are its words. -/
theorem runs_iff {s : List Char} {ws : List (List Char)} : Runs s ws ↔ ws = words s := by
  refine ⟨Runs.eq_words, ?_⟩
  rintro rfl
  obtain ⟨ws, hws⟩ := exists_runs s
  exact hws.eq_words ▸ hws

theorem Runs.isWord {s : List Char} {ws : List (List Char)} (h : Runs s ws) :
    ∀ w ∈ ws, IsWord w := by
  induction h with
  | none => exact List.forall_mem_nil _
  | run _ hw _ _ ih => exact List.forall_mem_cons.2 ⟨hw, ih⟩

/-! ### Joined words -/

theorem joined_cons_cons (w v : List Char) (ws : List (List Char)) :
    joined (w :: v :: ws) = w ++ ' ' :: joined (v :: ws) := by
  simp [joined, List.intercalate_cons_cons]

theorem joined_singleton (w : List Char) : joined [w] = w :=
  List.intercalate_singleton

theorem IsWord.isTrimmed {w : List Char} (hw : IsWord w) : IsTrimmed isBlank w :=
  ⟨fun c hc => hw.2 c (List.mem_of_mem_head? hc), fun c hc => hw.2 c (List.mem_of_getLast? hc)⟩

/-- Nothing blank stands around joined words. -/
theorem isTrimmed_joined {ws : List (List Char)} (h : ∀ w ∈ ws, IsWord w) :
    IsTrimmed isBlank (joined ws) ∧ (ws ≠ [] → joined ws ≠ []) := by
  induction ws with
  | nil => exact ⟨⟨by simp [joined], by simp [joined]⟩, fun hne => absurd rfl hne⟩
  | cons w ws ih =>
    obtain ⟨hw, hws⟩ := List.forall_mem_cons.1 h
    cases ws with
    | nil =>
      rw [joined_singleton]
      exact ⟨hw.isTrimmed, fun _ => hw.1⟩
    | cons v ws =>
      obtain ⟨htrimmed, hne⟩ := ih hws
      have hall := hw.isTrimmed.append htrimmed hw.1 (hne (by simp)) [' ']
      rw [List.append_assoc, List.singleton_append] at hall
      rw [joined_cons_cons]
      exact ⟨hall, fun _ => by simp⟩

/-- Joined words have those words as their runs. -/
theorem runs_joined {ws : List (List Char)} (h : ∀ w ∈ ws, IsWord w) : Runs (joined ws) ws := by
  induction ws with
  | nil => exact .none (by simp [joined])
  | cons w ws ih =>
    obtain ⟨hw, hws⟩ := List.forall_mem_cons.1 h
    have hnil : ∀ c ∈ ([] : List Char), isBlank c = true := List.forall_mem_nil _
    cases ws with
    | nil =>
      rw [joined_singleton]
      have hend : ∀ c ∈ ([] : List Char).head?, isBlank c = true := by simp
      have hruns := Runs.run hnil hw hend (.none hnil)
      rwa [List.nil_append, List.append_nil] at hruns
    | cons v ws =>
      -- the space between two words belongs to the gap before the second
      have hspace : words (' ' :: joined (v :: ws)) = v :: ws := by
        have hgap := words_blanks_append [' '] (List.forall_mem_singleton.2 rfl) (joined (v :: ws))
        rw [← (ih hws).eq_words] at hgap
        exact hgap
      have hend : ∀ c ∈ (' ' :: joined (v :: ws)).head?, isBlank c = true := by
        rintro _ ⟨⟩
        decide
      have hruns := Runs.run hnil hw hend (runs_iff.2 hspace.symm)
      rwa [List.nil_append, ← joined_cons_cons] at hruns

/-! ### Collapsing -/

/-- Blanks alone collapse to one space. -/
theorem collapse_blanks {gap : List Char} (hgap : ∀ c ∈ gap, isBlank c = true) (hne : gap ≠ []) :
    collapse isBlank gap = [' '] := by
  induction gap with
  | nil => exact absurd rfl hne
  | cons c gap ih =>
    obtain ⟨hc, hgap⟩ := List.forall_mem_cons.1 hgap
    cases gap with
    | nil => simp [collapse, hc]
    | cons d gap =>
      rw [collapse, if_pos hc]
      simp only [if_pos (hgap d List.mem_cons_self)]
      exact ih hgap (by simp)

/-- What is not blank is kept. -/
theorem collapse_word_append {w : List Char} (hw : ∀ c ∈ w, isBlank c = false) (s : List Char) :
    collapse isBlank (w ++ s) = w ++ collapse isBlank s := by
  induction w with
  | nil => rfl
  | cons c w ih =>
    obtain ⟨hc, hw⟩ := List.forall_mem_cons.1 hw
    rw [List.cons_append, collapse.eq_def]
    simp only [hc, Bool.false_eq_true, if_false, ih hw, List.cons_append]

/-- Blanks with something else behind them collapse for themselves. -/
theorem collapse_blanks_append {gap s : List Char} (hgap : ∀ c ∈ gap, isBlank c = true)
    (hs : ∀ c ∈ s.head?, isBlank c = false) :
    collapse isBlank (gap ++ s) = collapse isBlank gap ++ collapse isBlank s := by
  induction gap with
  | nil => rfl
  | cons c gap ih =>
    obtain ⟨hc, hgap⟩ := List.forall_mem_cons.1 hgap
    cases gap with
    | nil =>
      cases s with
      | nil => simp [collapse, hc]
      | cons d s =>
        have hd : isBlank d = false := hs d rfl
        simp [collapse, hc, hd]
    | cons d gap =>
      have hd : isBlank d = true := hgap d List.mem_cons_self
      have hskip (t : List Char) :
          collapse isBlank (c :: d :: t) = collapse isBlank (d :: t) := by
        rw [collapse, if_pos hc]
        simp only [if_pos hd]
      rw [List.cons_append, List.cons_append, hskip, hskip]
      exact ih hgap

/-- Collapsing keeps the words and leaves one space between them.  A text that begins with a blank
has one before the first word; the induction on the runs needs it for the gap to the next word. -/
theorem Runs.collapse_eq {s : List Char} {ws : List (List Char)} (h : Runs s ws) :
    ∃ before behind, (∀ c ∈ before, isBlank c = true) ∧ (∀ c ∈ behind, isBlank c = true) ∧
      collapse isBlank s = before ++ joined ws ++ behind ∧
      (ws ≠ [] → (∀ c ∈ s.head?, isBlank c = true) → before = [' ']) := by
  have hcollapsed {gap : List Char} (hgap : ∀ c ∈ gap, isBlank c = true) :
      ∀ c ∈ collapse isBlank gap, isBlank c = true := by
    by_cases hne : gap = []
    · simp [hne]
    · rw [collapse_blanks hgap hne]
      exact List.forall_mem_singleton.2 rfl
  induction h with
  | @none gap hgap =>
    exact ⟨collapse isBlank gap, [], hcollapsed hgap, List.forall_mem_nil _, by simp [joined],
      fun hne => absurd rfl hne⟩
  | @run gap w rest ws hgap hw hrest hruns ih =>
    obtain ⟨before, behind, hbefore, hbehind, heq, hspace⟩ := ih
    obtain ⟨d, w', rfl⟩ := List.exists_cons_of_ne_nil hw.1
    have hd : isBlank d = false := hw.2 d List.mem_cons_self
    have hfront : collapse isBlank (gap ++ (d :: w') ++ rest) =
        collapse isBlank gap ++ (d :: w' ++ collapse isBlank rest) := by
      rw [List.append_assoc, collapse_blanks_append hgap (by simpa using hd),
        collapse_word_append hw.2]
    have hgapSpace : (∀ c ∈ (gap ++ (d :: w') ++ rest).head?, isBlank c = true) →
        collapse isBlank gap = [' '] := by
      intro hhead
      refine collapse_blanks hgap ?_
      rintro rfl
      simp [hd] at hhead
    cases ws with
    | nil =>
      refine ⟨collapse isBlank gap, collapse isBlank rest, hcollapsed hgap, ?_, ?_,
        fun _ => hgapSpace⟩
      · rw [heq]
        simpa [joined, or_imp, forall_and] using ⟨hbefore, hbehind⟩
      · rw [hfront, joined_singleton, List.append_assoc]
    | cons v ws =>
      refine ⟨collapse isBlank gap, behind, hcollapsed hgap, hbehind, ?_, fun _ => hgapSpace⟩
      rw [hfront, heq, hspace (by simp) hrest, joined_cons_cons]
      simp

/-- **Collapsing the blanks of a text and trimming it joins its words.** -/
theorem trim_collapse_eq_joined (s : List Char) :
    trim isBlank (collapse isBlank s) = joined (words s) := by
  have hruns : Runs s (words s) := runs_iff.2 rfl
  obtain ⟨before, behind, hbefore, hbehind, heq, -⟩ := hruns.collapse_eq
  rw [heq, trim_append hbefore (isTrimmed_joined hruns.isWord).1 hbehind]

end Text

/-- **Coercion of a text to a text joins its words.**  The words are the maximal runs of characters
that are not blank.  What comes out is coerced to itself, has no blank at an end and none beside
another, and is the same for every text with the same words. -/
theorem coerceNamed_string_eq_joined (raw : String) :
    ∃ s : String, coerceNamed raw (some "string") = .ok (.str s) ∧
      s.toList = [' '].intercalate (Text.words raw.toList) ∧
      (∀ ws, Text.Runs raw.toList ws ↔ ws = Text.words raw.toList) ∧
      coerceNamed s (some "string") = .ok (.str s) ∧
      Text.IsSqueezed s.toList ∧
      ∀ other : String, Text.words other.toList = Text.words raw.toList →
        coerceNamed other (some "string") = .ok (.str s) := by
  have hcoerce (t : String) : coerceNamed t (some "string") =
      .ok (.str (String.ofList (Text.joined (Text.words t.toList)))) := by
    have hstrip : Text.strip (Text.squeeze t) =
        String.ofList (Text.trim Text.isBlank (Text.collapse Text.isBlank t.toList)) := by
      rw [Text.strip, Text.squeeze, String.toList_ofList]
    rw [← Text.trim_collapse_eq_joined, ← hstrip]
    rfl
  have hwords : Text.words (Text.joined (Text.words raw.toList)) = Text.words raw.toList :=
    (Text.runs_joined (Text.runs_iff.2 rfl : Text.Runs raw.toList _).isWord).eq_words.symm
  refine ⟨String.ofList (Text.joined (Text.words raw.toList)), hcoerce raw, ?_, ?_, ?_, ?_, ?_⟩
  · rw [String.toList_ofList]
    rfl
  · exact fun ws => Text.runs_iff
  · rw [hcoerce, String.toList_ofList, hwords]
  · rw [String.toList_ofList, ← Text.trim_collapse_eq_joined]
    exact Text.isSqueezed_trim_collapse raw.toList
  · intro other hother
    rw [hcoerce, hother]

end PagePlan
