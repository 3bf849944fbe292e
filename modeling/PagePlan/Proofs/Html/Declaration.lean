/-
# An XML declaration before a page

A page that comes as text and begins with an XML declaration is read by way of its bytes, and their
encoding has to be told once more.  Where the declaration comes first of all, its own bytes say that
they are UTF-8, and the page is the one that the text has without it.  Where blanks stand before it,
they say nothing, and the page is in the encoding that a meta element names or in ISO 8859-1; that
is another page if the text is not ASCII.  A byte order mark is dropped at the front of a text only,
and is a character of the page behind a declaration.

* `root?_ofChars_declaration` — a declaration before a decoded text does not change the root;
* `decodePage_of_atFront` — the bytes of a text that begins with a declaration are decoded to it;
* `decode_toUtf8_of_ascii` — the bytes of an ASCII text are decoded to it in whichever encoding;
* `root?_ofString_declaration` — the root of a page with a declaration before it.
-/
import PagePlan.Html.Page
import PagePlan.Proofs.Html.Token
import PagePlan.Proofs.Html.Tree
import PagePlan.Proofs.Text.Utf8

namespace PagePlan.Html

open Dom (Node)
open Text (toUtf8 isBlank startsWith)

/-- An XML declaration. -/
def declaration : String := "<?xml version=\"1.0\"?>"

variable {cs : List Char}

/-! ### A declaration before a decoded text -/

theorem tokens_declaration (cs : List Char) :
    tokens (declaration.toList ++ cs) = .comment "?xml version=\"1.0\"?" :: tokens cs :=
  tokens_instruction "xml version=\"1.0\"?".toList cs (by simp)

/-- **A declaration before a decoded text does not change the root of its page**: it is a comment
before the root. -/
theorem root?_ofChars_declaration (cs : List Char) :
    (ofChars (declaration.toList ++ cs)).root? = (ofChars cs).root? := by
  simp only [ofChars, tokens_declaration, tree_comment, List.any_cons, Node.isElement,
    Bool.false_or]
  split
  · simp [Dom.Page.root?, Node.isElement]
  · rfl

/-! ### Bytes of a text -/

theorem decodeUtf8_toUtf8 (cs : List Char) {fuel : Nat} (hfuel : cs.length ≤ fuel) :
    Charset.decodeUtf8 fuel (toUtf8 cs) = cs := by
  induction cs generalizing fuel with
  | nil => cases fuel <;> rfl
  | cons c cs ih =>
    rw [List.length_cons] at hfuel
    obtain ⟨fuel, rfl⟩ : ∃ k, fuel = k + 1 := ⟨fuel - 1, by omega⟩
    obtain ⟨b, bs, hbytes⟩ :=
      List.exists_cons_of_ne_nil (List.append_ne_nil_of_left_ne_nil
        (String.utf8EncodeChar_ne_nil (c := c)) (toUtf8 cs))
    have hsplit : toUtf8 (c :: cs) = String.utf8EncodeChar c ++ toUtf8 cs := rfl
    rw [hsplit, hbytes, Charset.decodeUtf8, ← hbytes, Text.utf8Front?_utf8EncodeChar]
    exact congrArg (c :: ·) (ih (by omega))

theorem decode_utf8_toUtf8 (cs : List Char) : Charset.utf8.decode (toUtf8 cs) = cs :=
  decodeUtf8_toUtf8 cs (Text.length_le_toUtf8 cs)

/-- A declaration at the front says that the bytes are UTF-8. -/
theorem decodePage_of_atFront (h : startsWith "<?xml".toList cs) : decodePage (toUtf8 cs) = cs := by
  obtain ⟨rest, rfl⟩ := List.isPrefixOf_iff_prefix.1 h
  have hfront : Charset.atFront? (toUtf8 ("<?xml".toList ++ rest)) =
      some (.utf8, toUtf8 ("<?xml".toList ++ rest)) := rfl
  rw [decodePage, hfront]
  exact decode_utf8_toUtf8 _

/-- The first byte of a blank. -/
theorem utf8EncodeChar_of_isBlank {c : Char} (h : isBlank c) :
    ∃ b bs, String.utf8EncodeChar c = b :: bs ∧ b.toNat ∉ [0xEF, 0xFF, 0x00, 0xFE, 0x3C] := by
  have hval : c.val.toNat = c.toNat := rfl
  simp only [isBlank, Bool.or_eq_true, Bool.and_eq_true, decide_eq_true_eq, beq_iff_eq] at h
  simp only [String.utf8EncodeChar, hval]
  split
  · refine ⟨_, _, rfl, ?_⟩
    rw [UInt8.toNat_ofNat']
    simp
    omega
  · split
    · refine ⟨_, _, rfl, ?_⟩
      rw [UInt8.toNat_ofNat']
      simp
      omega
    · split
      · refine ⟨_, _, rfl, ?_⟩
        rw [UInt8.toNat_ofNat']
        simp
        omega
      · omega

/-- Bytes that begin with a blank have no mark at the front. -/
theorem atFront?_of_isBlank {c : Char} (h : isBlank c) (cs : List Char) :
    Charset.atFront? (toUtf8 (c :: cs)) = none := by
  obtain ⟨b, bs, hbytes, hb⟩ := utf8EncodeChar_of_isBlank h
  have hsplit : toUtf8 (c :: cs) = b :: (bs ++ toUtf8 cs) := by
    rw [toUtf8, List.flatMap_cons, hbytes]
    rfl
  rw [hsplit]
  unfold Charset.atFront?
  split <;> simp_all

/-- The bytes of a text that begins with a blank are in the encoding that is looked for in them. -/
theorem decodePage_of_isBlank {c : Char} (h : isBlank c) (cs : List Char) :
    decodePage (toUtf8 (c :: cs)) =
      (Charset.detect (toUtf8 (c :: cs))).decode (toUtf8 (c :: cs)) := by
  rw [decodePage, atFront?_of_isBlank h]

/-! ### ASCII -/

theorem toUtf8_of_ascii (h : ∀ c ∈ cs, c.toNat < 128) : toUtf8 cs = cs.map Char.toUInt8 := by
  induction cs with
  | nil => rfl
  | cons c cs ih =>
    have hsize : c.utf8Size = 1 := by
      rw [Char.utf8Size_eq_one_iff, UInt32.le_iff_toNat_le]
      exact Nat.le_of_lt_succ (h c List.mem_cons_self)
    rw [toUtf8, List.flatMap_cons, String.utf8EncodeChar_eq_singleton hsize, ← toUtf8,
      ih fun d hd => h d (List.mem_cons_of_mem c hd)]
    rfl

theorem char_toUInt8 (page : Text.CodePage) {c : Char} (h : c.toNat < 128) :
    page.char c.toUInt8 = c := by
  have hbyte : c.toUInt8.toNat = c.toNat := by
    rw [Char.toUInt8, UInt32.toNat_toUInt8]
    exact Nat.mod_eq_of_lt (by have : c.val.toNat = c.toNat := rfl; omega)
  rw [Text.CodePage.char, if_pos (UInt8.lt_iff_toNat_lt.2 (by rw [hbyte]; exact h)), hbyte,
    Char.ofNat_toNat]

/-- No encoding of wider units is looked for in bytes. -/
theorem named?_cases {name : List Char} {charset : Charset} (h : Charset.named? name = some charset) :
    charset = .utf8 ∨ ∃ page, charset = .page page := by
  unfold Charset.named? at h
  dsimp only at h
  split at h
  · exact .inl (Option.some.inj h).symm
  · obtain ⟨page, -, rfl⟩ := Option.map_eq_some_iff.1 h
    exact .inr ⟨page, rfl⟩

theorem detect_cases (bytes : List UInt8) :
    Charset.detect bytes = .utf8 ∨ ∃ page, Charset.detect bytes = .page page := by
  unfold Charset.detect
  dsimp only
  split
  · next charset h =>
    obtain ⟨name, -, hname⟩ := List.exists_of_findSome?_eq_some h
    exact named?_cases hname
  · cases h : Charset.ofText? ((bytes.dropWhile fun b => b < 128).map fun b => Char.ofNat b.toNat) with
    | none => exact .inr ⟨.iso8859v1, rfl⟩
    | some charset =>
      obtain ⟨_, -, h⟩ := Option.bind_eq_some_iff.1 h
      obtain ⟨_, -, h⟩ := Option.bind_eq_some_iff.1 h
      obtain ⟨_, -, h⟩ := Option.bind_eq_some_iff.1 h
      exact named?_cases h

/-- **The bytes of an ASCII text are decoded to the text, whichever encoding is found in them.** -/
theorem decode_toUtf8_of_ascii (h : ∀ c ∈ cs, c.toNat < 128) :
    (Charset.detect (toUtf8 cs)).decode (toUtf8 cs) = cs := by
  rcases detect_cases (toUtf8 cs) with hdetect | ⟨page, hdetect⟩
  · rw [hdetect, decode_utf8_toUtf8]
  · rw [hdetect, Charset.decode, Text.CodePage.decode, toUtf8_of_ascii h, List.map_map]
    have hchars : cs.map (page.char ∘ Char.toUInt8) = cs.map id :=
      List.map_congr_left fun c hc => char_toUInt8 page (h c hc)
    rw [hchars, List.map_id]

/-! ### A page with a declaration before it -/

/-- Whether blanks stand before an XML declaration at the front of a text. -/
def isIndented (s : String) : Bool :=
  s.toList.head?.any isBlank && startsWith "<?xml".toList (s.toList.dropWhile isBlank)

/-- A text that is not blank is read from its characters, unless blanks stand before a declaration
or it begins with a byte order mark. -/
theorem ofString_eq_ofChars {s : String} (hblank : ∃ c ∈ s.toList, isBlank c = false)
    (hmark : s.toList.head? ≠ some '\ufeff') (hindented : isIndented s = false) :
    ofString s = ofChars s.toList := by
  have hfront : s.toList.dropWhile isBlank ≠ [] := by
    obtain ⟨c, hc, hcblank⟩ := hblank
    rw [Ne, List.dropWhile_eq_nil_iff]
    exact fun h => by simp [h c hc] at hcblank
  unfold ofString
  dsimp only
  split
  · next h => exact absurd h hfront
  · split
    · next hdeclared =>
      have hhead : s.toList.dropWhile isBlank = s.toList := by
        cases hs : s.toList with
        | nil => rfl
        | cons c cs =>
          rw [isIndented, hdeclared, Bool.and_true, hs] at hindented
          exact List.dropWhile_cons_of_neg (by simpa using hindented)
      rw [hhead] at hdeclared
      rw [decodePage_of_atFront hdeclared]
    · have htext : decodeText s.toList = s.toList := by
        unfold decodeText
        split
        · next rest heq => exact absurd (by rw [heq]; rfl) hmark
        · rfl
      rw [htext]

theorem ofString_declaration (s : String) :
    ofString (declaration ++ s) = ofChars (declaration.toList ++ s.toList) := by
  have hfront : (declaration ++ s).toList = '<' :: ("?xml version=\"1.0\"?>".toList ++ s.toList) :=
    String.toList_append
  rw [ofString_eq_ofChars, String.toList_append]
  · exact ⟨'<', by simp [hfront], rfl⟩
  · rw [hfront, List.head?_cons]
    decide
  · rw [isIndented, hfront]
    rfl

/-- A byte order mark at the front of a text is dropped. -/
theorem ofString_mark (s : String) : ofString ("\ufeff" ++ s) = ofChars s.toList := by
  have hfront : ("\ufeff" ++ s).toList = '\ufeff' :: s.toList := String.toList_append
  unfold ofString
  rw [hfront]
  rfl

/-- If blanks stand before a declaration, the encoding is looked for in the bytes. -/
theorem ofString_of_isIndented {s : String} (h : isIndented s) :
    ofString s = ofChars ((Charset.detect (toUtf8 s.toList)).decode (toUtf8 s.toList)) := by
  rw [isIndented, Bool.and_eq_true] at h
  obtain ⟨hhead, hdeclared⟩ := h
  cases hs : s.toList with
  | nil => simp [hs] at hhead
  | cons c cs =>
    have hblank : isBlank c := by simpa [hs] using hhead
    rw [← decodePage_of_isBlank hblank, ← hs]
    unfold ofString
    dsimp only
    split
    · next hnil =>
      rw [hnil] at hdeclared
      cases hdeclared
    · rw [if_pos hdeclared]

/-- **A text behind an XML declaration is read as it is, whatever it says of its encoding and
whatever characters it has.  Without the declaration it has the same root, with two exceptions.**  A
byte order mark at the front of the text is dropped without the declaration alone.  And if blanks
and another declaration stand at its front already, the text is read in the encoding that is found
in its bytes, which is sure to be the right one only if it is UTF-8 or all characters are ASCII. -/
theorem root?_ofString_declaration (s : String) :
    (ofString (declaration ++ s)).root? = (ofChars s.toList).root? ∧
    ((∃ c ∈ s.toList, isBlank c = false) → s.toList.head? ≠ some '\ufeff' → isIndented s = false →
      (ofString (declaration ++ s)).root? = (ofString s).root?) ∧
    (ofString (declaration ++ s)).root? = (ofString ("\ufeff" ++ s)).root? ∧
    (isIndented s →
      ofString s = ofChars ((Charset.detect (toUtf8 s.toList)).decode (toUtf8 s.toList)) ∧
      ((∀ c ∈ s.toList, c.toNat < 128) ∨ Charset.detect (toUtf8 s.toList) = .utf8 →
        (ofString (declaration ++ s)).root? = (ofString s).root?)) := by
  have hroot : (ofString (declaration ++ s)).root? = (ofChars s.toList).root? := by
    rw [ofString_declaration, root?_ofChars_declaration]
  refine ⟨hroot, fun hblank hmark hindented => ?_, ?_,
    fun hindented => ⟨ofString_of_isIndented hindented, ?_⟩⟩
  · rw [hroot, ofString_eq_ofChars hblank hmark hindented]
  · rw [hroot, ofString_mark]
  · intro hcharset
    rw [hroot, ofString_of_isIndented hindented]
    rcases hcharset with hascii | hutf8
    · rw [decode_toUtf8_of_ascii hascii]
    · rw [hutf8, decode_utf8_toUtf8]

/-- The root of a page with one paragraph. -/
def paragraphRoot (s : String) : Node :=
  .element ⟨.plain "html", [], []⟩ [.element ⟨.plain "body", [], []⟩
    [.element ⟨.plain "p", [], []⟩ [.text s false]]]

/-- A page that says it is in another encoding is the same behind a declaration.  One with a line
feed before a declaration is not: behind another declaration its letter is read as it is, and alone
as two letters. -/
theorem root?_ofString_declaration_accent :
    (ofString (declaration ++ "<meta charset=\"koi8-r\"><p>é</p>")).root? =
      (ofString "<meta charset=\"koi8-r\"><p>é</p>").root? ∧
    isIndented "\n<?xml version=\"1.0\"?><p>é</p>" ∧
    (ofString (declaration ++ "\n<?xml version=\"1.0\"?><p>é</p>")).root? =
      some (paragraphRoot "é") ∧
    (ofString "\n<?xml version=\"1.0\"?><p>é</p>").root? = some (paragraphRoot "Ã©") ∧
    (ofString (declaration ++ "\n<?xml version=\"1.0\"?><p>e</p>")).root? =
      (ofString "\n<?xml version=\"1.0\"?><p>e</p>").root? := by
  obtain ⟨-, hsame, -, -⟩ := root?_ofString_declaration "<meta charset=\"koi8-r\"><p>é</p>"
  obtain ⟨hbehind, -, -, -⟩ := root?_ofString_declaration "\n<?xml version=\"1.0\"?><p>é</p>"
  obtain ⟨-, -, -, hindented⟩ := root?_ofString_declaration "\n<?xml version=\"1.0\"?><p>e</p>"
  refine ⟨hsame ⟨'<', by decide, rfl⟩ (by decide) rfl, rfl, hbehind.trans rfl, rfl, ?_⟩
  exact (hindented rfl).2 (.inl (by simp))

end PagePlan.Html
