/-
# Pages up to the way their text is cut

Where an element was taken out, the texts around it close up, and where a page was read, one run of
text may have come in several pieces.  What a reader of a page sees are whole runs: the text before
the first child of an element and the text after each child, which may be empty.  Two pages are the
same in that sense if they agree once adjacent texts are joined and empty ones are left out; whether
a text was verbatim is forgotten with the pieces.
-/
import PagePlan.Dom.Basic

namespace PagePlan.Dom

namespace Node

/-- Nodes with a text in front, which runs on into a text that is first among them. -/
def consText (s : String) (ns : List Node) : List Node :=
  if s = "" then ns
  else
    match ns with
    | text t _ :: rest => text (s ++ t) false :: rest
    | _ => text s false :: ns

/-- Joined nodes with one more in front. -/
def consJoined : Node → List Node → List Node
  | text s _, ns => consText s ns
  | n, ns => n :: ns

@[simp] theorem consJoined_text (s : String) (verbatim : Bool) (ns : List Node) :
    consJoined (text s verbatim) ns = consText s ns := rfl

@[simp] theorem consJoined_element (t : Tag) (cs ns : List Node) :
    consJoined (element t cs) ns = element t cs :: ns := rfl

@[simp] theorem consJoined_comment (s : String) (ns : List Node) :
    consJoined (comment s) ns = comment s :: ns := rfl

@[simp] theorem consJoined_instruction (target s : String) (ns : List Node) :
    consJoined (instruction target s) ns = instruction target s :: ns := rfl

mutual

/-- A node in which each run of text is one text. -/
def joined : Node → Node
  | element t cs => element t (joinedAll cs)
  | n => n

/-- Nodes among and in which each run of text is one text. -/
def joinedAll : List Node → List Node
  | [] => []
  | n :: ns => consJoined (joined n) (joinedAll ns)

end

@[simp] theorem consText_empty (ns : List Node) : consText "" ns = ns := by simp [consText]

/-- A text in front either runs on into a text that is first, or stands by itself. -/
theorem consText_cases {s : String} (hs : s ≠ "") (ns : List Node) :
    (∃ t verbatim rest, ns = text t verbatim :: rest ∧
      consText s ns = text (s ++ t) false :: rest) ∨ consText s ns = text s false :: ns := by
  rcases ns with _ | ⟨_ | ⟨t, verbatim⟩ | _ | _, rest⟩
  · exact .inr (by simp [consText, hs])
  · exact .inr (by simp [consText, hs])
  · exact .inl ⟨t, verbatim, rest, rfl, by simp [consText, hs]⟩
  · exact .inr (by simp [consText, hs])
  · exact .inr (by simp [consText, hs])

/-- Two texts in front of nodes are as good as one. -/
theorem consText_consText (s t : String) (ns : List Node) :
    consText s (consText t ns) = consText (s ++ t) ns := by
  by_cases hs : s = ""
  · simp [hs]
  by_cases ht : t = ""
  · simp [ht]
  have hst : s ++ t ≠ "" := by simp [hs]
  -- The texts run on into `ns` only if it begins with a text.
  rcases ns with _ | ⟨_ | _ | _ | _, rest⟩ <;>
    simp [consText, hs, ht, String.append_assoc]

@[simp] theorem joinedAll_nil : joinedAll [] = [] := rfl

@[simp] theorem joinedAll_cons (n : Node) (ns : List Node) :
    joinedAll (n :: ns) = consJoined n.joined (joinedAll ns) := rfl

@[simp] theorem joined_element (t : Tag) (cs : List Node) :
    (element t cs).joined = element t (joinedAll cs) := rfl

@[simp] theorem joined_text (s : String) (verbatim : Bool) :
    (text s verbatim).joined = text s verbatim := rfl

@[simp] theorem joined_comment (s : String) : (comment s).joined = comment s := rfl

@[simp] theorem joined_instruction (target s : String) :
    (instruction target s).joined = instruction target s := rfl

/-- Where a text in front is passed on, it does not matter that it runs on into the next. -/
theorem joinedAll_consText {f : List Node → List Node}
    (hf : ∀ s verbatim ns, f (text s verbatim :: ns) = text s verbatim :: f ns) (s : String)
    (ns : List Node) : joinedAll (f (consText s ns)) = consText s (joinedAll (f ns)) := by
  by_cases hs : s = ""
  · simp [hs]
  rcases consText_cases hs ns with ⟨t, verbatim, rest, rfl, h⟩ | h
  · rw [h, hf, hf, joinedAll_cons, joinedAll_cons]
    exact (consText_consText s t _).symm
  · rw [h, hf, joinedAll_cons]
    rfl

/-- What stands behind nodes can be exchanged for what is the same once texts are joined. -/
theorem joinedAll_append_congr (front : List Node) {ns ms : List Node}
    (h : joinedAll ns = joinedAll ms) : joinedAll (front ++ ns) = joinedAll (front ++ ms) := by
  induction front with
  | nil => exact h
  | cons n front ih => simp [ih]

theorem elementCounts_consText (s : String) (ns : List Node) :
    elementCounts (consText s ns) = elementCounts ns := by
  unfold consText
  split
  · rfl
  · split <;> simp [elementCounts, elementCount]

theorem elementCounts_consJoined (n : Node) (ns : List Node) :
    elementCounts (consJoined n ns) = n.elementCount + elementCounts ns := by
  cases n with
  | text s _ => simp [elementCounts_consText, elementCount]
  | element _ _ => simp [elementCounts]
  | comment _ => simp [elementCounts]
  | instruction _ _ => simp [elementCounts]

mutual

theorem elementCount_joined : ∀ n : Node, n.joined.elementCount = n.elementCount
  | element t cs => by simp [elementCount, elementCounts_joinedAll cs]
  | text _ _ => by simp
  | comment _ => by simp
  | instruction _ _ => by simp

/-- No element is gained or lost where texts are joined. -/
theorem elementCounts_joinedAll : ∀ ns : List Node, elementCounts (joinedAll ns) = elementCounts ns
  | [] => by simp
  | n :: ns => by
    simp [elementCounts, elementCounts_consJoined, elementCount_joined n,
      elementCounts_joinedAll ns]

end

end Node

/-- A page in which each run of text is one text. -/
def Page.joined (p : Page) : Page := { p with nodes := Node.joinedAll p.nodes }

end PagePlan.Dom
