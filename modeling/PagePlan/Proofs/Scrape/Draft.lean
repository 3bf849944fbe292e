/-
# Calls and drafted plans

A call comes to something only through the response that was made last, if that is a success and its
body is accepted (`ChatModel.call_eq_ok`, `ChatModel.conclude_eq_ok`).

A draft is what a provider has answered: the content of its answer if that is a mapping, or else the
value that the content holds as a text.  Both were read from JSON text, so that a draft can be
written to a file and read back.

* `draft_isJson` — what is drafted is a value that JSON text can hold.
-/
import PagePlan.Proofs.Json.Data
import PagePlan.Scrape

namespace PagePlan

open Json (IsJson isJson_ofLetters isJson_of_readLetters)

/-- What stands in a mapping is a value that JSON text can hold, if the mapping is one. -/
theorem Json.IsJson.get? {es : Entries} (h : IsJson (.dict es)) {key : String} {v : Value}
    (hv : es.get? key = some v) : IsJson v := by
  cases h with
  | dict _ _ hvalues => exact hvalues _ (Entries.mem_of_get? hv)

theorem Json.IsJson.getD {es : Entries} (h : IsJson (.dict es)) (key : String) :
    IsJson ((es.get? key).getD .null) := by
  cases hv : es.get? key with
  | none => exact .null
  | some v => exact h.get? hv

namespace Completion

theorem firstChoice?_isJson {choices choice : Value} (h : IsJson choices)
    (hfirst : firstChoice? choices = .ok (some choice)) : IsJson choice := by
  unfold firstChoice? at hfirst
  split at hfirst
  · simp at hfirst
  · split at hfirst
    · simp only [Except.ok.injEq, Option.some.injEq] at hfirst
      subst hfirst
      cases h with
      | list hitems => exact hitems _ List.mem_cons_self
    · simp only [Except.ok.injEq, Option.some.injEq] at hfirst
      subst hfirst
      exact .str _
    · simp only [Except.ok.injEq, Option.some.injEq] at hfirst
      subst hfirst
      exact isJson_ofLetters _
    · simp at hfirst
    · simp at hfirst

theorem contentOf_isJson {choice content : Value} (h : IsJson choice)
    (hcontent : contentOf choice = .ok content) : IsJson content := by
  unfold contentOf at hcontent
  split at hcontent
  · next fields =>
    split at hcontent
    · next message hmessage =>
      simp only [Except.ok.injEq] at hcontent
      subst hcontent
      split
      · exact (h.get? hmessage).getD "content"
      · exact .str ""
    · simp at hcontent
  · simp at hcontent

theorem ofValue?_isJson {v : Value} {c : Completion} (h : IsJson v)
    (hc : ofValue? v = .ok (some c)) : IsJson c.content := by
  unfold ofValue? at hc
  split at hc
  · next es =>
    obtain ⟨first, hfirst, hc⟩ := except_bind_eq_ok.1 hc
    cases first with
    | none => simp [pure, Except.pure] at hc
    | some choice =>
      obtain ⟨content, hcontent, hc⟩ := except_bind_eq_ok.1 hc
      obtain ⟨usage, -, hc⟩ := except_bind_eq_ok.1 hc
      simp only [pure, Except.pure, Except.ok.injEq, Option.some.injEq] at hc
      subst hc
      exact contentOf_isJson (firstChoice?_isJson (h.getD "choices") hfirst) hcontent
  · simp at hc

/-- The content of an answer was read from JSON text. -/
theorem ofBody?_isJson {body : String} {c : Completion} (hc : ofBody? body = .ok (some c)) :
    IsJson c.content := by
  unfold ofBody? at hc
  split at hc
  · next v hread => exact ofValue?_isJson (isJson_of_readLetters hread) hc
  · simp at hc

end Completion

theorem Reply.parse_isJson {content v : Value} (h : IsJson content)
    (hv : Reply.parse content = .ok v) : IsJson v := by
  unfold Reply.parse at hv
  split at hv
  · simp only [Except.ok.injEq] at hv
    exact hv ▸ h
  · simp only at hv
    split at hv
    · next hread =>
      simp only [Except.ok.injEq] at hv
      exact hv ▸ isJson_of_readLetters hread
    · simp at hv
    · simp at hv

namespace ChatModel

theorem unusable_ne_ok {α : Type} {m : ChatModel} {cause : Failure} {a : α} :
    (m.unusable cause : Run α).outcome ≠ .ok a := by
  intro h
  obtain ⟨-, -, h⟩ := Run.outcome_bind_eq_ok.1 h
  cases h

/-- A response comes to a completion only if it is a success that is accepted. -/
theorem conclude_eq_ok {m : ChatModel} {record : Option Record} {last : Response} {c : Completion}
    (h : (m.conclude record last).outcome = .ok c) :
    ∃ status headers body, last = .received status headers body ∧
      Response.isSuccess status = true ∧ accept body record = .ok (some c) := by
  unfold conclude at h
  split at h
  · cases h
  · cases h
  · next status headers body =>
    split at h
    · next hsuccess =>
      split at h
      · next c' haccept =>
        obtain rfl := Except.ok.inj h
        exact ⟨status, headers, body, rfl, hsuccess, haccept⟩
      · cases h
      · exact absurd h unusable_ne_ok
    · split at h <;> cases h

/-- A call comes to a completion only through the response that was made last. -/
theorem call_eq_ok {m : ChatModel} {env : Environment} {messages : List Message}
    {record : Option Record} {p p' : Provider} {c : Completion}
    (h : (m.call env messages record p).outcome = .ok (c, p')) :
    ∃ q retries last, (p.send q retries).outcome = .ok (last, p') ∧
      (m.conclude record last).outcome = .ok c := by
  obtain ⟨schema, -, h⟩ := Run.outcome_bind_eq_ok.1 h
  split at h
  · cases h
  · simp only at h
    split at h
    · exact absurd h unusable_ne_ok
    · split at h
      · exact absurd h unusable_ne_ok
      · split at h
        · exact absurd h unusable_ne_ok
        · obtain ⟨⟨last, p''⟩, hsend, h⟩ := Run.outcome_bind_eq_ok.1 h
          obtain ⟨c', hc, h⟩ := Run.outcome_bind_eq_ok.1 h
          obtain ⟨rfl, rfl⟩ := Prod.mk.inj (Except.ok.inj h)
          exact ⟨_, _, last, hsend, hc⟩

/-- A call to a provider that has one response, a success that is accepted, comes to what is
accepted. -/
theorem call_outcome {m : ChatModel} {env : Environment} {messages : List Message}
    {record : Option Record} {schema : Option Value} {key body : String} {status : Nat}
    {headers : List (String × String)} {c : Completion}
    (hschema : record.mapM Record.strictSchema = .ok schema) (hkey : m.key? env = some key)
    (hfinite : (m.body messages schema).allFinite = true)
    (hpaired : (m.body messages schema).isPaired = true)
    (hretries : 0 ≤ m.maxRetries.getD defaultRetries) (hsuccess : Response.isSuccess status = true)
    (haccept : accept body record = .ok (some c)) :
    (m.call env messages record ⟨[.received status headers body]⟩).outcome =
      .ok (c, ⟨[.received status headers body]⟩) := by
  have htransient : (Response.received status headers body).isTransient = false := by
    rw [Response.isTransient, if_pos hsuccess]
  have hsend (q : Request) (retries : Nat) :
      (Provider.send ⟨[.received status headers body]⟩ q retries).outcome =
        .ok (.received status headers body, ⟨[.received status headers body]⟩) := by
    cases retries with
    | zero => rfl
    | succ retries =>
      refine Run.outcome_bind_eq_ok.2 ⟨(), rfl, ?_⟩
      rw [Provider.next, htransient]
      rfl
  have hconclude : (m.conclude record (.received status headers body)).outcome = .ok c := by
    simp only [conclude, hsuccess, haccept, if_true]
    rfl
  refine Run.outcome_bind_eq_ok.2 ⟨schema, by rw [Run.ofExcept_outcome, hschema], ?_⟩
  simp only [hkey, request, hfinite, hpaired]
  rw [if_neg (by simp), if_neg (by simp), if_neg (by omega)]
  exact Run.outcome_bind_eq_ok.2
    ⟨_, hsend _ _, Run.outcome_bind_eq_ok.2 ⟨c, hconclude, rfl⟩⟩

theorem call_isJson {m : ChatModel} {env : Environment} {messages : List Message} {p p' : Provider}
    {c : Completion} (h : (m.call env messages none p).outcome = .ok (c, p')) :
    IsJson c.content := by
  obtain ⟨-, -, last, -, hlast⟩ := call_eq_ok h
  obtain ⟨-, -, body, -, -, haccept⟩ := conclude_eq_ok hlast
  apply Completion.ofBody?_isJson
  simpa [accept] using haccept

end ChatModel

theorem Assistant.ask_of_call {a : Assistant} {messages : List Message} {record : Option Record}
    {c : Completion} {p' : Provider}
    (h : (a.model.call a.environment messages record a.provider).outcome = .ok (c, p')) :
    (a.ask messages record).outcome = .ok c := by
  rw [ask, map_eq_pure_bind, Run.outcome_bind_of_ok _ h, Run.pure_outcome]

theorem Assistant.call_of_ask {a : Assistant} {messages : List Message} {record : Option Record}
    {c : Completion} (h : (a.ask messages record).outcome = .ok c) :
    ∃ p', (a.model.call a.environment messages record a.provider).outcome = .ok (c, p') := by
  rw [ask, map_eq_pure_bind] at h
  obtain ⟨⟨c', p'⟩, hcall, h⟩ := Run.outcome_bind_eq_ok.1 h
  obtain rfl := Except.ok.inj h
  exact ⟨p', hcall⟩

/-- **What is drafted is a value that JSON text can hold.** -/
theorem Assistant.draft_isJson {a : Assistant} {source : PageSource} {r : Requirements}
    {limit : Option Int} {plan : Value} (h : (a.draft source r limit).outcome = .ok plan) :
    IsJson plan := by
  obtain ⟨properties, -, h⟩ := Run.outcome_bind_eq_ok.1 h
  obtain ⟨page, -, h⟩ := Run.outcome_bind_eq_ok.1 h
  obtain ⟨instructions, -, h⟩ := Run.outcome_bind_eq_ok.1 h
  obtain ⟨names, -, h⟩ := Run.outcome_bind_eq_ok.1 h
  obtain ⟨-, -, h⟩ := Run.outcome_bind_eq_ok.1 h
  obtain ⟨answer, hanswer, h⟩ := Run.outcome_bind_eq_ok.1 h
  obtain ⟨reply, hreply, h⟩ := Run.outcome_bind_eq_ok.1 h
  -- the content was read from the body of the answer, and the reply from the content
  have hcontent : IsJson answer.content := by
    obtain ⟨p, hcall⟩ := call_of_ask hanswer
    exact ChatModel.call_isJson hcall
  rw [Run.ofExcept_outcome] at hreply
  have hjson := Reply.parse_isJson hcontent hreply
  split at h
  · next es =>
    obtain ⟨-, -, h⟩ := Run.outcome_bind_eq_ok.1 h
    obtain ⟨missing, -, h⟩ := Run.outcome_bind_eq_ok.1 h
    have hplan : plan = .dict es := by
      split at h
      · simpa using h.symm
      · obtain ⟨-, -, h⟩ := Run.outcome_bind_eq_ok.1 h
        simpa using h.symm
    exact hplan ▸ hjson
  · simp [Run.fail] at h

end PagePlan
