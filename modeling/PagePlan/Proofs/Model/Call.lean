/-
# What a call comes to

A request is sent again as long as its failure may pass, so that a call takes responses of the
provider in order up to one that it keeps, and is decided by this one.  What a response comes to is
said in a table with a row for each kind of response, and each row has its own status.

* `Provider.send_takes` — which responses are taken, and which of them is the result.
* `conclude_settles` — what the response that was kept comes to.
* `call_settled` — a call is a completion or a failure of the provider, by the last response.
-/
import PagePlan.Model.Chat

namespace PagePlan

/-! ### Requests of a run in two parts -/

namespace Run

variable {α β : Type}

theorem requests_bind_of_ok {r : Run α} {a : α} (f : α → Run β) (h : r.outcome = .ok a) :
    (r >>= f).requests = r.requests ++ (f a).requests := by
  rw [requests, events_bind_of_ok f h, List.filterMap_append]
  rfl

theorem requests_bind_of_error {r : Run α} {e : Failure} (f : α → Run β)
    (h : r.outcome = .error e) : (r >>= f).requests = r.requests := by
  rw [requests, events_bind_of_error f h]
  rfl

end Run

/-! ### Responses in order -/

namespace Provider

/-- The response to the request of a number: the last one is repeated. -/
def responseAt (p : Provider) (k : Nat) : Response :=
  (p.responses[k]? <|> p.responses.getLast?).getD .unreachable

theorem responseAt_zero (p : Provider) : p.responseAt 0 = p.next.1 := by
  obtain ⟨responses⟩ := p
  rcases responses with - | ⟨first, - | ⟨second, rest⟩⟩ <;> rfl

theorem responseAt_succ (p : Provider) (k : Nat) :
    p.responseAt (k + 1) = p.next.2.responseAt k := by
  obtain ⟨responses⟩ := p
  rcases responses with - | ⟨first, - | ⟨second, rest⟩⟩
  · rfl
  · cases k <;> rfl
  · simp [responseAt, next]

/-- A run has sent a request so often that it has the response of some number as its last: all
before may pass, and it may not, or the request was not to be sent again. -/
structure Takes {α : Type} (p : Provider) (q : Request) (retries k : Nat) (r : Run α) : Prop where
  requests : r.requests = List.replicate (k + 1) q
  le : k ≤ retries
  transient : ∀ i < k, (p.responseAt i).isTransient = true
  final : k = retries ∨ (p.responseAt k).isTransient = false

variable {p : Provider} {q : Request} {retries : Nat}

/-- One attempt more: the request, and the attempts at the provider as it is then. -/
theorem takes_succ {α : Type} {k : Nat} {f : Unit → Run α} (h : p.next.1.isTransient = true)
    (hf : p.next.2.Takes q retries k (f ())) :
    p.Takes q (retries + 1) (k + 1) (Run.emit (.request q) >>= f) := by
  refine ⟨?_, Nat.succ_le_succ hf.le, ?_, ?_⟩
  · rw [Run.requests_bind_of_ok f rfl, hf.requests]
    rfl
  · intro i hi
    cases i with
    | zero => rwa [responseAt_zero]
    | succ i =>
      rw [responseAt_succ]
      exact hf.transient i (Nat.lt_of_succ_lt_succ hi)
  · rw [responseAt_succ]
    exact hf.final.imp (congrArg Nat.succ) id

/-- **Which responses are taken.**  The result is the one that was taken last. -/
theorem send_takes (p : Provider) (q : Request) (retries : Nat) :
    ∃ k p', (p.send q retries).outcome = .ok (p.responseAt k, p') ∧
      p.Takes q retries k (p.send q retries) := by
  induction retries generalizing p with
  | zero =>
    refine ⟨0, p.next.2, ?_, rfl, Nat.le_refl 0, by simp, Or.inl rfl⟩
    rw [responseAt_zero]
    rfl
  | succ retries ih =>
    rw [send]
    cases htransient : p.next.1.isTransient with
    | false =>
      refine ⟨0, p.next.2, ?_, rfl, Nat.zero_le _, by simp, Or.inr ?_⟩
      · rw [responseAt_zero]
        rfl
      · rwa [responseAt_zero]
    | true =>
      obtain ⟨k, p', houtcome, htakes⟩ := ih p.next.2
      refine ⟨k + 1, p', ?_, takes_succ htransient htakes⟩
      rw [responseAt_succ, ← houtcome]
      rfl

end Provider

/-! ### What a response comes to -/

/-- How a failure of a provider is reported: with a status, and as one of too many requests or
not. -/
structure Report where
  status : Int
  rateLimited : Bool

/-- The report on a failure of the provider; another failure has none. -/
def Failure.report? : Failure → Option Report
  | provider status _ _ => some ⟨status, false⟩
  | rateLimited _ _ => some ⟨429, true⟩
  | unusableAnswer _ _ => some ⟨502, false⟩
  | _ => none

/-- Whether a response refuses because of too many requests. -/
def Response.refusesMore : Response → Bool
  | received status _ _ => status = 429
  | _ => false

/-- A success has another status. -/
theorem Response.refusesMore_of_isSuccess {status : Nat} (h : isSuccess status = true)
    (headers : List (String × String)) (body : String) :
    (received status headers body).refusesMore = false := by
  refine decide_eq_false ?_
  rintro rfl
  cases h

namespace ChatModel

/-- What the response that was made last makes of a call. -/
inductive Settles (record : Option Record) : Response → Except Failure Completion → Prop
  | unreachable {e : Failure} (hreport : e.report? = some ⟨502, false⟩) :
    Settles record .unreachable (.error e)
  | timedOut {e : Failure} (hreport : e.report? = some ⟨504, false⟩) :
    Settles record .timedOut (.error e)
  | limited {headers body} {e : Failure} (hreport : e.report? = some ⟨429, true⟩) :
    Settles record (.received 429 headers body) (.error e)
  | refused {status headers body} {e : Failure} (hsuccess : Response.isSuccess status = false)
      (hlimit : status ≠ 429) (hreport : e.report? = some ⟨status, false⟩) :
    Settles record (.received status headers body) (.error e)
  /-- The body is no JSON text of an answer, or it is one without choices. -/
  | unanswered {status headers body} {e : Failure} (hsuccess : Response.isSuccess status = true)
      (hbody : ∀ c, Completion.ofBody? body ≠ .ok (some c))
      (hreport : e.report? = some ⟨502, false⟩) :
    Settles record (.received status headers body) (.error e)
  | text {status headers body c} (hsuccess : Response.isSuccess status = true)
      (hbody : Completion.ofBody? body = .ok (some c)) (hrecord : record = none) :
    Settles record (.received status headers body) (.ok c)
  /-- Data were asked for, and the content is no JSON. -/
  | notJson {status headers body c r problem} {e : Failure}
      (hsuccess : Response.isSuccess status = true)
      (hbody : Completion.ofBody? body = .ok (some c)) (hrecord : record = some r)
      (hparse : Reply.parse c.content = .error problem)
      (hreport : e.report? = some ⟨502, false⟩) :
    Settles record (.received status headers body) (.error e)
  /-- Data were asked for, and the content is JSON that does not pass the check. -/
  | invalid {status headers body c r v faults} {e : Failure}
      (hsuccess : Response.isSuccess status = true)
      (hbody : Completion.ofBody? body = .ok (some c)) (hrecord : record = some r)
      (hparse : Reply.parse c.content = .ok v) (hvalid : r.validate v = .error faults)
      (hreport : e.report? = some ⟨502, false⟩) :
    Settles record (.received status headers body) (.error e)
  | data {status headers body c r v data} (hsuccess : Response.isSuccess status = true)
      (hbody : Completion.ofBody? body = .ok (some c)) (hrecord : record = some r)
      (hparse : Reply.parse c.content = .ok v) (hvalid : r.validate v = .ok data) :
    Settles record (.received status headers body) (.ok { c with content := data })

section Settles

variable {record : Option Record} {last : Response} {e : Failure}

/-- A call that a response makes fail is a failure of the provider, with the status of too many
requests and as one of them just if the response is one. -/
theorem Settles.report (h : Settles record last (.error e)) :
    ∃ report, e.report? = some report ∧ report.rateLimited = last.refusesMore ∧
      (report.status = 429 ↔ last.refusesMore = true) := by
  cases h with
  | unreachable hreport => exact ⟨_, hreport, rfl, by simp [Response.refusesMore]⟩
  | timedOut hreport => exact ⟨_, hreport, rfl, by simp [Response.refusesMore]⟩
  | limited hreport => exact ⟨_, hreport, rfl, by simp [Response.refusesMore]⟩
  | @refused status _ _ _ _ hlimit hreport =>
    refine ⟨_, hreport, by simp [Response.refusesMore, hlimit], ?_⟩
    simp only [Response.refusesMore, decide_eq_true_eq]
    omega
  | unanswered hsuccess _ hreport
  | notJson hsuccess _ _ _ hreport
  | invalid hsuccess _ _ _ _ hreport =>
    rw [Response.refusesMore_of_isSuccess hsuccess]
    exact ⟨_, hreport, rfl, by simp⟩

/-- A refusal because of too many requests comes to no completion. -/
theorem Settles.not_refusesMore {c : Completion} (h : Settles record last (.ok c)) :
    last.refusesMore = false := by
  cases h with
  | text hsuccess | data hsuccess => exact Response.refusesMore_of_isSuccess hsuccess _ _

end Settles

variable {m : ChatModel}

/-- Where no data are asked for, an answer is accepted as it is. -/
theorem accept_none (body : String) : accept body none = Completion.ofBody? body := by
  unfold accept
  cases Completion.ofBody? body with
  | error e => rfl
  | ok c => cases c <;> rfl

theorem as_of_parse {c : Completion} {v : Value} (r : Record)
    (h : Reply.parse c.content = .ok v) :
    c.as r = ((r.validate v).mapError Failure.invalid).map fun data =>
      { c with content := data } := by
  rw [Completion.as, h]
  change (r.validate v).mapError Failure.invalid >>= _ = _
  cases r.validate v <;> rfl

/-- The outcome of a call with a success, by what its body says and what was asked for. -/
theorem settles_of_isSuccess {status : Nat} (hsuccess : Response.isSuccess status = true)
    (m : ChatModel) (record : Option Record) (headers : List (String × String)) (body : String) :
    Settles record (.received status headers body)
      (m.conclude record (.received status headers body)).outcome := by
  rw [conclude, if_pos hsuccess]
  cases hbody : Completion.ofBody? body with
  | error cause =>
    have haccept : accept body record = .error cause := by simp [accept, hbody]
    rw [haccept]
    exact .unanswered hsuccess (by simp [hbody]) rfl
  | ok answer =>
    cases answer with
    | none =>
      have haccept : accept body record = .ok none := by simp [accept, hbody]
      rw [haccept]
      exact .unanswered hsuccess (by simp [hbody]) rfl
    | some c =>
      cases record with
      | none =>
        rw [accept_none, hbody]
        exact .text hsuccess hbody rfl
      | some r =>
        have haccept : accept body (some r) = (c.as r).map some := by simp [accept, hbody]
        rw [haccept]
        cases hparse : Reply.parse c.content with
        | error problem =>
          rw [Completion.as, hparse]
          exact .notJson hsuccess hbody rfl hparse rfl
        | ok v =>
          rw [as_of_parse r hparse]
          cases hvalid : r.validate v with
          | error faults => exact .invalid hsuccess hbody rfl hparse hvalid rfl
          | ok data => exact .data hsuccess hbody rfl hparse hvalid

/-- **What the last response comes to.** -/
theorem conclude_settles (m : ChatModel) (record : Option Record) (last : Response) :
    Settles record last (m.conclude record last).outcome := by
  cases last with
  | unreachable => exact .unreachable rfl
  | timedOut => exact .timedOut rfl
  | received status headers body =>
    cases hsuccess : Response.isSuccess status with
    | true => exact settles_of_isSuccess hsuccess m record headers body
    | false =>
      rw [conclude, if_neg (by simp [hsuccess])]
      by_cases hlimit : status = 429
      · rw [if_pos hlimit, hlimit]
        exact .limited rfl
      · rw [if_neg hlimit]
        exact .refused hsuccess hlimit rfl

theorem conclude_requests (m : ChatModel) (record : Option Record) (last : Response) :
    (m.conclude record last).requests = [] := by
  unfold conclude
  split
  · rfl
  · rfl
  · split
    · split <;> rfl
    · split <;> rfl

/-! ### Calls -/

/-- A request can be sent with this body: JSON has a form for its numbers, and its texts have no
half of a surrogate pair. -/
def Sendable (body : Value) : Prop :=
  body.allFinite = true ∧ body.isPaired = true

/-- A call fails before anything is sent, with a status other than that of too many requests. -/
def FailsUnsent {α : Type} (status : Int) (r : Run α) : Prop :=
  r.requests = [] ∧ ∃ e, r.outcome = .error e ∧ e.report? = some ⟨status, false⟩

/-- What holds of a call however it goes: it sends the request at most so often, it fails in no
other way than as a failure of the provider, and it is refused because of too many requests just if
the response that was made last says so. -/
structure Decided {α : Type} (p : Provider) (retries : Nat) (r : Run α) : Prop where
  few : r.requests.length ≤ retries + 1
  reported : ∀ e, r.outcome = .error e → ∃ report, e.report? = some report ∧
    (report.rateLimited = true ↔ report.status = 429)
  limited : (∃ e, r.outcome = .error e ∧ e.report? = some ⟨429, true⟩) ↔
    ∃ k, r.requests.length = k + 1 ∧ (p.responseAt k).refusesMore = true

section Decided

variable {α : Type} {p : Provider} {retries : Nat}

theorem FailsUnsent.decided {status : Int} {r : Run α} (h : FailsUnsent status r)
    (hstatus : status ≠ 429) (p : Provider) (retries : Nat) : Decided p retries r := by
  obtain ⟨hrequests, e, houtcome, hreport⟩ := h
  refine ⟨by simp [hrequests], ?_, ?_⟩
  · intro e' he'
    obtain rfl := Except.error.inj (houtcome.symm.trans he')
    exact ⟨_, hreport, by simp [hstatus]⟩
  · constructor
    · rintro ⟨e', he', hlimited⟩
      obtain rfl := Except.error.inj (houtcome.symm.trans he')
      rw [hreport] at hlimited
      cases hlimited
    · rintro ⟨k, hlength, -⟩
      simp [hrequests] at hlength

theorem decided_of_settles {q : Request} {k : Nat} {record : Option Record}
    {r : Run (Completion × Provider)} (htakes : p.Takes q retries k r)
    (hsettles : Settles record (p.responseAt k) (r.outcome.map Prod.fst)) :
    Decided p retries r := by
  have hlength : r.requests.length = k + 1 := by rw [htakes.requests, List.length_replicate]
  -- a response of this kind never comes to a completion
  have hlimit (h : (p.responseAt k).refusesMore = true) : ∃ e, r.outcome = .error e := by
    cases houtcome : r.outcome with
    | error e => exact ⟨e, rfl⟩
    | ok c =>
      rw [houtcome] at hsettles
      exact absurd h (by rw [hsettles.not_refusesMore]; simp)
  have hreport {e : Failure} (h : r.outcome = .error e) := by
    rw [h] at hsettles
    exact hsettles.report
  refine ⟨by rw [hlength]; exact Nat.succ_le_succ htakes.le, ?_, ?_⟩
  · intro e he
    obtain ⟨report, hreport, hlimited, hstatus⟩ := hreport he
    exact ⟨report, hreport, by rw [hlimited, hstatus]⟩
  · constructor
    · rintro ⟨e, he, hlimited⟩
      obtain ⟨report, hreport, -, hstatus⟩ := hreport he
      obtain rfl := Option.some.inj (hreport.symm.trans hlimited)
      exact ⟨k, hlength, hstatus.1 rfl⟩
    · rintro ⟨k', hlength', hrefuses⟩
      obtain rfl : k' = k := by omega
      obtain ⟨e, he⟩ := hlimit hrefuses
      obtain ⟨⟨status, rateLimited⟩, hreport, hlimited, hstatus⟩ := hreport he
      obtain rfl : rateLimited = true := hlimited.trans hrefuses
      obtain rfl : status = 429 := hstatus.2 hrefuses
      exact ⟨e, he, hreport⟩

end Decided

section Call

variable {record : Option Record} {schema : Option Value}

/-- All that a call can do once the schema is built. -/
theorem call_cases (env : Environment) (messages : List Message) (p : Provider)
    (hschema : record.mapM Record.strictSchema = .ok schema)
    (hretries : 0 ≤ m.maxRetries.getD defaultRetries) :
    (m.key? env = none ∧ m.call env messages record p = Run.fail m.missingKey) ∨
    (∃ key cause, m.key? env = some key ∧ ¬Sendable (m.body messages schema) ∧
      m.call env messages record p = m.unusable cause) ∨
    ∃ key, m.key? env = some key ∧ Sendable (m.body messages schema) ∧
      m.call env messages record p =
        (p.send (m.request key messages schema) (m.maxRetries.getD defaultRetries).toNat >>=
          fun last => m.conclude record last.1 >>= fun c => pure (c, last.2)) := by
  have hbuilt : Run.ofExcept (record.mapM Record.strictSchema) = pure schema := by
    rw [hschema]
    rfl
  rw [call, hbuilt, Run.pure_bind']
  cases hkey : m.key? env with
  | none => exact Or.inl ⟨rfl, rfl⟩
  | some key =>
    right
    have hbody : (m.request key messages schema).body = m.body messages schema := rfl
    simp only [hbody]
    by_cases hfinite : (m.body messages schema).allFinite = true
    · by_cases hpaired : (m.body messages schema).isPaired = true
      · refine Or.inr ⟨key, rfl, ⟨hfinite, hpaired⟩, ?_⟩
        rw [if_neg (by simp [hfinite]), if_neg (by simp [hpaired]), if_neg (Int.not_lt.2 hretries)]
      · refine Or.inl ⟨key, .unspellable, rfl, fun h => hpaired h.2, ?_⟩
        rw [if_neg (by simp [hfinite]), if_pos (by simp [hpaired])]
    · refine Or.inl ⟨key, .notFinite, rfl, fun h => hfinite h.1, ?_⟩
      rw [if_pos (by simp [hfinite])]

/-- A call that is sent takes responses up to one, and comes to what this one comes to. -/
theorem settles_of_send (m : ChatModel) (record : Option Record) (p : Provider) (q : Request)
    (retries : Nat) :
    let r := p.send q retries >>= fun last =>
      m.conclude record last.1 >>= fun c => pure (c, last.2)
    ∃ k, p.Takes q retries k r ∧ Settles record (p.responseAt k) (r.outcome.map Prod.fst) := by
  obtain ⟨k, p', hsend, htakes⟩ := p.send_takes q retries
  have hafter : (m.conclude record (p.responseAt k) >>= fun c => pure (c, p')).requests = [] := by
    cases hconclude : (m.conclude record (p.responseAt k)).outcome with
    | error e => rw [Run.requests_bind_of_error _ hconclude, conclude_requests]
    | ok c =>
      rw [Run.requests_bind_of_ok _ hconclude, conclude_requests]
      rfl
  refine ⟨k, ⟨?_, htakes.le, htakes.transient, htakes.final⟩, ?_⟩
  · rw [Run.requests_bind_of_ok _ hsend, hafter, List.append_nil, htakes.requests]
  · have hsettles := conclude_settles m record (p.responseAt k)
    rw [Run.outcome_bind_of_ok _ hsend]
    cases hconclude : (m.conclude record (p.responseAt k)).outcome with
    | error e =>
      rw [Run.outcome_bind_of_error _ hconclude]
      rwa [hconclude] at hsettles
    | ok c =>
      rw [Run.outcome_bind_of_ok _ hconclude]
      rwa [hconclude] at hsettles

/-- **A call is decided by the response that was made last.**  Without a key, or with a request
that cannot be written, nothing is sent.  Otherwise the request is sent once, and again as often as
is allowed while the failure may pass; what the call comes to is what the response says that was
made last. -/
theorem call_settled (env : Environment) (messages : List Message) (p : Provider)
    (hschema : record.mapM Record.strictSchema = .ok schema)
    (hretries : 0 ≤ m.maxRetries.getD defaultRetries) :
    let r := m.call env messages record p
    let retries := (m.maxRetries.getD defaultRetries).toNat
    Decided p retries r ∧ (m.key? env = none → FailsUnsent 401 r) ∧
    ∀ key, m.key? env = some key →
      (¬Sendable (m.body messages schema) → FailsUnsent 502 r) ∧
      (Sendable (m.body messages schema) → ∃ k,
        p.Takes (m.request key messages schema) retries k r ∧
          Settles record (p.responseAt k) (r.outcome.map Prod.fst)) := by
  intro r retries
  rcases call_cases env messages p hschema hretries with
    ⟨hkey, hcall⟩ | ⟨key, cause, hkey, hunsendable, hcall⟩ | ⟨key, hkey, hsendable, hcall⟩
  · have hfails : FailsUnsent 401 r := by
      simp only [r, hcall]
      exact ⟨rfl, _, rfl, rfl⟩
    exact ⟨hfails.decided (by decide) p retries, fun _ => hfails, by simp [hkey]⟩
  · have hfails : FailsUnsent 502 r := by
      simp only [r, hcall]
      exact ⟨rfl, _, rfl, rfl⟩
    refine ⟨hfails.decided (by decide) p retries, by simp [hkey], fun key' _ => ?_⟩
    exact ⟨fun _ => hfails, fun hsendable => absurd hsendable hunsendable⟩
  · obtain ⟨k, htakes, hsettles⟩ :=
      settles_of_send m record p (m.request key messages schema) retries
    rw [← hcall] at htakes hsettles
    refine ⟨decided_of_settles htakes hsettles, by simp [hkey], fun key' hkey' => ?_⟩
    obtain rfl : key = key' := Option.some.inj (hkey.symm.trans hkey')
    exact ⟨fun hunsendable => absurd hsendable hunsendable, fun _ => ⟨k, htakes, hsettles⟩⟩

/-- A model that sends a request once more. -/
def hesitant : ChatModel :=
  { initial with apiKey := some "key", maxRetries := some 1 }

/-- A provider that fails, then refuses because of too many requests, and answers only then. -/
def overloaded : Provider :=
  ⟨[.received 503 [] "", .received 429 [] "", .ofText "\x7b\x7d"]⟩

/-- A record with a title. -/
def titled : Record :=
  ⟨"Titled", true, [("title", .string, ⟨true, .null, none⟩)]⟩

/-- The refusal is what the call comes to, as it was made last. -/
theorem call_settled_overloaded :
    ∃ schema, (some titled).mapM Record.strictSchema = .ok schema ∧
      0 ≤ hesitant.maxRetries.getD defaultRetries ∧
      (hesitant.call ⟨[]⟩ [] (some titled) overloaded).requests =
        List.replicate 2 (hesitant.request "key" [] schema) ∧
      ∃ e, (hesitant.call ⟨[]⟩ [] (some titled) overloaded).outcome = .error e ∧
        e.report? = some ⟨429, true⟩ := by
  obtain ⟨schema, hschema, hsendable⟩ : ∃ schema,
      (some titled).mapM Record.strictSchema = .ok schema ∧
        Sendable (hesitant.body [] schema) := ⟨some _, rfl, rfl, rfl⟩
  have hretries : 0 ≤ hesitant.maxRetries.getD defaultRetries := by decide
  have hkey : hesitant.key? ⟨[]⟩ = some "key" := by simp [hesitant, key?]
  obtain ⟨hdecided, -, hsent⟩ := call_settled ⟨[]⟩ [] overloaded hschema hretries
  obtain ⟨k, htakes, -⟩ := (hsent "key" hkey).2 hsendable
  -- the first failure may pass, and the request may be sent once more
  obtain rfl : k = 1 := by
    have hle := htakes.le
    have hfinal := htakes.final
    have hfirst : (overloaded.responseAt 0).isTransient = true := by decide
    cases k with
    | zero => simp_all [hesitant]
    | succ k =>
      have : (hesitant.maxRetries.getD defaultRetries).toNat = 1 := rfl
      omega
  refine ⟨schema, hschema, hretries, htakes.requests, hdecided.limited.2 ⟨1, ?_, rfl⟩⟩
  rw [htakes.requests, List.length_replicate]

end Call

end ChatModel

end PagePlan
