/-
# Chat models

A chat model is reached by a request that carries messages; sampling parameters go along as they
are given, and a record goes along as a strict schema.  Every way in which a call can fail is a
failure of the provider under the name of the model, except that a schema which cannot be built
fails before anything is sent.
-/
import PagePlan.Decimal.Binary64
import PagePlan.Environment
import PagePlan.Model.Completion
import PagePlan.Model.Provider

namespace PagePlan

/-- Who says something in a conversation. -/
inductive Role where
  | system
  | user
  | assistant
deriving DecidableEq, Repr

def Role.name : Role → String
  | system => "system"
  | user => "user"
  | assistant => "assistant"

/-- A message of a conversation. -/
structure Message where
  role : Role
  content : String
deriving DecidableEq, Repr

def Message.toValue (m : Message) : Value :=
  .record [("role", .str m.role.name), ("content", .str m.content)]

mutual

/-- Whether all numbers of a value are finite. -/
def Value.allFinite : Value → Bool
  | .float x => x.isFinite
  | .list xs => allFiniteItems xs
  | .tuple xs => allFiniteItems xs
  | .dict es => allFiniteEntries es
  | _ => true

/-- Whether all numbers of some values are finite. -/
def Value.allFiniteItems : List Value → Bool
  | [] => true
  | x :: xs => x.allFinite && allFiniteItems xs

/-- Whether all numbers of a mapping's values are finite. -/
def Value.allFiniteEntries : List (Value × Value) → Bool
  | [] => true
  | (_, v) :: es => v.allFinite && allFiniteEntries es

end

mutual

/-- Whether a value has no text with half of a surrogate pair in it. -/
def Value.isPaired : Value → Bool
  | .unpaired _ => false
  | .list xs => isPairedItems xs
  | .tuple xs => isPairedItems xs
  | .dict es => isPairedEntries es
  | _ => true

/-- Whether some values have no text with half of a surrogate pair in it. -/
def Value.isPairedItems : List Value → Bool
  | [] => true
  | x :: xs => x.isPaired && isPairedItems xs

/-- Whether the keys and values of a mapping have no text with half of a surrogate pair in it. -/
def Value.isPairedEntries : List (Value × Value) → Bool
  | [] => true
  | (k, v) :: es => k.isPaired && v.isPaired && isPairedEntries es

end

/-- A chat model and how to call it. -/
structure ChatModel where
  model : Option String
  /-- Sampling parameters; null leaves one out of the request. -/
  temperature : Value
  maxTokens : Value
  seed : Value
  apiKey : Option String
  baseUrl : Option String
  /-- How long to wait, as the transport takes it. -/
  timeout : Value
  /-- How often a request is sent again. -/
  maxRetries : Option Int
  headers : Option (List (String × String))

namespace ChatModel

def defaultModel : String := "gpt-4o-mini"

def defaultUrl : String := "https://api.openai.com/v1"

/-- How often a request is sent again where nothing is said. -/
def defaultRetries : Int := 2

/-- How long to wait for an answer: a hundred and twenty seconds. -/
def defaultTimeout : Binary64 := ⟨0x405E000000000000⟩

/-- The chat model to begin with. -/
def initial : ChatModel where
  model := some defaultModel
  temperature := .float .zero
  maxTokens := .null
  seed := .null
  apiKey := none
  baseUrl := some defaultUrl
  timeout := .float defaultTimeout
  maxRetries := some 5
  headers := none

/-- The name of the provider's interface. -/
def interface : String := "openai"

/-- The name of a model in messages. -/
def name (m : ChatModel) : String := m.model.getD "None"

/-- The key for the provider: the model's own, else that of the environment. -/
def key? (m : ChatModel) (env : Environment) : Option String :=
  m.apiKey.filter (· != "") <|> (env.get? Environment.keyVariable).filter (· != "")

/-- The failure for want of a key. -/
def missingKey (m : ChatModel) : Failure :=
  .provider 401 m.name "Missing OpenAI API key"

/-- The address that requests go to. -/
def url (m : ChatModel) : String :=
  let base := m.baseUrl.getD defaultUrl
  base ++ (if base.endsWith "/" then "" else "/") ++ "chat/completions"

/-- How a request asks for data of a schema. -/
def responseFormat (schema : Value) : Value :=
  .record [("type", .str "json_schema"),
    ("json_schema", .record [("name", .str "extraction_output"), ("strict", .bool true),
      ("schema", schema)])]

/-- The body of a request. -/
def body (m : ChatModel) (messages : List Message) (schema : Option Value) : Value :=
  let sampling := [("temperature", m.temperature), ("max_tokens", m.maxTokens), ("seed", m.seed)]
  .record ([("model", (m.model.map Value.str).getD .null),
      ("messages", .list (messages.map Message.toValue))] ++
    sampling.filter (fun p => !p.2.isNull) ++
    (schema.map fun s => ("response_format", responseFormat s)).toList)

/-- The request for an answer to messages; the caller's own headers win. -/
def request (m : ChatModel) (key : String) (messages : List Message) (schema : Option Value) :
    Request :=
  let own := (m.headers.getD []).find? fun h => h.1 = "Authorization"
  ⟨"POST", m.url, (own.map Prod.snd).getD ("Bearer " ++ key), m.body messages schema⟩

/-- What a client for the model is set up with: the settings that are not left open. -/
def clientSettings (m : ChatModel) (key : String) : Entries :=
  let text (s : String) : Value := .str s
  let headers := m.headers.map fun hs => Value.record (hs.map fun h => (h.1, text h.2))
  let all : List (String × Option Value) :=
    [("api_key", some (.str key)), ("base_url", m.baseUrl.map text), ("timeout", some m.timeout),
      ("max_retries", m.maxRetries.map Value.int), ("default_headers", headers)]
  all.filterMap fun (name, v) =>
    (v.filter (!·.isNull)).map fun v => (.str name, v)

/-- A call that fails because the answer, or the request, could not be used. -/
def unusable {α : Type} (m : ChatModel) (cause : Failure) : Run α := do
  Run.log .error "llm.openai.chat" ("Chat completion failed: " ++ cause.message)
  Run.fail (.unusableAnswer m.name cause)

/-- What an answer comes to where data of a record were asked for, or a text. -/
def accept (body : String) (record : Option Record) : Except Failure (Option Completion) :=
  match Completion.ofBody? body, record with
  | .ok (some c), some r => (c.as r).map some
  | outcome, _ => outcome

/-- What the last response to a request comes to. -/
def conclude (m : ChatModel) (record : Option Record) : Response → Run Completion
  | .unreachable => Run.fail (.provider 502 m.name "Connection error.")
  | .timedOut => Run.fail (.provider 504 m.name "Request timed out.")
  | .received status _ body =>
    if Response.isSuccess status then
      match accept body record with
      | .ok (some c) => return c
      | .ok none => Run.fail (.provider 502 m.name "Provider returned no choices")
      | .error cause => m.unusable cause
    else if status = 429 then Run.fail (.rateLimited m.name (Response.statusMessage status body))
    else Run.fail (.provider status m.name (Response.statusMessage status body))

/-- Calls the model: sends the messages and takes the last response; the provider after it goes
with the completion. -/
def call (m : ChatModel) (env : Environment) (messages : List Message) (record : Option Record)
    (p : Provider) : Run (Completion × Provider) := do
  let schema ← Run.ofExcept (record.mapM Record.strictSchema)
  match m.key? env with
  | none => Run.fail m.missingKey
  | some key =>
    let q := m.request key messages schema
    let retries := m.maxRetries.getD defaultRetries
    if !q.body.allFinite then m.unusable .notFinite
    else if !q.body.isPaired then m.unusable .unspellable
    else if retries < 0 then m.unusable .noAttempt
    else
      let (last, p) ← p.send q retries.toNat
      let c ← m.conclude record last
      return (c, p)

end ChatModel

/-- A chat model with what it takes to reach it. -/
structure Assistant where
  model : ChatModel
  environment : Environment
  provider : Provider

namespace Assistant

/-- The name of the model. -/
def name (a : Assistant) : String := a.model.name

/-- Asks for an answer to messages. -/
def ask (a : Assistant) (messages : List Message) (record : Option Record) : Run Completion :=
  Prod.fst <$> a.model.call a.environment messages record a.provider

end Assistant

end PagePlan
