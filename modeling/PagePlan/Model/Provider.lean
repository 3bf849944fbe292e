/-
# Model providers

A provider answers requests one after the other: with a status, headers and a text, or not at
all.  It is given by the responses that it will make.  Some failures pass by themselves, and a
response may say of itself whether it is one of them.
-/
import PagePlan.Json.Reader
import PagePlan.Json.Writer
import PagePlan.Run

namespace PagePlan

/-- What comes back for a request. -/
inductive Response where
  | received (status : Nat) (headers : List (String × String)) (body : String)
  | unreachable
  | timedOut
deriving DecidableEq, Repr

namespace Response

/-- Whether a status is one of success. -/
def isSuccess (status : Nat) : Bool :=
  200 ≤ status && status < 300

/-- The header in which a response says whether the request should be sent again. -/
def retryHeader : String := "x-should-retry"

/-- Whether a status is that of a failure that may pass. -/
def isPassing (status : Nat) : Bool :=
  status = 408 || status = 409 || status = 429 || 500 ≤ status

/-- Whether the request may be sent again after this response. -/
def isTransient : Response → Bool
  | received status headers _ =>
    if isSuccess status then false
    else match (headers.find? fun h => Text.lower h.1 = retryHeader).map Prod.snd with
      | some "true" => true
      | some "false" => false
      | _ => isPassing status
  | unreachable => true
  | timedOut => true

/-- The body of an answer with a text as its only choice. -/
def bodyOf (text : String) : Value :=
  .record [("choices", .list [.record [("message", .record [("content", .str text)])]])]

/-- The response that answers with a text. -/
def ofText (text : String) : Response :=
  received 200 [] ((Json.writeAscii? (bodyOf text)).getD "")

/-- The message in the body of an error, where there is one. -/
def messageOf? (body : String) : Option String :=
  match Json.read (Text.strip body) with
  | .ok (.dict es) =>
    match Entries.get? es "error" with
    | some (.dict error) =>
      match Entries.get? error "message" with
      | some (.str message) => if message = "" then none else some message
      | _ => none
    | _ => none
  | _ => none

/-- The wording of an error status. -/
def statusMessage (status : Nat) (body : String) : String :=
  "Error code: " ++ String.ofList (Decimal.ofNat status) ++
    ((messageOf? body).map (" - " ++ ·)).getD ""

end Response

/-- A model provider, given by its responses.  The last one is repeated, and without any the
provider cannot be reached. -/
structure Provider where
  responses : List Response
deriving DecidableEq, Repr

namespace Provider

/-- A provider that cannot be reached. -/
def none : Provider := ⟨[]⟩

/-- A provider that answers every request with a text. -/
def ofText (text : String) : Provider := ⟨[.ofText text]⟩

/-- The next response, and the provider after it. -/
def next (p : Provider) : Response × Provider :=
  match p.responses with
  | [] => (.unreachable, p)
  | [last] => (last, p)
  | r :: rest => (r, ⟨rest⟩)

/-- Sends a request, and again up to a number of times as long as the failure may pass.  The
result is the response that was made last. -/
def send (p : Provider) (q : Request) : Nat → Run (Response × Provider)
  | 0 => do
    Run.emit (.request q)
    return p.next
  | retries + 1 => do
    Run.emit (.request q)
    if p.next.1.isTransient then p.next.2.send q retries else return p.next

end Provider

end PagePlan
