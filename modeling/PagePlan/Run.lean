/-
# Runs

A computation that queries pages, writes to the journal, calls a model or saves a file is a run:
the list of its events in order and its outcome.  The events of a run that failed are kept.  Runs
compose as one expects: the events of the second part follow those of the first, and a failure of
the first part leaves the second out.
-/
import PagePlan.Files.Basic
import PagePlan.Journal.Entry

namespace PagePlan

/-- A request to a model provider. -/
structure Request where
  method : String
  url : String
  authorization : String
  body : Value

/-- What happens on the way to an outcome. -/
inductive Event where
  | log (entry : Journal.Entry)
  /-- An XPath query was put to a page. -/
  | query (xpath : String)
  /-- A request was sent to the model provider. -/
  | request (r : Request)
  /-- A text was saved under a name. -/
  | save (name : FileName) (text : String)
  /-- A text was printed as the output of a program. -/
  | print (text : String)
  /-- A line was shown to the user beside the output. -/
  | notice (line : String)

/-- The events of a computation and its outcome. -/
structure Run (α : Type) where
  events : List Event
  outcome : Except Failure α

namespace Run

variable {α β : Type}

/-- A run without events that succeeds. -/
protected def pure (a : α) : Run α := ⟨[], .ok a⟩

/-- One run and then another that depends on its result. -/
protected def bind (r : Run α) (f : α → Run β) : Run β :=
  match r.outcome with
  | .ok a => ⟨r.events ++ (f a).events, (f a).outcome⟩
  | .error e => ⟨r.events, .error e⟩

instance : Monad Run where
  pure := Run.pure
  bind := Run.bind

/-- A run that fails. -/
def fail (e : Failure) : Run α := ⟨[], .error e⟩

/-- A run without events. -/
def ofExcept : Except Failure α → Run α
  | .ok a => .pure a
  | .error e => fail e

/-- A run that is one event. -/
def emit (e : Event) : Run Unit := ⟨[e], .ok ()⟩

/-- Writes an entry to the journal. -/
def log (level : Journal.Level) (source text : String) : Run Unit :=
  emit (.log ⟨level, Journal.part source, text⟩)

/-- The outcome of a run as a result: a run that does not fail. -/
def attempt (r : Run α) : Run (Except Failure α) := ⟨r.events, .ok r.outcome⟩

/-- The journal entries among the events of a run. -/
def entries (r : Run α) : List Journal.Entry :=
  r.events.filterMap fun
    | .log entry => some entry
    | _ => none

/-- The queries among the events of a run. -/
def queries (r : Run α) : List String :=
  r.events.filterMap fun
    | .query xpath => some xpath
    | _ => none

/-- The requests among the events of a run. -/
def requests (r : Run α) : List Request :=
  r.events.filterMap fun
    | .request q => some q
    | _ => none

/-- Saves a text under a name, unless something stands in the way.  The file is there, and empty,
before the text is turned into bytes; it stays so if the text has half of a surrogate pair. -/
def save (fs : Files) (name : FileName) (text : List Text.Letter) : Run Unit :=
  match fs.obstacle? name with
  | some problem => fail (.storage problem)
  | none =>
    match Text.halfFault? text with
    | none => emit (.save name (String.ofList (text.filterMap Text.Letter.char?)))
    | some fault => Run.bind (emit (.save name "")) fun _ => fail (.unencodable fault)

@[simp] theorem pure_events (a : α) : (pure a : Run α).events = [] := rfl

@[simp] theorem pure_outcome (a : α) : (pure a : Run α).outcome = .ok a := rfl

@[ext] theorem ext {r s : Run α} (he : r.events = s.events) (ho : r.outcome = s.outcome) :
    r = s := by
  cases r; cases s; simp_all

theorem id_map' (r : Run α) : id <$> r = r := by
  cases r with
  | mk events outcome => cases outcome <;> simp [Functor.map, Run.bind, Run.pure]

theorem pure_bind' (a : α) (f : α → Run β) : pure a >>= f = f a := by
  simp [bind, Run.bind, pure, Run.pure]

theorem bind_assoc' {γ : Type} (r : Run α) (f : α → Run β) (g : β → Run γ) :
    r >>= f >>= g = r >>= fun a => f a >>= g := by
  cases r with
  | mk events outcome =>
    cases outcome with
    | error e => rfl
    | ok a =>
      simp only [bind, Run.bind]
      cases (f a).outcome <;> simp

instance : LawfulMonad Run :=
  LawfulMonad.mk' Run id_map' pure_bind' bind_assoc'

theorem outcome_bind_of_ok {r : Run α} {a : α} (f : α → Run β) (h : r.outcome = .ok a) :
    (r >>= f).outcome = (f a).outcome := by
  simp only [bind, Run.bind, h]

theorem events_bind_of_ok {r : Run α} {a : α} (f : α → Run β) (h : r.outcome = .ok a) :
    (r >>= f).events = r.events ++ (f a).events := by
  simp only [bind, Run.bind, h]

theorem outcome_bind_of_error {r : Run α} {e : Failure} (f : α → Run β)
    (h : r.outcome = .error e) : (r >>= f).outcome = .error e := by
  simp only [bind, Run.bind, h]

theorem events_bind_of_error {r : Run α} {e : Failure} (f : α → Run β)
    (h : r.outcome = .error e) : (r >>= f).events = r.events := by
  simp only [bind, Run.bind, h]

/-- A run in two parts that succeeds does so in both. -/
theorem outcome_bind_eq_ok {r : Run α} {f : α → Run β} {b : β} :
    (r >>= f).outcome = .ok b ↔ ∃ a, r.outcome = .ok a ∧ (f a).outcome = .ok b := by
  cases h : r.outcome with
  | ok a => simp [outcome_bind_of_ok f h]
  | error e => simp [outcome_bind_of_error f h]

@[simp] theorem ofExcept_outcome (x : Except Failure α) : (ofExcept x).outcome = x := by
  cases x <;> rfl

@[simp] theorem ofExcept_events (x : Except Failure α) : (ofExcept x).events = [] := by
  cases x <;> rfl

@[simp] theorem log_outcome (level : Journal.Level) (source text : String) :
    (log level source text).outcome = .ok () := rfl

end Run

/-- The files after an event. -/
def Files.afterEvent (fs : Files) : Event → Files
  | .save name text => fs.put name (Text.toUtf8 text.toList)
  | _ => fs

/-- The files after some events in order. -/
def Files.after (fs : Files) (events : List Event) : Files :=
  events.foldl Files.afterEvent fs

end PagePlan
