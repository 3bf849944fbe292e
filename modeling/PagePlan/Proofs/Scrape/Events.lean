/-
# What the parts of a run do to the world

A run is judged by its events.  Carrying out a plan puts queries and writes to the journal, and does
nothing else; asking a model for a plan or for data sends requests as well, and saves nothing.
Scraping saves a plan at most.  Each is said of the parts of a run and put together as the run is.

* `extract_emits` — carrying out a plan only puts queries and writes to the journal.
* `draft_emits`, `Assistant.extract_emits` — asking a model sends requests besides.
* `scrape_emits` — scraping saves nothing but the plan.
-/
import PagePlan.Proofs.Plan.Parts
import PagePlan.Scrape

namespace PagePlan

namespace Run

variable {α β : Type} {p : Event → Bool}

/-- All events of a run are of some kind. -/
def Emits (p : Event → Bool) (r : Run α) : Prop :=
  ∀ e ∈ r.events, p e = true

theorem emits_pure (a : α) : Emits p (pure a : Run α) := by
  intro e he
  simp at he

theorem emits_fail (f : Failure) : Emits p (fail f : Run α) := by
  intro e he
  simp [fail] at he

theorem emits_ofExcept (x : Except Failure α) : Emits p (ofExcept x) := by
  intro e he
  simp at he

theorem emits_emit {e : Event} (h : p e = true) : Emits p (emit e) := by
  intro e' he
  simp only [emit, List.mem_singleton] at he
  rwa [he]

/-- The events of two parts are of some kind if those of each are. -/
theorem Emits.bind {r : Run α} {f : α → Run β} (hr : Emits p r) (hf : ∀ a, Emits p (f a)) :
    Emits p (r >>= f) := by
  intro e he
  cases h : r.outcome with
  | error x =>
    rw [events_bind_of_error f h] at he
    exact hr e he
  | ok a =>
    rw [events_bind_of_ok f h, List.mem_append] at he
    exact he.elim (hr e) (hf a e)

theorem Emits.map {r : Run α} (hr : Emits p r) (f : α → β) : Emits p (f <$> r) := by
  rw [map_eq_pure_bind]
  exact hr.bind fun a => emits_pure (f a)

theorem composes_emits : Composes (fun r => r.Emits p) := ⟨emits_pure, Emits.bind⟩

end Run

/-! ### Events that change nothing outside -/

/-- An entry of the journal, or a query. -/
def Event.isLook : Event → Bool
  | log _ => true
  | query _ => true
  | _ => false

/-- A look, or a request to the model provider. -/
def Event.isCall : Event → Bool
  | log _ => true
  | query _ => true
  | request _ => true
  | _ => false

/-- Anything but saving a file. -/
def Event.savesNothing : Event → Bool
  | save _ _ => false
  | _ => true

theorem Event.isCall_of_isLook {e : Event} (h : e.isLook = true) : e.isCall = true := by
  cases e <;> simp_all [isLook, isCall]

theorem Event.savesNothing_of_isCall {e : Event} (h : e.isCall = true) :
    e.savesNothing = true := by
  cases e <;> simp_all [isCall, savesNothing]

/-- A run with events of one kind has events of every wider kind. -/
theorem Run.Emits.mono {α : Type} {p q : Event → Bool} {r : Run α} (h : r.Emits p)
    (hpq : ∀ {e}, p e = true → q e = true) : r.Emits q :=
  fun e he => hpq (h e he)

theorem Run.Emits.calls {α : Type} {r : Run α} (h : r.Emits Event.isLook) :
    r.Emits Event.isCall :=
  h.mono Event.isCall_of_isLook

theorem Run.Emits.savesNothing {α : Type} {r : Run α} (h : r.Emits Event.isCall) :
    r.Emits Event.savesNothing :=
  h.mono Event.savesNothing_of_isCall

/-- A run that saves nothing leaves the files as they are. -/
theorem Files.after_of_savesNothing (fs : Files) {α : Type} {r : Run α}
    (h : r.Emits Event.savesNothing) : fs.after r.events = fs := by
  obtain ⟨events, outcome⟩ := r
  induction events with
  | nil => rfl
  | cons e events ih =>
    have hstep : fs.afterEvent e = fs := by
      have he := h e List.mem_cons_self
      cases e <;> simp_all [Event.savesNothing, afterEvent]
    rw [Files.after, List.foldl_cons, hstep]
    exact ih fun e' he' => h e' (List.mem_cons_of_mem e he')

/-- Only the second part of a run counts for the files if the first saves nothing. -/
theorem Files.after_bind_left (fs : Files) {α β : Type} {r : Run α} {f : α → Run β}
    (hr : r.Emits Event.savesNothing) :
    fs.after (r >>= f).events = match r.outcome with
      | .ok a => fs.after (f a).events
      | .error _ => fs := by
  have hfirst := Files.after_of_savesNothing fs hr
  cases h : r.outcome with
  | error e => rw [Run.events_bind_of_error f h, hfirst]
  | ok a =>
    rw [Files.after] at hfirst
    rw [Run.events_bind_of_ok f h, Files.after, List.foldl_append, hfirst]
    rfl

/-- Only the first part of a run counts for the files if the second saves nothing. -/
theorem Files.after_bind_right (fs : Files) {α β : Type} {r : Run α} {f : α → Run β}
    (hf : ∀ a, (f a).Emits Event.savesNothing) :
    fs.after (r >>= f).events = fs.after r.events := by
  cases h : r.outcome with
  | error e => rw [Run.events_bind_of_error f h]
  | ok a =>
    rw [Run.events_bind_of_ok f h, Files.after, List.foldl_append]
    exact Files.after_of_savesNothing _ (hf a)

/-- A run that only looks sends no request. -/
theorem Run.requests_of_isLook {α : Type} {r : Run α} (h : r.Emits Event.isLook) :
    r.requests = [] := by
  rw [Run.requests, List.filterMap_eq_nil_iff]
  intro e he
  have hlook := h e he
  cases e <;> simp_all [Event.isLook]

theorem Run.emits_log {p : Event → Bool} (h : ∀ entry, p (.log entry) = true)
    (level : Journal.Level) (source text : String) : Emits p (log level source text) :=
  emits_emit (h _)

/-! ### Carrying out a plan -/

namespace Evaluator

open Run

variable {γ : Type} {ev : Evaluator γ}

/-- Nothing but looking is needed to answer a query. -/
def Looks (ev : Evaluator γ) : Prop :=
  ∀ c xpath, (ev.answer c xpath).Emits Event.isLook

theorem ask_emits (h : ev.Looks) (c : γ) (xpath : String) : (ev.ask c xpath).Emits Event.isLook :=
  (emits_emit rfl).bind fun _ => h c xpath

/-- Nothing but looking is needed for an extraction. -/
theorem parts_emits (h : ev.Looks) : ev.Parts (fun r => r.Emits Event.isLook) where
  composes := composes_emits
  ask := ask_emits h
  log := emits_log fun _ => rfl
  coerce _ _ := emits_ofExcept _

end Evaluator

namespace XPath

open Run

variable {p : Event → Bool}

/-- Answering a query to a page at most writes to the journal. -/
theorem askSite_emits (h : ∀ entry, p (.log entry) = true) (s : Dom.Site) (xpath : String) :
    (askSite s xpath).Emits p := by
  unfold askSite
  split
  · exact emits_fail _
  · split
    · exact emits_pure _
    · exact (emits_log h _ _ _).bind fun _ => emits_pure _

theorem askValue_emits (h : ∀ entry, p (.log entry) = true) (m : Match) (owner : Option Dom.Site)
    (xpath : String) : (askValue m owner xpath).Emits p := by
  simp only [askValue]
  split
  · exact emits_pure _
  · split
    · -- a query that leads to the parent is one to the owner
      split
      · exact askSite_emits h _ _
      · exact emits_pure _
    · split
      · exact askSite_emits h _ _
      · exact emits_pure _
    · split
      · exact emits_fail _
      · exact askSite_emits h _ _

theorem ask_emits (h : ∀ entry, p (.log entry) = true) (m : Match) (xpath : String) :
    (m.ask xpath).Emits p := by
  unfold Match.ask
  split
  · exact askSite_emits h _ _
  · exact askValue_emits h _ _ _
  · exact askValue_emits h _ _ _

theorem evaluator_looks : evaluator.Looks := ask_emits fun _ => rfl

end XPath

theorem Plan.read_emits (source : PlanSource) : (Plan.read source).Emits Event.isLook := by
  refine (Run.emits_ofExcept _).bind fun v => (Run.emits_ofExcept _).bind fun p => ?_
  split
  · exact Run.emits_pure _
  · exact (Run.emits_log (fun _ => rfl) _ _ _).bind fun _ => Run.emits_pure _

/-- **Carrying out a plan only looks.**  It puts queries and writes to the journal. -/
theorem extract_emits (source : PageSource) (plan : PlanSource) :
    (extract source plan).Emits Event.isLook :=
  (Plan.read_emits plan).bind fun p =>
    Evaluator.extract_of_parts (Evaluator.parts_emits XPath.evaluator_looks) _ p

/-! ### Asking a model -/

theorem Condense.condense_emits (source : PageSource) (limit : Option Int) :
    (Condense.condense source limit).Emits Event.isLook :=
  (Run.emits_ofExcept _).bind fun _ =>
    (Run.emits_log (fun _ => rfl) _ _ _).bind fun _ => Run.emits_pure _

theorem Provider.send_emits (q : Request) (retries : Nat) (p : Provider) :
    (p.send q retries).Emits Event.isCall := by
  induction retries generalizing p with
  | zero => exact (Run.emits_emit rfl).bind fun _ => Run.emits_pure _
  | succ retries ih =>
    refine (Run.emits_emit rfl).bind fun _ => ?_
    split
    · exact ih p.next.2
    · exact Run.emits_pure _

namespace ChatModel

open Run

theorem unusable_emits {α : Type} (m : ChatModel) (cause : Failure) :
    (m.unusable cause : Run α).Emits Event.isCall :=
  (emits_log (fun _ => rfl) _ _ _).bind fun _ => emits_fail _

theorem conclude_emits (m : ChatModel) (record : Option Record) (r : Response) :
    (m.conclude record r).Emits Event.isCall := by
  unfold conclude
  split
  · exact emits_fail _
  · exact emits_fail _
  · split
    · split
      · exact emits_pure _
      · exact emits_fail _
      · exact unusable_emits m _
    · split
      · exact emits_fail _
      · exact emits_fail _

theorem call_emits (m : ChatModel) (env : Environment) (messages : List Message)
    (record : Option Record) (p : Provider) :
    (m.call env messages record p).Emits Event.isCall := by
  refine (emits_ofExcept _).bind fun schema => ?_
  split
  · exact emits_fail _
  · simp only
    split
    · exact unusable_emits m _
    · split
      · exact unusable_emits m _
      · split
        · exact unusable_emits m _
        · exact (Provider.send_emits _ _ p).bind fun last =>
            (conclude_emits m record last.1).bind fun c => emits_pure _

end ChatModel

/-- **Drafting a plan looks and sends requests.** -/
theorem Assistant.draft_emits (a : Assistant) (source : PageSource) (r : Requirements)
    (limit : Option Int) : (a.draft source r limit).Emits Event.isCall := by
  have hlog (level : Journal.Level) (part text : String) :
      (Run.log level part text).Emits Event.isCall := Run.emits_log (fun _ => rfl) _ _ _
  refine (Run.emits_ofExcept _).bind fun properties => ?_
  refine (Condense.condense_emits source limit).calls.bind fun page => ?_
  refine (Run.emits_ofExcept _).bind fun instructions => ?_
  refine (Run.emits_ofExcept _).bind fun names => (hlog _ _ _).bind fun _ => ?_
  refine ((ChatModel.call_emits _ _ _ _ _).map _).bind fun answer => ?_
  refine (Run.emits_ofExcept _).bind fun reply => ?_
  split
  · refine (Plan.read_emits _).calls.bind fun _ => (Run.emits_ofExcept _).bind fun missing => ?_
    split
    · exact Run.emits_pure _
    · exact (hlog _ _ _).bind fun _ => Run.emits_pure _
  · exact Run.emits_fail _

theorem Requirements.toRecord_emits (r : Requirements) : r.toRecord.Emits Event.isLook := by
  unfold toRecord
  split
  · exact Run.emits_pure _
  · refine (Run.emits_ofExcept _).bind fun es => (Run.emits_ofExcept _).bind fun names => ?_
    refine (Run.emits_log (fun _ => rfl) _ _ _).bind fun _ => (Run.emits_ofExcept _).bind fun _ => ?_
    split
    · exact Run.emits_pure _
    · exact Run.emits_fail _
    · exact Run.emits_fail _

/-- **Asking for data looks and sends requests.** -/
theorem Assistant.extract_emits (a : Assistant) (source : PageSource) (r : Requirements) :
    (a.extract source r).Emits Event.isCall := by
  refine r.toRecord_emits.calls.bind fun record => (Run.emits_ofExcept _).bind fun properties => ?_
  refine (Condense.condense_emits source none).calls.bind fun page => ?_
  refine (Run.emits_ofExcept _).bind fun instructions => (Run.emits_ofExcept _).bind fun names => ?_
  refine (Run.emits_log (fun _ => rfl) _ _ _).bind fun _ => ?_
  exact ((ChatModel.call_emits _ _ _ _ _).map _).bind fun _ => Run.emits_pure _

/-! ### Scraping -/

/-- A look, a request, or saving the file of a plan. -/
def Event.savesOnly (cache : Option FileName) : Event → Bool
  | save name _ => cache = some name
  | e => e.isCall

theorem Event.savesOnly_of_isCall {cache : Option FileName} {e : Event} (h : e.isCall = true) :
    e.savesOnly cache = true := by
  cases e <;> simp_all [isCall, savesOnly]

theorem Run.save_emits (fs : Files) (name : FileName) (text : List Text.Letter) :
    (Run.save fs name text).Emits (Event.savesOnly (some name)) := by
  have hsave (t : String) : (Run.emit (.save name t)).Emits (Event.savesOnly (some name)) :=
    emits_emit (by simp [Event.savesOnly])
  unfold Run.save
  split
  · exact emits_fail _
  · split
    · exact hsave _
    · exact (hsave "").bind fun _ => emits_fail _

theorem Assistant.loadOrDraft_emits (a : Assistant) (fs : Files) (source : PageSource)
    (r : Requirements) (name : FileName) :
    (a.loadOrDraft fs source r name).Emits (Event.savesOnly (some name)) := by
  unfold loadOrDraft
  split
  · exact (Run.emits_log (fun _ => rfl) _ _ _).bind fun _ => Run.emits_ofExcept _
  · refine ((a.draft_emits source r _).mono Event.savesOnly_of_isCall).bind fun plan => ?_
    refine (Run.emits_ofExcept _).bind fun text => (Run.save_emits fs name text).bind fun _ => ?_
    exact (Run.emits_log (fun _ => rfl) _ _ _).bind fun _ => Run.emits_pure _

/-- **Scraping saves nothing but the plan.** -/
theorem Assistant.scrape_emits (a : Assistant) (fs : Files) (source : PageSource)
    (r : Requirements) (cache : Option FileName) :
    (a.scrape fs source r cache).Emits (Event.savesOnly cache) := by
  cases cache with
  | none => exact (a.extract_emits source r).mono Event.savesOnly_of_isCall
  | some name =>
    exact (a.loadOrDraft_emits fs source r name).bind fun plan =>
      (PagePlan.extract_emits source (.value plan)).calls.mono Event.savesOnly_of_isCall

/-- A file is as before if only another one was saved. -/
theorem Files.bytes?_after_of_savesOnly {α : Type} {cache : Option FileName} {r : Run α}
    (h : r.Emits (Event.savesOnly cache)) {name : FileName}
    (hname : ∀ plan ∈ cache, plan.normal ≠ name.normal) (fs : Files) :
    (fs.after r.events).bytes? name = fs.bytes? name := by
  obtain ⟨events, outcome⟩ := r
  induction events generalizing fs with
  | nil => rfl
  | cons e events ih =>
    have hstep : (fs.afterEvent e).bytes? name = fs.bytes? name := by
      have he := h e List.mem_cons_self
      cases e with
      | save plan text =>
        have hplan : plan ∈ cache := by simpa [Event.savesOnly] using he
        exact Files.bytes?_put_of_ne fs _ (Ne.symm (hname plan hplan))
      | _ => rfl
    rw [← hstep]
    exact ih (fs.afterEvent e) fun e' he' => h e' (List.mem_cons_of_mem e he')

end PagePlan
