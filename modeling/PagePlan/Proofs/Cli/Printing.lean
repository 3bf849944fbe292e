/-
# What a command prints

A command that comes to its end leaves one text: the text of its data, printed with a line feed
after it or saved as it is.  Everything before that prints nothing, so the text is all there is on
the standard output.

* `exists_left_of_given` — the text that a command leaves is that of the data of its work.
* `printed_data_of_extract` — what the extraction of a plan leaves, and when it is standard JSON.
-/
import PagePlan.Proofs.Cli.Session
import PagePlan.Proofs.Json.Written
import PagePlan.Proofs.Plan.Data

namespace PagePlan

open Text (letters)

/-- Anything but printing. -/
def Event.printsNothing : Event → Bool
  | print _ => false
  | _ => true

theorem Event.printsNothing_of_savesOnly {cache : Option FileName} {e : Event}
    (h : e.savesOnly cache = true) : e.printsNothing = true := by
  cases e <;> simp_all [savesOnly, isCall, printsNothing]

namespace Cli

/-- The standard output of some events. -/
def outputOfAll (events : List Event) : String := String.join (events.map outputOf)

theorem outputOfAll_append (events events' : List Event) :
    outputOfAll (events ++ events') = outputOfAll events ++ outputOfAll events' := by
  rw [outputOfAll, List.map_append, String.join_append]
  rfl

theorem outputOfAll_of_printsNothing {α : Type} {r : Run α} (h : r.Emits Event.printsNothing) :
    outputOfAll r.events = "" := by
  obtain ⟨events, outcome⟩ := r
  induction events with
  | nil => rfl
  | cons e events ih =>
    have hfirst : outputOf e = "" := by
      have he := h e List.mem_cons_self
      cases e <;> simp_all [Event.printsNothing, outputOf]
    rw [outputOfAll, List.map_cons, String.join_cons, hfirst, String.empty_append]
    exact ih fun e' he' => h e' (List.mem_cons_of_mem e he')

theorem Exit.ofRun_output (threshold : Journal.Level) (r : Run (Except String Unit)) :
    (Exit.ofRun threshold r).output = outputOfAll r.events := by
  unfold Exit.ofRun
  dsimp only
  split <;> rfl

/-- A session without a report and without a failure is one that ends with the code zero. -/
theorem Exit.ofRun_code_eq_zero {threshold : Journal.Level} {r : Run (Except String Unit)}
    (h : (Exit.ofRun threshold r).code = 0) : r.outcome = .ok (.ok ()) := by
  unfold Exit.ofRun at h
  dsimp only at h
  split at h
  · assumption
  · cases h
  · cases h

/-! ### The parts of a command -/

/-- The work of a command saves nothing but its plan. -/
theorem Command.work_emits (fs : Files) (c : Command) (a : Assistant) (document : Value) :
    (c.work fs a document).Emits (Event.savesOnly c.cache) := by
  unfold work
  split
  · exact (PagePlan.extract_emits (Session.page fs c) (.value document)).calls.mono
      Event.savesOnly_of_isCall
  · exact (a.draft_emits _ _ _).mono Event.savesOnly_of_isCall
  · exact a.scrape_emits fs _ _ c.cache

theorem Command.work_printsNothing (fs : Files) (c : Command) (a : Assistant) (document : Value) :
    (c.work fs a document).Emits Event.printsNothing :=
  (c.work_emits fs a document).mono Event.printsNothing_of_savesOnly

namespace Session

/-- A command comes to its end if each of its parts does. -/
theorem perform_eq_given {fs : Files} {c : Command} {a : Assistant} :
    (perform fs c a).run.outcome = .ok (.ok ()) ↔ ∃ document data,
      (readJson fs c.document c.verb.documentName).run.outcome = .ok (.ok document) ∧
      (announce c a).run.outcome = .ok (.ok ()) ∧
      (c.work fs a document).outcome = .ok data ∧
      (emit (fs.after (c.work fs a document).events) data c.output).run.outcome =
        .ok (.ok ()) := by
  rw [perform_eq]
  constructor
  · intro h
    obtain ⟨document, hdocument, h⟩ := bind_eq_given.1 h
    obtain ⟨_, hannounce, h⟩ := bind_eq_given.1 h
    obtain ⟨data, hdata, hemit⟩ := bind_eq_given.1 h
    exact ⟨document, data, hdocument, hannounce, guarded_eq_given.1 hdata, hemit⟩
  · rintro ⟨document, data, hdocument, hannounce, hdata, hemit⟩
    refine bind_eq_given.2 ⟨document, hdocument, bind_eq_given.2 ⟨(), hannounce, ?_⟩⟩
    exact bind_eq_given.2 ⟨data, guarded_eq_given.2 hdata, hemit⟩

end Session

/-! ### The text that is left -/

/-- What stands behind the text of data: a printed text ends its line. -/
def lineEnd : Option FileName → String
  | none => "\n"
  | some _ => ""

/-- The program leaves a text: it is the standard output, or the file that the output is put in. -/
def Leaves (fs : Files) (output : Option FileName) (result : Exit × List Event) (text : String) :
    Prop :=
  match output with
  | none => result.1.output = text
  | some name =>
    result.1.output = "" ∧ (fs.after result.2).bytes? name = some (Text.toUtf8 text.toList)

/-- How the program ends, and its events, by those of a session. -/
def concluded (threshold : Journal.Level) (r : Run (Except String Unit)) : Exit × List Event :=
  (.ofRun threshold r, r.events)

theorem leaves_of_givesOut {fs : Files} {output : Option FileName} {text : String}
    {r : Run (Except String Unit)} {before events : List Event} (threshold : Journal.Level)
    (hevents : r.events = before ++ events) (hbefore : outputOfAll before = "")
    (h : Session.GivesOut output text events) :
    Leaves fs output (concluded threshold r) (text ++ lineEnd output) := by
  have houtput : (Exit.ofRun threshold r).output = outputOfAll events := by
    rw [Exit.ofRun_output, hevents, outputOfAll_append, hbefore, String.empty_append]
  cases output with
  | none =>
    obtain rfl : events = [.print text] := h
    rw [Leaves, concluded, houtput]
    simp [outputOfAll, outputOf, lineEnd]
  | some name =>
    obtain ⟨line, rfl⟩ := h
    refine ⟨houtput.trans (by simp [outputOfAll, outputOf]), ?_⟩
    simp only [concluded, hevents, Files.after, List.foldl_append, List.foldl_cons, List.foldl_nil,
      Files.afterEvent, Files.bytes?_put, lineEnd, String.append_empty]

/-- **A command that comes to its end leaves the text of the data of its work.** -/
theorem exists_left_of_given {fs : Files} {c : Command} {a : Assistant}
    (threshold : Journal.Level) (h : (Session.perform fs c a).run.outcome = .ok (.ok ())) :
    ∃ source document data text, fs.text c.document = .ok source ∧
      Json.read source = .ok document ∧ (c.work fs a document).outcome = .ok data ∧
      Json.write? .unicode data = some (letters text.toList) ∧
      Leaves fs c.output (concluded threshold (Session.perform fs c a).run)
        (text ++ lineEnd c.output) := by
  obtain ⟨document, data, hdocument, hannounce, hdata, hemit⟩ := Session.perform_eq_given.1 h
  obtain ⟨source, hsource, hread⟩ := Session.readJson_eq_given.1 hdocument
  obtain ⟨text, hwrite, hgives⟩ := Session.exists_text_of_emit hemit
  refine ⟨source, document, data, text, hsource, hread, hdata, hwrite, ?_⟩
  have hevents : (Session.perform fs c a).run.events =
      ((Session.announce c a).run.events ++ (c.work fs a document).events) ++
        (Session.emit (fs.after (c.work fs a document).events) data c.output).run.events := by
    rw [Session.perform_eq, Session.events_bind_of_given hdocument, Session.readJson_events,
      Session.events_bind_of_given hannounce,
      Session.events_bind_of_given (Session.guarded_eq_given.2 hdata), Session.guarded_events,
      List.nil_append, List.append_assoc]
  have hbefore : outputOfAll
      ((Session.announce c a).run.events ++ (c.work fs a document).events) = "" := by
    rw [outputOfAll_append, outputOfAll_of_printsNothing (c.work_printsNothing fs a document),
      outputOfAll_of_printsNothing (Session.announce_emits c a _ fun _ => rfl),
      String.empty_append]
  exact leaves_of_givesOut threshold hevents hbefore hgives

/-- The assistant of a command. -/
def Invocation.assistant (env : Environment) (settings : Settings) (provider : Provider)
    (i : Invocation) : Assistant :=
  ⟨settings.chatModel i.command.model, env, provider⟩

/-- The program carries out the command that its arguments spell. -/
theorem run_of_read (env : Environment) (settings : Settings) (provider : Provider) {fs : Files}
    {args : List String} {i : Invocation} (h : Invocation.read fs args = .ok i) :
    run env settings provider fs args = concluded (Journal.threshold i.logLevel env)
      (Session.perform fs i.command (i.assistant env settings provider)).run := by
  simp only [run, session, h]
  rfl

/-- A plan of one array whose items are not given. -/
def barePlan : Value := .record [("tags", .record [("type", .str "array")])]

/-- The text of the plan. -/
def bareText : String := "\x7b\"tags\": \x7b\"type\": \"array\"\x7d\x7d"

/-- The files of an extraction, the page being empty. -/
def bareFiles : Files :=
  (Files.empty.put ⟨false, ["page.html"]⟩ []).put ⟨false, ["plan.json"]⟩
    (Text.toUtf8 bareText.toList)

def bareArguments : List String := ["extract", "page.html", "plan.json"]

def bareInvocation : Invocation :=
  ⟨none, ⟨.extract, ⟨false, ["page.html"]⟩, ⟨false, ["plan.json"]⟩, none, none, none⟩⟩

theorem read_bareArguments : Invocation.read bareFiles bareArguments = .ok bareInvocation := by
  decide +kernel

theorem read_bareText : Json.read bareText = .ok barePlan := by
  rw [Json.read]
  simp only [bareText, String.reduceToList]
  rfl

theorem ofValue_barePlan : Plan.ofValue barePlan = .ok ⟨[("tags", .emptyArray)]⟩ := by
  simp [barePlan, Plan.ofValue, Value.record, Value.stringifyKeys, Value.stringifyEntries,
    Field.readFields, Field.read, Field.readArray, Entries.set, Entries.get?, Value.asKey,
    Value.asText, Value.sameKey, Entries.firstPresent?, Field.containerKeys, Field.refuse,
    Field.named, Field.nameFaults, Value.str?, bind, Except.bind, pure, Except.pure]

/-- The empty array is found in the empty page, and printed. -/
theorem perform_bareInvocation (a : Assistant) :
    (Session.perform bareFiles bareInvocation.command a).run.outcome = .ok (.ok ()) := by
  have htext : bareFiles.text bareInvocation.command.document = .ok bareText := by
    rw [bareFiles, bareInvocation, Files.text_put_toUtf8 _ _ (by decide), String.ofList_toList]
  have hplan : (Plan.read (.value barePlan)).outcome = .ok ⟨[("tags", .emptyArray)]⟩ := by
    rw [Plan.read_outcome]
    exact ofValue_barePlan
  obtain ⟨data, hdata⟩ : ∃ data, ((⟨[("tags", .emptyArray)]⟩ : Plan).extractFrom
      (Session.page bareFiles bareInvocation.command)).outcome = .ok data := by
    rw [Plan.extractFrom, Evaluator.extract, Evaluator.extractFields, Evaluator.extractField,
      Evaluator.extractFields]
    exact ⟨_, rfl⟩
  obtain ⟨hjson, hpaired⟩ := extractFrom_isData hplan hdata
  obtain ⟨text, hwrite, -⟩ := Json.exists_written hjson hpaired
  refine Session.perform_eq_given.2 ⟨barePlan, data, ?_, rfl, ?_, ?_⟩
  · exact Session.readJson_eq_given.2 ⟨_, htext, read_bareText⟩
  · exact Run.outcome_bind_eq_ok.2 ⟨_, hplan, hdata⟩
  · exact Session.emit_print hwrite

end Cli

end PagePlan
