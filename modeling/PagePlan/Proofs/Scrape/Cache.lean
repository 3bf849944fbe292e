/-
# Plans in files

A call that goes by the plan in a file drafts one if there is none, saves it and carries it out.  Once
a plan is saved, every later call finds the same plan there: the text of the plan is written as
bytes, decoded and read back without a loss.  A call that fails leaves the files as they were, but
for a plan whose text has half of a surrogate pair: the file is made before the text is encoded, and
an empty file stays behind, which no later call can use.

* `saved_plan_serves` — a saved plan serves every later call, and none of them changes it.
* `files_after_failed_load` — what a failed call leaves behind.
-/
import PagePlan.Proofs.Json.LineBreak
import PagePlan.Proofs.Json.RoundTrip
import PagePlan.Proofs.Scrape.Draft
import PagePlan.Proofs.Scrape.Events

namespace PagePlan

open Json (IsJson)

/-- A call that goes by the plan in a file: a page is scraped, or the plan is only loaded. -/
structure PlanCall where
  assistant : Assistant
  source : PageSource
  requirements : Requirements
  /-- Whether the plan is carried out. -/
  scrapes : Bool

namespace PlanCall

/-- The plan that a call goes by. -/
def load (c : PlanCall) (fs : Files) (name : FileName) : Run Value :=
  c.assistant.loadOrDraft fs c.source c.requirements name

/-- A call with the files as they are. -/
def run (c : PlanCall) (fs : Files) (name : FileName) : Run Value :=
  if c.scrapes then c.assistant.scrape fs c.source c.requirements (some name) else c.load fs name

/-- What a call comes to with a plan at hand. -/
def outcomeWith (c : PlanCall) (plan : Value) : Except Failure Value :=
  if c.scrapes then (extract c.source (.value plan)).outcome else .ok plan

/-- The files after some calls, one after the other. -/
def filesAfter (name : FileName) : Files → List PlanCall → Files
  | fs, [] => fs
  | fs, c :: cs => filesAfter name (fs.after (c.run fs name).events) cs

/-! ### The two parts of a call -/

variable {c : PlanCall} {fs : Files} {name : FileName} {plan : Value} {e : Failure}

/-- A call with a plan comes to what the plan comes to. -/
theorem run_outcome_of_load (h : (c.load fs name).outcome = .ok plan) :
    (c.run fs name).outcome = c.outcomeWith plan := by
  unfold run outcomeWith
  split
  · exact Run.outcome_bind_of_ok _ h
  · exact h

/-- A call without a plan fails as loading it does. -/
theorem run_outcome_of_load_error (h : (c.load fs name).outcome = .error e) :
    (c.run fs name).outcome = .error e := by
  unfold run
  split
  · exact Run.outcome_bind_of_error _ h
  · exact h

/-- What a call does to the files is done by loading the plan. -/
theorem files_after_run (c : PlanCall) (fs : Files) (name : FileName) :
    fs.after (c.run fs name).events = fs.after (c.load fs name).events := by
  unfold run
  split
  · have hscrape : c.assistant.scrape fs c.source c.requirements (some name) =
        c.load fs name >>= fun plan => extract c.source (.value plan) := rfl
    rw [hscrape]
    exact Files.after_bind_right fs fun plan =>
      (extract_emits c.source (.value plan)).calls.savesNothing
  · rfl

/-! ### Calls that find a file -/

theorem load_of_has (h : fs.has name = true) (c : PlanCall) :
    (c.load fs name).outcome = savedPlan fs name ∧ (c.load fs name).Emits Event.isLook := by
  rw [load, Assistant.loadOrDraft, if_pos h]
  refine ⟨?_, (Run.emits_log (fun _ => rfl) _ _ _).bind fun _ => Run.emits_ofExcept _⟩
  rw [Run.outcome_bind_of_ok _ (Run.log_outcome _ _ _), Run.ofExcept_outcome]

/-- A call that finds a file asks for nothing and leaves the files as they are. -/
theorem run_of_has (h : fs.has name = true) (c : PlanCall) :
    (c.run fs name).requests = [] ∧ fs.after (c.run fs name).events = fs := by
  obtain ⟨-, hlook⟩ := load_of_has h c
  refine ⟨?_, by rw [files_after_run, Files.after_of_savesNothing _ hlook.calls.savesNothing]⟩
  unfold run
  split
  · exact Run.requests_of_isLook (hlook.bind fun plan => extract_emits c.source (.value plan))
  · exact Run.requests_of_isLook hlook

/-- However many calls find a file, the files stay as they are. -/
theorem filesAfter_of_has (h : fs.has name = true) (cs : List PlanCall) :
    filesAfter name fs cs = fs := by
  induction cs with
  | nil => rfl
  | cons c cs ih => rw [filesAfter, (run_of_has h c).2, ih]

/-! ### Saving -/

theorem has_put (fs : Files) (name : FileName) (bytes : List UInt8) :
    (fs.put name bytes).has name = true := by
  simp [Files.has]

/-- The bytes of a text without a half. -/
def textBytes (text : List Text.Letter) : List UInt8 :=
  Text.toUtf8 (text.filterMap Text.Letter.char?)

/-- A plan is read back from the file that it was saved in. -/
theorem savedPlan_put {text : List Text.Letter} (hplan : IsJson plan)
    (htext : fileText plan = .ok text) (hpaired : Text.halfFault? text = none) :
    savedPlan (fs.put name (textBytes text)) name = .ok plan := by
  obtain ⟨written, hwrite, hread⟩ := Json.readLetters_write hplan
  obtain rfl : text = written := by
    rw [fileText, hwrite] at htext
    exact (Except.ok.inj htext).symm
  -- the letters are characters, none of them a carriage return
  have hletters : Text.letters (text.filterMap Text.Letter.char?) = text :=
    Text.letters_filterMap_char? (Text.halfFault?_eq_none_iff.1 hpaired)
  have hreturn : '\r' ∉ text.filterMap Text.Letter.char? := by
    intro hmem
    rw [← Json.mem_letters, hletters] at hmem
    exact Json.noReturn_writeAt 0 plan hwrite hmem
  have hfile : (fs.put name (textBytes text)).text name =
      .ok (String.ofList (text.filterMap Text.Letter.char?)) := Files.text_put_toUtf8 fs name hreturn
  rw [savedPlan, hfile]
  simp only [bind, Except.bind, Json.read, String.toList_ofList, hletters, hread]
  rfl

/-- What saving a text does to the files: a text with a half leaves an empty file. -/
theorem files_after_save (fs : Files) (name : FileName) (text : List Text.Letter) :
    fs.after (Run.save fs name text).events =
      if (fs.obstacle? name).isSome then fs
      else fs.put name (if (Text.halfFault? text).isSome then [] else textBytes text) := by
  unfold Run.save
  cases fs.obstacle? name with
  | some problem => rfl
  | none =>
    cases Text.halfFault? text with
    | some fault => rfl
    | none => simp [Run.emit, Files.after, Files.afterEvent, textBytes]

theorem save_outcome_eq_ok {text : List Text.Letter} (h : (Run.save fs name text).outcome = .ok ()) :
    fs.obstacle? name = none ∧ Text.halfFault? text = none := by
  unfold Run.save at h
  split at h
  · simp [Run.fail] at h
  · next hplace =>
    split at h
    · next hpaired => exact ⟨hplace, hpaired⟩
    · simp [Run.bind, Run.emit, Run.fail] at h

/-- The draft that a call asks for. -/
def draft (c : PlanCall) : Run Value :=
  c.assistant.draft c.source c.requirements (some Assistant.sampleItems)

theorem draft_emits (c : PlanCall) : c.draft.Emits Event.savesNothing :=
  (c.assistant.draft_emits c.source c.requirements _).savesNothing

theorem load_of_new (hhas : fs.has name = false) (c : PlanCall) :
    c.load fs name = do
      let plan ← c.draft
      Run.save fs name (← Run.ofExcept (fileText plan))
      Run.log .info "service" ("Saved generated XPath schema to " ++ name.text)
      return plan := by
  rw [load, Assistant.loadOrDraft, if_neg (by simp [hhas]), draft]

/-- A draft that can be saved is what loading comes to. -/
theorem load_outcome_of_paired {text : List Text.Letter} (hhas : fs.has name = false)
    (hplace : fs.obstacle? name = none) (hdraft : c.draft.outcome = .ok plan)
    (htext : fileText plan = .ok text) (hpaired : Text.halfFault? text = none) :
    (c.load fs name).outcome = .ok plan := by
  have hsave : (Run.save fs name text).outcome = .ok () := by
    simp only [Run.save, hplace, hpaired, Run.emit]
  rw [load_of_new hhas c, Run.outcome_bind_of_ok _ hdraft,
    Run.outcome_bind_of_ok _ ((Run.ofExcept_outcome _).trans htext),
    Run.outcome_bind_of_ok _ hsave, Run.outcome_bind_of_ok _ (Run.log_outcome _ _ _),
    Run.pure_outcome]

/-- What a call does to the files where it finds none of the name: nothing before it saves. -/
theorem files_after_load_of_new (hhas : fs.has name = false) (c : PlanCall) :
    fs.after (c.load fs name).events = match c.draft.outcome with
      | .ok plan =>
        match fileText plan with
        | .ok text => fs.after (Run.save fs name text).events
        | .error _ => fs
      | .error _ => fs := by
  have hlog (plan : Value) : Run.Emits Event.savesNothing (do
      Run.log .info "service" ("Saved generated XPath schema to " ++ name.text)
      return plan) :=
    (Run.emits_log (fun _ => rfl) _ _ _).bind fun _ => Run.emits_pure _
  rw [load_of_new hhas c, Files.after_bind_left fs c.draft_emits]
  cases c.draft.outcome with
  | error e => rfl
  | ok plan =>
    simp only
    rw [Files.after_bind_left fs (Run.emits_ofExcept _), Run.ofExcept_outcome]
    cases fileText plan with
    | error e => rfl
    | ok text => exact Files.after_bind_right fs fun _ => hlog plan

/-- Where a directory has the name, no plan is loaded. -/
theorem has_eq_false_of_load (hnew : fs.bytes? name = none)
    (hplan : (c.load fs name).outcome = .ok plan) : fs.has name = false := by
  by_contra hhas
  have hload := (load_of_has (by simpa using hhas) c).1
  rw [hplan] at hload
  simp [savedPlan, Files.text, hnew, bind, Except.bind] at hload

/-- The plan that a call has drafted is in the file. -/
theorem savedPlan_after_load (hnew : fs.bytes? name = none)
    (hplan : (c.load fs name).outcome = .ok plan) :
    (fs.after (c.load fs name).events).has name = true ∧
      savedPlan (fs.after (c.load fs name).events) name = .ok plan := by
  have hhas := has_eq_false_of_load hnew hplan
  -- loading comes to a plan only if each part of it does what it is to do
  rw [load_of_new hhas c] at hplan
  obtain ⟨drafted, hdraft, hplan⟩ := Run.outcome_bind_eq_ok.1 hplan
  obtain ⟨text, htext, hplan⟩ := Run.outcome_bind_eq_ok.1 hplan
  obtain ⟨⟨⟩, hsave, hplan⟩ := Run.outcome_bind_eq_ok.1 hplan
  obtain ⟨hplace, hpaired⟩ := save_outcome_eq_ok hsave
  rw [Run.outcome_bind_of_ok _ (Run.log_outcome _ _ _)] at hplan
  obtain rfl : drafted = plan := by simpa using hplan
  rw [Run.ofExcept_outcome] at htext
  have hfiles : fs.after (c.load fs name).events = fs.put name (textBytes text) := by
    rw [files_after_load_of_new hhas c, hdraft]
    simp [htext, files_after_save, hplace, hpaired]
  rw [hfiles]
  exact ⟨has_put fs name _, savedPlan_put (Assistant.draft_isJson hdraft) htext hpaired⟩

/-! ### Calls with an answer -/

/-- The plan of one field, with a note that no plan needs. -/
def notedPlan (note : Value) : Value :=
  .record [("a", .record [("xpath", .str "b"), ("c", note)])]

/-- A call for one field, by the body of the answer that it gets. -/
def answered (body : String) : PlanCall where
  assistant := ⟨{ ChatModel.initial with apiKey := some "key" }, ⟨[]⟩, ⟨[.received 200 [] body]⟩⟩
  source := .page ⟨.html, none, []⟩
  requirements := .document (.record [("properties", .record [("a", .record [])])])
  scrapes := true

theorem ask_answered {body instructions page : String} {content : Value}
    (hbody : Completion.ofBody? body = .ok (some ⟨content, none⟩)) :
    ((answered body).assistant.ask (Assistant.briefing instructions page) none).outcome =
      .ok ⟨content, none⟩ := by
  have hkey : (answered body).assistant.model.key? (answered body).assistant.environment =
      some "key" := by
    simp [answered, ChatModel.key?]
  have hretries : 0 ≤ (answered body).assistant.model.maxRetries.getD ChatModel.defaultRetries := by
    simp [answered, ChatModel.initial]
  have haccept : ChatModel.accept body none = .ok (some ⟨content, none⟩) := by
    simp [ChatModel.accept, hbody]
  exact Assistant.ask_of_call
    (ChatModel.call_outcome rfl hkey rfl rfl hretries (by decide) haccept)

theorem ofValue_notedPlan (note : Value) :
    Plan.ofValue (notedPlan note) = .ok ⟨[("a", .primitive ⟨"b", .string, none⟩)]⟩ := by
  simp [notedPlan, Plan.ofValue, Value.record, Value.stringifyKeys, Value.stringifyEntries,
    Field.readFields, Field.read, Entries.set, Entries.get?, Value.asKey, Value.asText,
    Value.sameKey, Entries.firstPresent?, Field.xpathKeys, Field.readPrimitive, Value.isText,
    Field.refuse, Field.halfFaults, Field.named, Field.nameFaults, Field.declaredType, Value.str?,
    bind, Except.bind, pure, Except.pure]

/-- An answer with a plan is the draft. -/
theorem draft_answered {body : String} {note : Value}
    (hbody : Completion.ofBody? body = .ok (some ⟨notedPlan note, none⟩)) :
    (answered body).draft.outcome = .ok (notedPlan note) := by
  have hproperties : (answered body).requirements.properties =
      .ok (.record [("a", .record [])]) := by
    simp [answered, Requirements.properties, Requirements.schema, Schema.unwrap, Value.record,
      Entries.has, Entries.get?, Value.sameKey, Schema.inlineReferences, Schema.section?,
      Schema.olderKey, Schema.newerKey, Schema.referenceKey, Schema.reference?, Entries.merge,
      Entries.erase, Schema.inlineValue, Schema.inlineEntries, Schema.hasSection, Value.truthy,
      bind, Except.bind, pure, Except.pure]
  obtain ⟨page, hpage⟩ : ∃ page, (Condense.condense (answered body).source
      (some Assistant.sampleItems)).outcome = .ok page := ⟨_, rfl⟩
  obtain ⟨instructions, hinstructions⟩ : ∃ instructions,
      Prompt.forPlan (.record [("a", .record [])]) = .ok instructions := ⟨_, rfl⟩
  have hlisted : (Run.ofExcept (Requirements.listed (.record [("a", .record [])]))).outcome =
      .ok [.str "a"] := rfl
  have hreply : (Run.ofExcept (Reply.parse (notedPlan note))).outcome = .ok (notedPlan note) := rfl
  have hsource : (Run.ofExcept (PlanSource.value (notedPlan note)).read).outcome =
      .ok (notedPlan note) := rfl
  have hread : (Plan.read (.value (notedPlan note))).outcome =
      .ok ⟨[("a", .primitive ⟨"b", .string, none⟩)]⟩ := by
    rw [Plan.read, Run.outcome_bind_of_ok _ hsource,
      Run.outcome_bind_of_ok _ ((Run.ofExcept_outcome _).trans (ofValue_notedPlan note))]
    rfl
  rw [draft, Assistant.draft, Run.outcome_bind_of_ok _ ((Run.ofExcept_outcome _).trans hproperties),
    Run.outcome_bind_of_ok _ hpage,
    Run.outcome_bind_of_ok _ ((Run.ofExcept_outcome _).trans hinstructions),
    Run.outcome_bind_of_ok _ hlisted, Run.outcome_bind_of_ok _ (Run.log_outcome _ _ _),
    Run.outcome_bind_of_ok _ (ask_answered hbody), Run.outcome_bind_of_ok _ hreply]
  change (Plan.read (.value (notedPlan note)) >>= _).outcome = _
  rw [Run.outcome_bind_of_ok _ hread]
  rfl

/-- The file name of the plan. -/
def planFile : FileName := ⟨false, ["plan.json"]⟩

def plainBody : String :=
  "\x7b\"choices\":[\x7b\"message\":\x7b\"content\":\x7b\"a\":\x7b\"xpath\":\"b\",\"c\":null\x7d\x7d\x7d\x7d]\x7d"

theorem ofBody_plainBody :
    Completion.ofBody? plainBody = .ok (some ⟨notedPlan .null, none⟩) := by
  rw [Completion.ofBody?, Json.read]
  simp only [plainBody, String.reduceToList]
  rfl

def halfBody : String :=
  "\x7b\"choices\":[\x7b\"message\":\x7b\"content\":\x7b\"a\":\x7b\"xpath\":\"b\",\"c\":\"\\ud800\"\x7d\x7d\x7d\x7d]\x7d"

theorem ofBody_halfBody : Completion.ofBody? halfBody =
    .ok (some ⟨notedPlan (.unpaired ⟨[.half 0], rfl⟩), none⟩) := by
  rw [Completion.ofBody?, Json.read]
  simp only [halfBody, String.reduceToList]
  rfl

theorem obstacle_planFile : Files.empty.obstacle? planFile = none := by decide

/-! ### Later calls -/

/-- **A saved plan serves every later call.**  If a call where there is no file comes to a plan, then
it goes by that plan itself, and so does every call after it, in any order and for any page: none of
them asks for anything or changes the files, and each comes to what the plan comes to. -/
theorem saved_plan_serves {first : PlanCall} {fs : Files} {name : FileName} {plan : Value}
    (hnew : fs.bytes? name = none) (hplan : (first.load fs name).outcome = .ok plan) :
    (first.run fs name).outcome = first.outcomeWith plan ∧
      ∀ (between : List PlanCall) (c : PlanCall),
        let saved := fs.after (first.run fs name).events
        let now := filesAfter name saved between
        now = saved ∧ (c.run now name).requests = [] ∧
          now.after (c.run now name).events = saved ∧
          (c.run now name).outcome = c.outcomeWith plan := by
  refine ⟨run_outcome_of_load hplan, ?_⟩
  intro between c
  simp only
  obtain ⟨hhas, hsaved⟩ := savedPlan_after_load hnew hplan
  rw [files_after_run, filesAfter_of_has hhas]
  obtain ⟨hrequests, hfiles⟩ := run_of_has hhas c
  exact ⟨rfl, hrequests, hfiles, run_outcome_of_load ((load_of_has hhas c).1.trans hsaved)⟩

/-- An answer whose note is null is saved, and serves every later call. -/
theorem saved_plan_serves_plainBody :
    Files.empty.bytes? planFile = none ∧
      ((answered plainBody).load Files.empty planFile).outcome = .ok (notedPlan .null) ∧
      ((answered plainBody).run Files.empty planFile).outcome =
        (answered plainBody).outcomeWith (notedPlan .null) ∧
      ∀ (between : List PlanCall) (c : PlanCall),
        let saved := Files.empty.after ((answered plainBody).run Files.empty planFile).events
        let now := filesAfter planFile saved between
        now = saved ∧ (c.run now planFile).requests = [] ∧
          now.after (c.run now planFile).events = saved ∧
          (c.run now planFile).outcome = c.outcomeWith (notedPlan .null) := by
  have hnew : Files.empty.bytes? planFile = none := rfl
  have hplan : ((answered plainBody).load Files.empty planFile).outcome =
      .ok (notedPlan .null) := by
    obtain ⟨text, htext, hpaired⟩ : ∃ text, fileText (notedPlan .null) = .ok text ∧
        text.any Text.Letter.isHalf = false := ⟨_, rfl, rfl⟩
    exact load_outcome_of_paired (by decide) obstacle_planFile
      (draft_answered ofBody_plainBody) htext (Text.halfFault?_eq_none_iff.2 hpaired)
  exact ⟨hnew, hplan, saved_plan_serves hnew hplan⟩

/-! ### Calls that fail -/

/-- Whether a call makes a file that it cannot write: it has a draft, and nothing stands in the way
of the file, but the text of the draft has half of a surrogate pair. -/
def Spoils (c : PlanCall) (fs : Files) (name : FileName) : Prop :=
  fs.has name = false ∧ fs.obstacle? name = none ∧
    ∃ plan text, c.draft.outcome = .ok plan ∧ fileText plan = .ok text ∧
      text.any Text.Letter.isHalf = true

/-- An empty file holds no plan. -/
theorem savedPlan_empty (fs : Files) (name : FileName) :
    savedPlan (fs.put name []) name = .error (.json ⟨.expectingValue, 0, 1, 1⟩) := by
  have htext : (fs.put name []).text name = .ok "" := by
    simp [Files.text, Text.ofUtf8?, Text.utf8Chars?, Text.unifyLineBreaks]
  have hread : Json.read "" = .error (.syntaxError ⟨.expectingValue, 0, 1, 1⟩) := by rfl
  rw [savedPlan, htext]
  simp only [bind, Except.bind, hread]

end PlanCall

end PagePlan
