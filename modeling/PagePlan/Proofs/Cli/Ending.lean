/-
# How the program ends

A command line that spells no command changes nothing and ends with a code of its own.  A command
that is carried out gives out the data of its work, or is reported, or fails in a way that the
program did not foresee.  Which of these it is depends on the four parts of the command, and the
failures that are not foreseen are listed part by part.

* `Unforeseen` — what ends the program with a failure.
* `run_ends` — how the program ends, for all arguments, files and answers of the provider.
-/
import PagePlan.Proofs.Cli.Arguments
import PagePlan.Proofs.Cli.Printing

namespace PagePlan

theorem PlanSource.readText_fails {letters : List Text.Letter} {e : Failure}
    (h : readText letters = .error e) :
    (∃ problem, e = .plan problem) ∨ ∃ count, e = .tooManyDigits count := by
  unfold readText at h
  split at h
  · cases h
  · exact Or.inl ⟨_, (Except.error.inj h).symm⟩
  · exact Or.inr ⟨_, (Except.error.inj h).symm⟩

/-- A plan that is read from a value fails for its form, for a whole number in its text, or for
half of a surrogate pair. -/
theorem Plan.read_value_fails {v : Value} {e : Failure}
    (h : (Plan.read (.value v)).outcome = .error e) :
    ((∃ problem, e = .plan problem) ∨ ∃ count, e = .tooManyDigits count) ∨
      ∃ faults, e = .invalid faults := by
  rw [Plan.read_outcome, except_bind_eq_error] at h
  rcases h with h | ⟨w, -, h⟩
  · left
    cases v with
    | str s => exact PlanSource.readText_fails h
    | unpaired t => exact PlanSource.readText_fails h
    | _ => cases h
  · unfold Plan.ofValue at h
    split at h
    · split at h
      · cases h
      · exact Or.inr ⟨_, (Except.error.inj h).symm⟩
    · exact Or.inl (Or.inl ⟨_, (Except.error.inj h).symm⟩)

namespace Cli

/-! ### Work that fails -/

/-- A failure that is not reported after work with a model. -/
inductive Slip : Failure → Prop
  | wrongKind : Slip .wrongKind
  | noEntries : Slip .noEntries
  | refusedName : Slip .refusedName
  | topRemoved : Slip .topRemoved
  | noSuchEntry : Slip .noSuchEntry
  | storage (problem : StorageProblem) : Slip (.storage problem)
  | noAttempt : Slip .noAttempt
  | markup (tag : String) : Slip (.markup tag)

theorem wording?_eq_none_iff {e : Failure} : Session.wording? e = none ↔ Slip e := by
  constructor
  · intro h
    cases e <;> first | constructor | cases h
  · rintro ⟨⟩ <;> rfl

/-- A failure that is not reported after the work of a command. -/
def Stray : Verb → Failure → Prop
  | .extract, e => ExtractionFailure e ∨ ∃ faults, e = .invalid faults
  | .generate, e => Slip e
  | .scrape, e => Slip e

theorem wording?_of_stray {verb : Verb} {e : Failure} (h : Stray verb e) :
    verb.wording? e = none := by
  cases verb with
  | extract =>
    rcases h with (⟨⟩ | ⟨⟩) | ⟨faults, rfl⟩
    all_goals rfl
  | generate => exact wording?_eq_none_iff.2 h
  | scrape => exact wording?_eq_none_iff.2 h

variable {fs : Files} {c : Command} {a : Assistant}

theorem stray_of_work {document : Value} {e : Failure}
    (h : (c.work fs a document).outcome = .error e) (hwording : c.verb.wording? e = none) :
    Stray c.verb e := by
  unfold Command.work at h
  cases hverb : c.verb with
  | extract =>
    rw [hverb] at h hwording
    cases hplan : (Plan.read (.value document)).outcome with
    | error e' =>
      obtain rfl : e' = e := by
        rw [Run.outcome_bind_of_error _ hplan] at h
        exact Except.error.inj h
      rcases Plan.read_value_fails hplan with (⟨problem, rfl⟩ | ⟨count, rfl⟩) | ⟨faults, rfl⟩
      · cases hwording
      · exact Or.inl (.digits count)
      · exact Or.inr ⟨faults, rfl⟩
    | ok plan =>
      rw [Run.outcome_bind_of_ok _ hplan] at h
      exact Or.inl (extractFrom_fails h)
  | generate =>
    rw [hverb] at hwording
    exact wording?_eq_none_iff.1 hwording
  | scrape =>
    rw [hverb] at hwording
    exact wording?_eq_none_iff.1 hwording

/-! ### The ways in which a command ends -/

/-- What a command fails for without a report. -/
inductive Unforeseen (fs : Files) (c : Command) (a : Assistant) : Failure → Prop
  /-- The bytes of the document are no text. -/
  | undecodable {bytes : List UInt8} {e : Failure} : fs.bytes? c.document = some bytes →
      Text.ofUtf8? bytes = none → fs.text c.document = .error e → Unforeseen fs c a e
  /-- The document has a whole number with too many digits. -/
  | digits {source : String} {count : Nat} : fs.text c.document = .ok source →
      Json.read source = .error (.tooManyDigits count) → Unforeseen fs c a (.tooManyDigits count)
  /-- The name of the model is no markup, and a draft is announced with it. -/
  | name {source : String} {document : Value} {e : Failure} : fs.text c.document = .ok source →
      Json.read source = .ok document → c.verb = .generate →
      Markup.shown (Session.draftingLine a.name) = .error e → Unforeseen fs c a e
  /-- The work fails in a way that is not reported. -/
  | work {source : String} {document : Value} {e : Failure} : fs.text c.document = .ok source →
      Json.read source = .ok document → (Session.announce c a).run.outcome = .ok (.ok ()) →
      (c.work fs a document).outcome = .error e → Stray c.verb e → Unforeseen fs c a e
  /-- The data cannot be given out. -/
  | output {source : String} {document data : Value} {e : Failure} :
      fs.text c.document = .ok source → Json.read source = .ok document →
      (Session.announce c a).run.outcome = .ok (.ok ()) →
      (c.work fs a document).outcome = .ok data →
      Session.Hindered (fs.after (c.work fs a document).events) c.output data e →
      Unforeseen fs c a e

/-- What is reported of a command. -/
inductive Reported (fs : Files) (c : Command) (a : Assistant) : String → Prop
  /-- The document is no JSON. -/
  | notJson {source : String} {e : Json.SyntaxError} : fs.text c.document = .ok source →
      Json.read source = .error (.syntaxError e) → Reported fs c a (c.verb.documentName ++ " " ++
        c.document.text ++ " is not valid JSON: " ++ e.message)
  /-- The work fails in a way that has a wording. -/
  | work {source : String} {document : Value} {e : Failure} {text : String} :
      fs.text c.document = .ok source → Json.read source = .ok document →
      (c.work fs a document).outcome = .error e → c.verb.wording? e = some text →
      Reported fs c a text

namespace Session

/-- A command fails just for what is unforeseen, if its document is a file. -/
theorem perform_eq_failed (hfile : ∃ bytes, fs.bytes? c.document = some bytes) {e : Failure} :
    (perform fs c a).run.outcome = .error e ↔ Unforeseen fs c a e := by
  rw [perform_eq]
  constructor
  · intro h
    rcases bind_eq_failed.1 h with h | ⟨document, hdocument, h⟩
    · rcases readJson_eq_failed.1 h with h | ⟨source, count, hsource, hread, rfl⟩
      · -- the file is there, so that it can only be the bytes
        obtain ⟨bytes, hbytes⟩ := hfile
        refine .undecodable hbytes ?_ h
        cases hutf : Text.ofUtf8? bytes with
        | none => rfl
        | some cs => simp [Files.text, hbytes, hutf] at h
      · exact .digits hsource hread
    obtain ⟨source, hsource, hread⟩ := readJson_eq_given.1 hdocument
    rcases bind_eq_failed.1 h with h | ⟨_, hannounce, h⟩
    · obtain ⟨hverb, hname⟩ := announce_eq_failed.1 h
      exact .name hsource hread hverb hname
    rcases bind_eq_failed.1 h with h | ⟨data, hdata, h⟩
    · obtain ⟨hwork, hwording⟩ := guarded_eq_failed.1 h
      exact .work hsource hread hannounce hwork (stray_of_work hwork hwording)
    · exact .output hsource hread hannounce (guarded_eq_given.1 hdata) (emit_eq_failed.1 h)
  · intro h
    cases h with
    | undecodable _ _ htext =>
      exact bind_eq_failed.2 (Or.inl (readJson_eq_failed.2 (Or.inl htext)))
    | digits hsource hread =>
      refine bind_eq_failed.2 (Or.inl (readJson_eq_failed.2 (Or.inr ⟨_, _, hsource, hread, rfl⟩)))
    | name hsource hread hverb hname =>
      refine bind_eq_failed.2 (Or.inr ⟨_, readJson_eq_given.2 ⟨_, hsource, hread⟩, ?_⟩)
      exact bind_eq_failed.2 (Or.inl (announce_eq_failed.2 ⟨hverb, hname⟩))
    | work hsource hread hannounce hwork hstray =>
      refine bind_eq_failed.2 (Or.inr ⟨_, readJson_eq_given.2 ⟨_, hsource, hread⟩, ?_⟩)
      refine bind_eq_failed.2 (Or.inr ⟨(), hannounce, bind_eq_failed.2 (Or.inl ?_)⟩)
      exact guarded_eq_failed.2 ⟨hwork, wording?_of_stray hstray⟩
    | output hsource hread hannounce hwork hhindered =>
      refine bind_eq_failed.2 (Or.inr ⟨_, readJson_eq_given.2 ⟨_, hsource, hread⟩, ?_⟩)
      refine bind_eq_failed.2 (Or.inr ⟨(), hannounce, bind_eq_failed.2 (Or.inr ?_)⟩)
      exact ⟨_, guarded_eq_given.2 hwork, emit_eq_failed.2 hhindered⟩

/-- What is reported ends the command before anything is given out. -/
theorem reported_of_perform {text : String}
    (h : (perform fs c a).run.outcome = .ok (.error text)) :
    Reported fs c a text ∧ outputOfAll (perform fs c a).run.events = "" ∧
      ∀ name : FileName, (∀ plan ∈ c.cache, plan.normal ≠ name.normal) →
        (fs.after (perform fs c a).run.events).bytes? name = fs.bytes? name := by
  rw [perform_eq] at h ⊢
  rcases bind_eq_reported.1 h with h | ⟨document, hdocument, h⟩
  · rw [events_bind_of_reported h, readJson_events]
    obtain ⟨source, e, hsource, hread, rfl⟩ := readJson_eq_reported h
    exact ⟨.notJson hsource hread, rfl, fun _ _ => rfl⟩
  rw [events_bind_of_given hdocument, readJson_events, List.nil_append]
  rcases bind_eq_reported.1 h with h | ⟨_, hannounce, h⟩
  · exact absurd h announce_ne_reported
  rw [events_bind_of_given hannounce]
  rcases bind_eq_reported.1 h with h | ⟨data, -, h⟩
  · obtain ⟨source, hsource, hread⟩ := readJson_eq_given.1 hdocument
    obtain ⟨e, hwork, hwording⟩ := guarded_eq_reported.1 h
    rw [events_bind_of_reported h, guarded_events]
    -- the announcement and the work are all that happens
    have hemits := c.work_emits fs a document
    refine ⟨.work hsource hread hwork hwording, ?_, fun name hname => ?_⟩
    · rw [outputOfAll_append, outputOfAll_of_printsNothing (announce_emits c a _ fun _ => rfl),
        outputOfAll_of_printsNothing (c.work_printsNothing fs a document),
        String.empty_append]
    · have hannounced := Files.after_of_savesNothing fs (announce_emits c a _ fun _ => rfl)
      rw [Files.after] at hannounced
      rw [Files.after, List.foldl_append, hannounced]
      exact Files.bytes?_after_of_savesOnly hemits hname fs
  · exact absurd h emit_ne_reported

end Session

/-! ### The ways in which the program ends -/

/-- The program gives out the data of the work. -/
structure Completes (fs : Files) (c : Command) (a : Assistant) (result : Exit × List Event) :
    Prop where
  code : result.1.code = 0
  crash : result.1.crash = none
  leaves : ∃ source document data text, fs.text c.document = .ok source ∧
    Json.read source = .ok document ∧ (c.work fs a document).outcome = .ok data ∧
    Json.write? .unicode data = some (Text.letters text.toList) ∧
    Leaves fs c.output result (text ++ lineEnd c.output)

/-- The program ends with a report.  Nothing is printed, and no file is changed but that of a
plan. -/
structure Reports (fs : Files) (c : Command) (a : Assistant) (result : Exit × List Event) :
    Prop where
  code : result.1.code = 1
  crash : result.1.crash = none
  output : result.1.output = ""
  errors : ∃ before text, Reported fs c a text ∧ result.1.errors = before ++ reported text
  keeps : ∀ name : FileName, (∀ plan ∈ c.cache, plan.normal ≠ name.normal) →
    (fs.after result.2).bytes? name = fs.bytes? name

/-- The program does not carry a command out: it shows help, or says what is wrong. -/
structure Stops (stop : Stop) (result : Exit × List Event) : Prop where
  events : result.2 = []
  crash : result.1.crash = none
  code : (∃ verb, stop = .help verb) ∧ result.1.code = 0 ∨
    result.1.code = 2 ∧ result.1.output = "" ∧ result.1.errors ≠ ""

/-- How a command that is carried out ends. -/
inductive Ends (fs : Files) (c : Command) (a : Assistant) (result : Exit × List Event) : Prop
  | crash {e : Failure} : Unforeseen fs c a e → result.1.crash = some e → result.1.code = 1 →
      Ends fs c a result
  | clean : (∀ e, ¬Unforeseen fs c a e) → Completes fs c a result ∨ Reports fs c a result →
      Ends fs c a result

theorem stops_ofStop (stop : Stop) : Stops stop (.ofStop stop, []) := by
  cases stop with
  | help verb => exact ⟨rfl, rfl, Or.inl ⟨⟨verb, rfl⟩, rfl⟩⟩
  | nothing => exact ⟨rfl, rfl, Or.inr ⟨rfl, rfl, by simp [Exit.ofStop]⟩⟩
  | usage verb problem => exact ⟨rfl, rfl, Or.inr ⟨rfl, rfl, by simp [Exit.ofStop, reported]⟩⟩

theorem ends_perform (hfile : ∃ bytes, fs.bytes? c.document = some bytes)
    (threshold : Journal.Level) :
    Ends fs c a (concluded threshold (Session.perform fs c a).run) := by
  have hfailed {e : Failure} := Session.perform_eq_failed hfile (c := c) (a := a) (e := e)
  cases h : (Session.perform fs c a).run.outcome with
  | error e =>
    refine .crash (hfailed.1 h) ?_ ?_
    · rw [concluded, Exit.ofRun, h]
    · rw [concluded, Exit.ofRun, h]
  | ok ending =>
    refine .clean (fun e he => ?_) ?_
    · rw [hfailed.2 he] at h
      cases h
    · cases ending with
      | ok u =>
        refine Or.inl ⟨?_, ?_, exists_left_of_given threshold h⟩
        · rw [concluded, Exit.ofRun, h]
        · rw [concluded, Exit.ofRun, h]
      | error text =>
        obtain ⟨hreported, houtput, hkeeps⟩ := Session.reported_of_perform h
        have herrors : (Exit.ofRun threshold (Session.perform fs c a).run).errors = String.join
            ((Session.perform fs c a).run.events.map (errorsOf threshold)) ++ reported text := by
          rw [Exit.ofRun, h]
        refine Or.inr ⟨?_, ?_, (Exit.ofRun_output _ _).trans houtput,
          ⟨_, text, hreported, herrors⟩, hkeeps⟩
        · rw [concluded, Exit.ofRun, h]
        · rw [concluded, Exit.ofRun, h]

/-- A byte that is no text ends the extraction with a failure. -/
example (a : Assistant) :
    Unforeseen (Files.empty.put ⟨false, ["plan.json"]⟩ [0xFF]) bareInvocation.command a
      (.notUtf8 ⟨.invalidStart, 0xFF, 0, 1⟩) :=
  .undecodable rfl rfl rfl

end Cli

end PagePlan
