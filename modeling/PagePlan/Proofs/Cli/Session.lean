/-
# The parts of a session

A part of a session ends with a result, with a report to the user, or with a failure that is not
reported.  The three commands go through the same four parts: the document is read, a draft is
announced, the work is done, and what came of it is given out.  For each part it is said here
when it ends in which way and what its events are.

* `perform_eq` — a command is its four parts, one after the other.
* `emit_eq_failed` — what keeps data from being given out.
-/
import PagePlan.Cli.Session
import PagePlan.Proofs.Plan.Failing
import PagePlan.Proofs.Scrape.Cache

namespace PagePlan.Cli

open Text (Letter letters)

/-! ### The work of commands -/

/-- What the document of a command is called in reports. -/
def Verb.documentName : Verb → String
  | extract => "Schema"
  | generate => "Requirements"
  | scrape => "Requirements"

/-- How a failure of the work is reported; none if it is not. -/
def Verb.wording? : Verb → Failure → Option String
  | extract => Session.planWording?
  | generate => Session.wording?
  | scrape => Session.wording?

/-- The data that a command finds, or the plan that it drafts. -/
def Command.work (fs : Files) (c : Command) (a : Assistant) (document : Value) : Run Value :=
  match c.verb with
  | .extract => do (← Plan.read (.value document)).extractFrom (Session.page fs c)
  | .generate => a.draft (Session.page fs c) (.document document) (some Assistant.sampleItems)
  | .scrape => a.scrape fs (Session.page fs c) (.document document) c.cache

namespace Session

/-- Only a draft is announced. -/
def announce (c : Command) (a : Assistant) : Session Unit :=
  match c.verb with
  | .generate => notice (draftingLine a.name)
  | _ => pure ()

variable {α β : Type}

/-! ### Two parts -/

theorem run_bind (s : Session α) (f : α → Session β) :
    (s >>= f).run = s.run >>= fun
      | .ok a => (f a).run
      | .error text => pure (.error text) := by
  change s.run >>= ExceptT.bindCont f = _
  congr 1
  funext x
  cases x <;> rfl

section Bind

variable {s : Session α} {f : α → Session β}

theorem bind_eq_given {b : β} : (s >>= f).run.outcome = .ok (.ok b) ↔
    ∃ a, s.run.outcome = .ok (.ok a) ∧ (f a).run.outcome = .ok (.ok b) := by
  rw [run_bind, Run.outcome_bind_eq_ok]
  constructor
  · rintro ⟨x, hx, h⟩
    cases x with
    | ok a => exact ⟨a, hx, h⟩
    | error text => cases h
  · rintro ⟨a, ha, h⟩
    exact ⟨.ok a, ha, h⟩

theorem bind_eq_reported {text : String} : (s >>= f).run.outcome = .ok (.error text) ↔
    s.run.outcome = .ok (.error text) ∨
      ∃ a, s.run.outcome = .ok (.ok a) ∧ (f a).run.outcome = .ok (.error text) := by
  rw [run_bind, Run.outcome_bind_eq_ok]
  constructor
  · rintro ⟨x, hx, h⟩
    cases x with
    | ok a => exact Or.inr ⟨a, hx, h⟩
    | error text' =>
      obtain rfl := Except.error.inj (Except.ok.inj h)
      exact Or.inl hx
  · rintro (h | ⟨a, ha, h⟩)
    · exact ⟨.error text, h, rfl⟩
    · exact ⟨.ok a, ha, h⟩

theorem bind_eq_failed {e : Failure} : (s >>= f).run.outcome = .error e ↔
    s.run.outcome = .error e ∨
      ∃ a, s.run.outcome = .ok (.ok a) ∧ (f a).run.outcome = .error e := by
  rw [run_bind]
  cases h : s.run.outcome with
  | error e' => simp [Run.outcome_bind_of_error _ h]
  | ok x =>
    rw [Run.outcome_bind_of_ok _ h]
    cases x with
    | ok a => simp
    | error text => simp

theorem events_bind_of_given {a : α} (h : s.run.outcome = .ok (.ok a)) :
    (s >>= f).run.events = s.run.events ++ (f a).run.events := by
  rw [run_bind, Run.events_bind_of_ok _ h]

theorem events_bind_of_reported {text : String} (h : s.run.outcome = .ok (.error text)) :
    (s >>= f).run.events = s.run.events := by
  rw [run_bind, Run.events_bind_of_ok _ h, Run.pure_events, List.append_nil]

theorem events_bind_of_failed {e : Failure} (h : s.run.outcome = .error e) :
    (s >>= f).run.events = s.run.events := by
  rw [run_bind, Run.events_bind_of_error _ h]

end Bind

/-! ### Parts that are not guarded -/

theorem ofRun_outcome (r : Run α) : (ofRun r).run.outcome = r.outcome.map Except.ok := by
  cases r with
  | mk events outcome => cases outcome <;> rfl

theorem ofRun_events (r : Run α) : (ofRun r).run.events = r.events := by
  cases r with
  | mk events outcome =>
    cases outcome with
    | ok a => exact List.append_nil events
    | error e => rfl

variable {r : Run α}

theorem ofRun_eq_given {a : α} : (ofRun r).run.outcome = .ok (.ok a) ↔ r.outcome = .ok a := by
  rw [ofRun_outcome]
  cases r.outcome <;> simp [Except.map]

theorem ofRun_ne_reported {text : String} : (ofRun r).run.outcome ≠ .ok (.error text) := by
  rw [ofRun_outcome]
  cases r.outcome <;> simp [Except.map]

theorem ofRun_eq_failed {e : Failure} :
    (ofRun r).run.outcome = .error e ↔ r.outcome = .error e := by
  rw [ofRun_outcome]
  cases r.outcome <;> simp [Except.map]

/-! ### Guarded parts -/

section Guarded

variable {wording : Failure → Option String}

theorem run_guarded : (guarded wording r).run =
    ⟨r.events, match r.outcome with
      | .ok a => .ok (.ok a)
      | .error e =>
        match wording e with
        | some text => .ok (.error text)
        | none => .error e⟩ := by
  rw [guarded, run_bind]
  refine Run.ext ?_ ?_
  · rw [Run.events_bind_of_ok _ (ofRun_eq_given.2 rfl), ofRun_events]
    cases r.outcome with
    | ok a => exact List.append_nil _
    | error e =>
      simp only
      cases wording e <;> exact List.append_nil _
  · rw [Run.outcome_bind_of_ok _ (ofRun_eq_given.2 rfl)]
    cases r.outcome with
    | ok a => rfl
    | error e =>
      simp only
      cases wording e <;> rfl

theorem guarded_events : (guarded wording r).run.events = r.events := by
  rw [run_guarded]

theorem guarded_eq_given {a : α} :
    (guarded wording r).run.outcome = .ok (.ok a) ↔ r.outcome = .ok a := by
  rw [run_guarded]
  cases r.outcome with
  | ok a => simp
  | error e => cases h : wording e <;> simp [h]

theorem guarded_eq_reported {text : String} :
    (guarded wording r).run.outcome = .ok (.error text) ↔
      ∃ e, r.outcome = .error e ∧ wording e = some text := by
  rw [run_guarded]
  cases r.outcome with
  | ok a => simp
  | error e => cases h : wording e <;> simp [h]

theorem guarded_eq_failed {e : Failure} :
    (guarded wording r).run.outcome = .error e ↔ r.outcome = .error e ∧ wording e = none := by
  rw [run_guarded]
  cases r.outcome with
  | ok a => simp
  | error e' =>
    cases h : wording e' with
    | some text =>
      simp only [h, Except.error.injEq, reduceCtorEq, false_iff, not_and]
      rintro rfl
      simp [h]
    | none =>
      simp only [h, Except.error.injEq]
      constructor
      · rintro rfl
        exact ⟨rfl, h⟩
      · exact And.left

/-- It makes no difference whether a part that fails without a report is guarded. -/
theorem guarded_bind {f : α → Run β} (h : ∀ a e, (f a).outcome = .error e → wording e = none) :
    guarded wording (r >>= f) = guarded wording r >>= fun a => ofRun (f a) := by
  refine ExceptT.ext (Run.ext ?_ ?_)
  · rw [guarded_events]
    cases hr : r.outcome with
    | ok a =>
      rw [Run.events_bind_of_ok f hr, events_bind_of_given (guarded_eq_given.2 hr), guarded_events,
        ofRun_events]
    | error e =>
      rw [Run.events_bind_of_error f hr]
      cases hw : wording e with
      | some text =>
        rw [events_bind_of_reported (guarded_eq_reported.2 ⟨e, hr, hw⟩), guarded_events]
      | none => rw [events_bind_of_failed (guarded_eq_failed.2 ⟨hr, hw⟩), guarded_events]
  · cases hr : r.outcome with
    | ok a =>
      rw [run_guarded, Run.outcome_bind_of_ok f hr, run_bind,
        Run.outcome_bind_of_ok _ (guarded_eq_given.2 hr)]
      simp only
      rw [ofRun_outcome]
      cases hf : (f a).outcome with
      | ok b => rfl
      | error e =>
        -- the guard has no wording for what the second part fails for, and lets it through
        simp only [h a e hf]
        rfl
    | error e =>
      have hbind := Run.outcome_bind_of_error f hr
      cases hw : wording e with
      | some text =>
        rw [guarded_eq_reported.2 ⟨e, hbind, hw⟩,
          bind_eq_reported.2 (Or.inl (guarded_eq_reported.2 ⟨e, hr, hw⟩))]
      | none =>
        rw [guarded_eq_failed.2 ⟨hbind, hw⟩,
          bind_eq_failed.2 (Or.inl (guarded_eq_failed.2 ⟨hr, hw⟩))]

end Guarded

/-! ### Reading the document -/

section ReadJson

variable {fs : Files} {name : FileName} {what : String}

theorem readJson_events : (readJson fs name what).run.events = [] := by
  rw [readJson, run_bind]
  cases htext : fs.text name with
  | error e => rfl
  | ok text =>
    rw [Run.events_bind_of_ok _ (ofRun_eq_given.2 (Run.ofExcept_outcome _))]
    simp only
    cases Json.read text with
    | ok v => rfl
    | error problem => cases problem <;> rfl

theorem readJson_outcome_of_error {e : Failure} (h : fs.text name = .error e) :
    (readJson fs name what).run.outcome = .error e := by
  rw [readJson, h]
  rfl

theorem readJson_outcome_of_ok {text : String} (h : fs.text name = .ok text) :
    (readJson fs name what).run.outcome = match Json.read text with
      | .ok v => .ok (.ok v)
      | .error (.syntaxError e) =>
        .ok (.error (what ++ " " ++ name.text ++ " is not valid JSON: " ++ e.message))
      | .error (.tooManyDigits count) => .error (.tooManyDigits count) := by
  rw [readJson, h]
  rw [run_bind, Run.outcome_bind_of_ok _ (ofRun_eq_given.2 (Run.ofExcept_outcome _))]
  simp only
  cases Json.read text with
  | ok v => rfl
  | error problem => cases problem <;> rfl

theorem readJson_eq_given {v : Value} : (readJson fs name what).run.outcome = .ok (.ok v) ↔
    ∃ text, fs.text name = .ok text ∧ Json.read text = .ok v := by
  cases htext : fs.text name with
  | error e => simp [readJson_outcome_of_error htext]
  | ok text =>
    rw [readJson_outcome_of_ok htext]
    cases hread : Json.read text with
    | ok w => simp [hread]
    | error problem => cases problem <;> simp [hread]

theorem readJson_eq_failed {e : Failure} : (readJson fs name what).run.outcome = .error e ↔
    fs.text name = .error e ∨ ∃ text count, fs.text name = .ok text ∧
      Json.read text = .error (.tooManyDigits count) ∧ e = .tooManyDigits count := by
  cases htext : fs.text name with
  | error e' => simp [readJson_outcome_of_error htext]
  | ok text =>
    rw [readJson_outcome_of_ok htext]
    cases hread : Json.read text with
    | ok w => simp [hread]
    | error problem => cases problem <;> simp [hread, eq_comm]

theorem readJson_eq_reported {text : String}
    (h : (readJson fs name what).run.outcome = .ok (.error text)) :
    ∃ source e, fs.text name = .ok source ∧ Json.read source = .error (.syntaxError e) ∧
      text = what ++ " " ++ name.text ++ " is not valid JSON: " ++ e.message := by
  cases htext : fs.text name with
  | error e =>
    rw [readJson_outcome_of_error htext] at h
    cases h
  | ok source =>
    rw [readJson_outcome_of_ok htext] at h
    split at h
    · cases h
    · next e hread => exact ⟨source, e, rfl, hread, (Except.error.inj (Except.ok.inj h)).symm⟩
    · cases h

end ReadJson

/-! ### Notices -/

section Notice

variable {marked : String}

theorem notice_of_ok {line : String} (h : Markup.shown marked = .ok line) :
    (notice marked).run = ⟨[.notice line], .ok (.ok ())⟩ := by
  rw [notice, h]
  rfl

theorem notice_of_error {e : Failure} (h : Markup.shown marked = .error e) :
    (notice marked).run = ⟨[], .error e⟩ := by
  rw [notice, h]
  rfl

theorem notice_eq_failed {e : Failure} :
    (notice marked).run.outcome = .error e ↔ Markup.shown marked = .error e := by
  cases h : Markup.shown marked with
  | ok line => simp [notice_of_ok h]
  | error e' => simp [notice_of_error h]

theorem notice_ne_reported {text : String} :
    (notice marked).run.outcome ≠ .ok (.error text) := by
  cases h : Markup.shown marked with
  | ok line => simp [notice_of_ok h]
  | error e' => simp [notice_of_error h]

end Notice

/-! ### Announcing a draft -/

section Announce

variable (c : Command) (a : Assistant)

/-- A notice is shown, and nothing is printed or saved. -/
theorem announce_emits (p : Event → Bool)
    (hp : ∀ line, p (.notice line) = true) : (announce c a).run.Emits p := by
  unfold announce
  split
  · cases h : Markup.shown (draftingLine a.name) with
    | ok line =>
      rw [notice_of_ok h]
      exact Run.emits_emit (hp line)
    | error e =>
      rw [notice_of_error h]
      exact Run.emits_fail e
  · exact Run.emits_pure _

variable {c a}

theorem announce_ne_reported {text : String} :
    (announce c a).run.outcome ≠ .ok (.error text) := by
  unfold announce
  split
  · exact notice_ne_reported
  · nofun

theorem announce_eq_failed {e : Failure} : (announce c a).run.outcome = .error e ↔
    c.verb = .generate ∧ Markup.shown (draftingLine a.name) = .error e := by
  unfold announce
  cases c.verb with
  | generate => simp [notice_eq_failed]
  | _ => simp

end Announce

/-! ### Giving data out -/

/-- What keeps data from being given out. -/
inductive Hindered (fs : Files) (output : Option FileName) (data : Value) : Failure → Prop
  /-- Something has no text. -/
  | unwritable : Json.write? .unicode data = none → Hindered fs output data .wrongKind
  /-- Something stands in the way of the file. -/
  | obstacle {text : List Letter} {name : FileName} {problem : StorageProblem} :
      Json.write? .unicode data = some text → output = some name →
      fs.obstacle? name = some problem → Hindered fs output data (.storage problem)
  /-- A text in the data has half of a surrogate pair. -/
  | half {text : List Letter} {fault : Text.HalfFault} : Json.write? .unicode data = some text →
      (∀ name ∈ output, fs.obstacle? name = none) → Text.halfFault? text = some fault →
      Hindered fs output data (.unencodable fault)
  /-- The name of the file is no markup. -/
  | markup {text : List Letter} {name : FileName} {e : Failure} :
      Json.write? .unicode data = some text → output = some name →
      fs.obstacle? name = none → Text.halfFault? text = none →
      Markup.shown (writtenLine name) = .error e → Hindered fs output data e

section Emit

variable {fs : Files} {name : FileName} {text : List Letter} {data : Value}
  {output : Option FileName} {e : Failure}

theorem fileText_eq_ok : fileText data = .ok text ↔ Json.write? .unicode data = some text := by
  rw [fileText]
  cases Json.write? .unicode data <;> simp

theorem fileText_eq_error :
    fileText data = .error e ↔ Json.write? .unicode data = none ∧ e = .wrongKind := by
  rw [fileText]
  cases Json.write? .unicode data <;> simp [eq_comm]

theorem save_eq_failed : (Run.save fs name text).outcome = .error e ↔
    (∃ problem, fs.obstacle? name = some problem ∧ e = .storage problem) ∨
      fs.obstacle? name = none ∧ ∃ fault, Text.halfFault? text = some fault ∧
        e = .unencodable fault := by
  unfold Run.save
  cases fs.obstacle? name with
  | some problem => simp [Run.fail, eq_comm]
  | none =>
    cases Text.halfFault? text with
    | none => simp [Run.emit]
    | some fault => simp [Run.bind, Run.emit, Run.fail, eq_comm]

theorem save_of_fit (hplace : fs.obstacle? name = none) (hpaired : Text.halfFault? text = none) :
    Run.save fs name text =
      ⟨[.save name (String.ofList (text.filterMap Letter.char?))], .ok ()⟩ := by
  simp only [Run.save, hplace, hpaired]
  rfl

/-- Prints a text, or saves it. -/
def give (fs : Files) (output : Option FileName) (text : List Letter) : Session Unit :=
  match output with
  | none =>
    match Text.halfFault? text with
    | none => ofRun (Run.emit (.print (String.ofList (text.filterMap Letter.char?))))
    | some fault => ofRun (Run.fail (.unencodable fault))
  | some name => ofRun (Run.save fs name text) >>= fun _ => notice (writtenLine name)

/-- To give data out is to write them and to give the text out. -/
theorem emit_eq (fs : Files) (data : Value) (output : Option FileName) :
    emit fs data output = ofRun (Run.ofExcept (fileText data)) >>= give fs output := by
  cases output <;> rfl

/-- What keeps a written text from being given out. -/
theorem hindered_of_give (hwrite : Json.write? .unicode data = some text)
    (h : (give fs output text).run.outcome = .error e) : Hindered fs output data e := by
  cases output with
  | none =>
    rw [give] at h
    cases hhalf : Text.halfFault? text with
    | none =>
      rw [hhalf] at h
      cases h
    | some fault =>
      rw [hhalf] at h
      obtain rfl := Except.error.inj (ofRun_eq_failed.1 h)
      exact .half hwrite (by simp) hhalf
  | some name =>
    rcases bind_eq_failed.1 h with h | ⟨_, hsaved, h⟩
    · rcases save_eq_failed.1 (ofRun_eq_failed.1 h) with
        ⟨problem, hplace, rfl⟩ | ⟨hplace, fault, hhalf, rfl⟩
      · exact .obstacle hwrite rfl hplace
      · exact .half hwrite (by simpa using hplace) hhalf
    · -- the text is in its file, and only the notice about it is left
      obtain ⟨hplace, hhalf⟩ := PlanCall.save_outcome_eq_ok (ofRun_eq_given.1 hsaved)
      exact .markup hwrite rfl hplace hhalf (notice_eq_failed.1 h)

theorem give_of_half {fault : Text.HalfFault} (hplace : ∀ name ∈ output, fs.obstacle? name = none)
    (hhalf : Text.halfFault? text = some fault) :
    (give fs output text).run.outcome = .error (.unencodable fault) := by
  cases output with
  | none =>
    rw [give, hhalf]
    rfl
  | some name =>
    refine bind_eq_failed.2 (Or.inl (ofRun_eq_failed.2 (save_eq_failed.2 (Or.inr ?_))))
    exact ⟨hplace name rfl, fault, hhalf, rfl⟩

/-- Data are given out unless something keeps them from it. -/
theorem emit_eq_failed :
    (emit fs data output).run.outcome = .error e ↔ Hindered fs output data e := by
  have hwritten {text : List Letter} (h : Json.write? .unicode data = some text) :
      (ofRun (Run.ofExcept (fileText data))).run.outcome = .ok (.ok text) :=
    ofRun_eq_given.2 ((Run.ofExcept_outcome _).trans (fileText_eq_ok.2 h))
  rw [emit_eq]
  constructor
  · intro h
    rcases bind_eq_failed.1 h with h | ⟨text, htext, h⟩
    · rw [ofRun_eq_failed, Run.ofExcept_outcome, fileText_eq_error] at h
      obtain ⟨hwrite, rfl⟩ := h
      exact .unwritable hwrite
    · rw [ofRun_eq_given, Run.ofExcept_outcome, fileText_eq_ok] at htext
      exact hindered_of_give htext h
  · intro h
    cases h with
    | unwritable hwrite =>
      refine bind_eq_failed.2 (Or.inl (ofRun_eq_failed.2 ?_))
      exact (Run.ofExcept_outcome _).trans (fileText_eq_error.2 ⟨hwrite, rfl⟩)
    | obstacle hwrite hname hplace =>
      subst hname
      refine bind_eq_failed.2 (Or.inr ⟨_, hwritten hwrite, bind_eq_failed.2 (Or.inl ?_)⟩)
      exact ofRun_eq_failed.2 (save_eq_failed.2 (Or.inl ⟨_, hplace, rfl⟩))
    | half hwrite hplace hhalf =>
      exact bind_eq_failed.2 (Or.inr ⟨_, hwritten hwrite, give_of_half hplace hhalf⟩)
    | markup hwrite hname hplace hhalf hmarkup =>
      subst hname
      refine bind_eq_failed.2 (Or.inr ⟨_, hwritten hwrite, bind_eq_failed.2 (Or.inr ⟨(), ?_, ?_⟩)⟩)
      · rw [save_of_fit hplace hhalf, ofRun_eq_given]
      · exact notice_eq_failed.2 hmarkup

theorem give_ne_reported {report : String} :
    (give fs output text).run.outcome ≠ .ok (.error report) := by
  intro h
  cases output with
  | none =>
    rw [give] at h
    split at h
    · exact ofRun_ne_reported h
    · exact ofRun_ne_reported h
  | some name =>
    rcases bind_eq_reported.1 h with h | ⟨-, -, h⟩
    · exact ofRun_ne_reported h
    · exact notice_ne_reported h

theorem emit_ne_reported {report : String} :
    (emit fs data output).run.outcome ≠ .ok (.error report) := by
  intro h
  rw [emit_eq] at h
  rcases bind_eq_reported.1 h with h | ⟨text, -, h⟩
  · exact ofRun_ne_reported h
  · exact give_ne_reported h

/-- A text of whole characters can be printed. -/
theorem emit_print {text : String} (h : Json.write? .unicode data = some (letters text.toList)) :
    (emit fs data none).run.outcome = .ok (.ok ()) := by
  have hhalf : Text.halfFault? (letters text.toList) = none :=
    Text.halfFault?_eq_none_iff.2 (Text.any_isHalf_letters _)
  rw [emit_eq]
  refine bind_eq_given.2 ⟨_, ofRun_eq_given.2 ((Run.ofExcept_outcome _).trans
    (fileText_eq_ok.2 h)), ?_⟩
  rw [give, hhalf]
  rfl

/-- The events by which a text is given out. -/
def GivesOut (output : Option FileName) (text : String) (events : List Event) : Prop :=
  match output with
  | none => events = [.print text]
  | some name => ∃ line, events = [.save name text, .notice line]

/-- A text that is given out has whole characters only, and these are given out. -/
theorem givesOut_of_give (h : (give fs output text).run.outcome = .ok (.ok ())) :
    Text.halfFault? text = none ∧ GivesOut output
      (String.ofList (text.filterMap Letter.char?)) (give fs output text).run.events := by
  cases output with
  | none =>
    cases hhalf : Text.halfFault? text with
    | some fault =>
      rw [give, hhalf] at h
      cases h
    | none =>
      refine ⟨rfl, ?_⟩
      rw [give, hhalf]
      rfl
  | some name =>
    obtain ⟨_, hsaved, h⟩ := bind_eq_given.1 h
    obtain ⟨hplace, hhalf⟩ := PlanCall.save_outcome_eq_ok (ofRun_eq_given.1 hsaved)
    refine ⟨hhalf, ?_⟩
    cases hline : Markup.shown (writtenLine name) with
    | error e =>
      rw [notice_of_error hline] at h
      cases h
    | ok line =>
      rw [give, events_bind_of_given hsaved, ofRun_events, save_of_fit hplace hhalf,
        notice_of_ok hline]
      exact ⟨line, rfl⟩

/-- Data that are given out are written, and the text is printed or saved as it is. -/
theorem exists_text_of_emit (h : (emit fs data output).run.outcome = .ok (.ok ())) :
    ∃ text : String, Json.write? .unicode data = some (letters text.toList) ∧
      GivesOut output text (emit fs data output).run.events := by
  rw [emit_eq] at h ⊢
  obtain ⟨text, htext, h⟩ := bind_eq_given.1 h
  rw [events_bind_of_given htext, ofRun_events, Run.ofExcept_events, List.nil_append]
  rw [ofRun_eq_given, Run.ofExcept_outcome, fileText_eq_ok] at htext
  obtain ⟨hhalf, hgives⟩ := givesOut_of_give h
  refine ⟨_, ?_, hgives⟩
  rw [htext, String.toList_ofList,
    Text.letters_filterMap_char? (Text.halfFault?_eq_none_iff.1 hhalf)]

end Emit

/-! ### Whole commands -/

/-- **A command reads its document, announces a draft, does its work and gives out what came of
it.** -/
theorem perform_eq (fs : Files) (c : Command) (a : Assistant) :
    perform fs c a = (do
      let document ← readJson fs c.document c.verb.documentName
      announce c a
      let data ← guarded c.verb.wording? (c.work fs a document)
      emit (fs.after (c.work fs a document).events) data c.output) := by
  rw [perform]
  cases hverb : c.verb with
  | extract =>
    have hwork (saved : Value) : c.work fs a saved =
        Plan.read (.value saved) >>= fun plan => plan.extractFrom (page fs c) := by
      rw [Command.work, hverb]
    have hlook (saved : Value) : (c.work fs a saved).Emits Event.savesNothing := by
      rw [hwork]
      exact (PagePlan.extract_emits (page fs c) (.value saved)).calls.savesNothing
    -- reading the plan is guarded and extraction is not, but no failure of the latter has a wording
    have hguarded (saved : Value) : guarded planWording? (c.work fs a saved) =
        guarded planWording? (Plan.read (.value saved)) >>= fun plan =>
          ofRun (plan.extractFrom (page fs c)) := by
      rw [hwork]
      exact guarded_bind fun plan e he => by cases extractFrom_fails he <;> rfl
    simp only [announce, hverb, Verb.wording?, hguarded, fun saved =>
      Files.after_of_savesNothing fs (hlook saved), pure_bind, bind_assoc]
    rfl
  | generate =>
    have hwork (requirements : Value) : c.work fs a requirements =
        a.draft (page fs c) (.document requirements) (some Assistant.sampleItems) := by
      rw [Command.work, hverb]
    simp only [announce, hverb, Verb.wording?, hwork, fun requirements =>
      Files.after_of_savesNothing fs (a.draft_emits (page fs c) (.document requirements)
        (some Assistant.sampleItems)).savesNothing]
    rfl
  | scrape =>
    simp only [announce, hverb, Verb.wording?, Command.work, pure_bind]
    rfl

end Session

end PagePlan.Cli
