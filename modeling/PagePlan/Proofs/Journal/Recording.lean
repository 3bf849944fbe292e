/-
# What is recorded over time

Which sinks there are is told by the last setup alone: the sinks of others in the order in which
they were attached, and one of the journal's own between those attached before that setup and those
attached after it.  An entry that reaches the threshold of that setup is delivered once to each of
them, and the text of a stream is at any time what was delivered to it so far, in order.

* `Sinks.text_write` — an entry adds to each stream what is delivered to it.
* `Recorder.text_run` — so do all steps of a run.
* `Recorder.run_setUp` — what a run after a setup delivers, and where.
-/
import PagePlan.Journal.Recorder

namespace PagePlan.Journal

/-! ### Deliveries -/

/-- What a sink writes, and to which stream. -/
structure Delivery where
  stream : Nat
  text : String
deriving DecidableEq, Repr

/-- What some deliveries bring to a stream, in order. -/
def received (k : Nat) (ds : List Delivery) : String :=
  String.join ((ds.filter (·.stream = k)).map Delivery.text)

section Received

variable {k : Nat} {d : Delivery} {ds : List Delivery}

@[simp] theorem received_nil (k : Nat) : received k [] = "" := rfl

theorem received_append (k : Nat) (ds ds' : List Delivery) :
    received k (ds ++ ds') = received k ds ++ received k ds' := by
  simp [received]

theorem received_cons (k : Nat) (d : Delivery) (ds : List Delivery) :
    received k (d :: ds) = (if d.stream = k then d.text else "") ++ received k ds := by
  by_cases h : d.stream = k <;> simp [received, h]

theorem received_of_forall_ne (h : ∀ d ∈ ds, d.stream ≠ k) : received k ds = "" := by
  have hnone : ds.filter (·.stream = k) = [] := by
    simpa [List.filter_eq_nil_iff] using h
  rw [received, hnone]
  rfl

end Received

/-- What a sink delivers for an entry. -/
def Sink.deliver (s : Sink) (e : Entry) : Delivery := ⟨s.stream, s.write e⟩

namespace Sinks

variable {s : Sinks} {stream k : Nat}

/-- What is delivered for an entry. -/
def deliveries (s : Sinks) (e : Entry) : List Delivery :=
  if e.reaches s.threshold then s.sinks.map (·.deliver e) else []

/-- The text of a stream; one that was not used yet is empty. -/
def text (s : Sinks) (k : Nat) : String := s.streams[k]?.getD ""

/-- All sinks have their streams. -/
def InRange (s : Sinks) : Prop := ∀ sink ∈ s.sinks, sink.stream < s.streams.length

/-! ### Sinks that are added -/

@[simp] theorem text_addOn (s : Sinks) (own : Bool) (stream k : Nat) :
    (s.addOn own stream).text k = s.text k := by
  by_cases h : k < s.streams.length
  · simp [text, addOn, reserve, List.getElem?_append_left h]
  · have hnone : s.streams[k]? = none := List.getElem?_eq_none (by omega)
    rw [text, text, hnone, addOn, reserve, List.getElem?_append_right (by omega),
      List.getElem?_replicate]
    split <;> rfl

theorem InRange.addOn (h : s.InRange) (own : Bool) (stream : Nat) :
    (s.addOn own stream).InRange := by
  intro sink hsink
  simp only [Sinks.addOn, reserve, List.length_append, List.length_replicate]
  rcases List.mem_append.1 hsink with hsink | hsink
  · have := h sink hsink
    omega
  · obtain rfl := List.mem_singleton.1 hsink
    simp only
    omega

theorem InRange.setUpOn (h : s.InRange) (threshold : Level) (stream : Nat) :
    (s.setUpOn threshold stream).InRange := by
  have hkept : InRange { s with threshold := threshold, sinks := s.sinks.filter (!·.own) } :=
    fun sink hsink => h sink (List.mem_filter.1 hsink).1
  exact hkept.addOn true stream

@[simp] theorem text_setUpOn (s : Sinks) (threshold : Level) (stream k : Nat) :
    (s.setUpOn threshold stream).text k = s.text k := by
  rw [setUpOn, text_addOn]
  rfl

/-! ### Entries that are written -/

/-- Deliveries to streams that are there add to their texts. -/
theorem getD_foldl_modify (e : Entry) (sinks : List Sink) (streams : List String)
    (h : ∀ sink ∈ sinks, sink.stream < streams.length) (k : Nat) :
    (sinks.foldl (fun ts sink => ts.modify sink.stream (· ++ sink.write e)) streams)[k]?.getD "" =
      streams[k]?.getD "" ++ received k (sinks.map (·.deliver e)) := by
  induction sinks generalizing streams with
  | nil => simp
  | cons sink sinks ih =>
    rw [List.foldl_cons, List.map_cons, received_cons, ih _ (by simp_all), List.getElem?_modify]
    by_cases hk : sink.stream = k
    · have hlt : k < streams.length := hk ▸ h sink List.mem_cons_self
      simp [hk, Sink.deliver, List.getElem?_eq_getElem hlt, String.append_assoc]
    · simp [hk, Sink.deliver]

/-- **An entry adds to each stream what is delivered to it.** -/
theorem text_write (h : s.InRange) (e : Entry) (k : Nat) :
    (s.write e).text k = s.text k ++ received k (s.deliveries e) := by
  by_cases hreaches : e.reaches s.threshold = true
  · simp only [write, deliveries, text, if_pos hreaches]
    exact getD_foldl_modify e s.sinks s.streams h k
  · simp [write, deliveries, if_neg hreaches]

@[simp] theorem sinks_write (s : Sinks) (e : Entry) : (s.write e).sinks = s.sinks := by
  unfold write
  split <;> rfl

@[simp] theorem threshold_write (s : Sinks) (e : Entry) :
    (s.write e).threshold = s.threshold := by
  unfold write
  split <;> rfl

theorem InRange.write (h : s.InRange) (e : Entry) : (s.write e).InRange := by
  have hlength (sinks : List Sink) (streams : List String) :
      (sinks.foldl (fun ts sink => ts.modify sink.stream (· ++ sink.write e)) streams).length =
        streams.length := by
    induction sinks generalizing streams with
    | nil => rfl
    | cons sink sinks ih => rw [List.foldl_cons, ih, List.length_modify]
  intro sink hsink
  rw [sinks_write] at hsink
  unfold Sinks.write
  split
  · simp only [hlength]
    exact h sink hsink
  · exact h sink hsink

end Sinks

namespace Recorder

variable {r : Recorder} {step : Step} {steps before after : List Step}

/-! ### What the history says -/

namespace Step

/-- Whether a step sets up the journal. -/
def isSetUp : Step → Bool
  | setUp _ _ => true
  | _ => false

/-- The stream to which a step attaches a sink of others. -/
def attached? : Step → Option Nat
  | attach stream => some stream
  | _ => none

end Step

/-- The streams to which others have attached sinks, in order. -/
def attached (steps : List Step) : List Nat := steps.filterMap Step.attached?

/-- An environment after some steps. -/
def environmentAfter (env : Environment) (steps : List Step) : Environment :=
  steps.foldl (fun env step => match step with
    | .setVariable name value => env.set name value
    | _ => env) env

/-- A sink of others. -/
def foreign (stream : Nat) : Sink := ⟨false, stream⟩

/-- What is delivered in a step. -/
def delivered (r : Recorder) : Step → List Delivery
  | .write e => r.journal.deliveries e
  | _ => []

/-- What is delivered in some steps. -/
def deliveredIn (r : Recorder) : List Step → List Delivery
  | [] => []
  | step :: steps => r.delivered step ++ (r.after step).deliveredIn steps

/-- A history with a setup has a last one. -/
theorem exists_lastSetUp (h : ∃ step ∈ steps, step.isSetUp = true) :
    ∃ before word stream after, steps = before ++ .setUp word stream :: after ∧
      ∀ step ∈ after, step.isSetUp = false := by
  induction steps with
  | nil =>
    obtain ⟨step, hstep, -⟩ := h
    cases hstep
  | cons step steps ih =>
    by_cases hlater : ∃ later ∈ steps, later.isSetUp = true
    · obtain ⟨before, word, stream, after, rfl, hafter⟩ := ih hlater
      exact ⟨step :: before, word, stream, after, rfl, hafter⟩
    · -- no setup comes later, so that this step is the last
      have hafter : ∀ later ∈ steps, later.isSetUp = false := fun later hmem =>
        Bool.eq_false_iff.2 fun hsetUp => hlater ⟨later, hmem, hsetUp⟩
      obtain ⟨setUp, hmem, hsetUp⟩ := h
      rcases List.mem_cons.1 hmem with rfl | hmem
      · cases setUp with
        | setUp word stream => exact ⟨[], word, stream, steps, rfl, hafter⟩
        | setVariable name value => cases hsetUp
        | attach stream => cases hsetUp
        | write entry => cases hsetUp
      · exact absurd ⟨setUp, hmem, hsetUp⟩ hlater

/-! ### One step -/

/-- A process stays as it is but for its environment and its journal. -/
theorem after_environment (r : Recorder) (step : Step) :
    (r.after step).environment = environmentAfter r.environment [step] ∧
      (r.after step).errors = r.errors := by
  cases step <;> exact ⟨rfl, rfl⟩

/-- The sinks of others stay, and one is added if others attach it. -/
theorem after_foreign (r : Recorder) (step : Step) :
    (r.after step).journal.sinks.filter (!·.own) =
      r.journal.sinks.filter (!·.own) ++ (attached [step]).map foreign := by
  cases step with
  | setVariable name value => simp [Recorder.after, attached, Step.attached?]
  | setUp word stream =>
    simp [Recorder.after, attached, Step.attached?, Sinks.setUpOn, Sinks.addOn]
  | attach stream =>
    simp [Recorder.after, attached, Step.attached?, Sinks.attachTo, Sinks.addOn, foreign]
  | write entry => simp [Recorder.after, attached, Step.attached?]

/-- Without a setup, all sinks and the threshold stay. -/
theorem after_of_not_isSetUp (h : step.isSetUp = false) :
    (r.after step).journal.sinks = r.journal.sinks ++ (attached [step]).map foreign ∧
      (r.after step).journal.threshold = r.journal.threshold := by
  cases step with
  | setVariable name value => simp [Recorder.after, attached, Step.attached?]
  | setUp word stream => cases h
  | attach stream => exact ⟨rfl, rfl⟩
  | write entry => simp [Recorder.after, attached, Step.attached?]

/-- Sinks keep their streams, and each text goes on with what is delivered. -/
theorem after_text (h : r.journal.InRange) (step : Step) :
    (r.after step).journal.InRange ∧
      ∀ k, (r.after step).journal.text k = r.journal.text k ++ received k (r.delivered step) := by
  cases step with
  | setVariable name value => exact ⟨h, by simp [Recorder.after, delivered]⟩
  | setUp word stream => exact ⟨h.setUpOn _ _, by simp [Recorder.after, delivered]⟩
  | attach stream =>
    exact ⟨h.addOn false stream, by simp [Recorder.after, delivered, Sinks.attachTo]⟩
  | write entry => exact ⟨h.write entry, Sinks.text_write h entry⟩

/-! ### Runs -/

@[simp] theorem run_nil (r : Recorder) : r.run [] = r := rfl

theorem run_cons (r : Recorder) (step : Step) (steps : List Step) :
    r.run (step :: steps) = (r.after step).run steps := rfl

theorem run_append (r : Recorder) (steps steps' : List Step) :
    r.run (steps ++ steps') = (r.run steps).run steps' := List.foldl_append

theorem attached_cons (step : Step) (steps : List Step) :
    attached (step :: steps) = attached [step] ++ attached steps :=
  List.filterMap_append (l := [step])

theorem attached_append (steps steps' : List Step) :
    attached (steps ++ steps') = attached steps ++ attached steps' := List.filterMap_append

theorem run_environment (r : Recorder) (steps : List Step) :
    (r.run steps).environment = environmentAfter r.environment steps ∧
      (r.run steps).errors = r.errors := by
  induction steps generalizing r with
  | nil => exact ⟨rfl, rfl⟩
  | cons step steps ih =>
    obtain ⟨henv, herrors⟩ := after_environment r step
    obtain ⟨henv', herrors'⟩ := ih (r.after step)
    rw [run_cons, henv', herrors', henv, herrors]
    exact ⟨rfl, rfl⟩

/-- Others keep all their sinks, in the order in which they attached them. -/
theorem run_foreign (r : Recorder) (steps : List Step) :
    (r.run steps).journal.sinks.filter (!·.own) =
      r.journal.sinks.filter (!·.own) ++ (attached steps).map foreign := by
  induction steps generalizing r with
  | nil => simp [attached]
  | cons step steps ih =>
    rw [run_cons, ih, after_foreign, attached_cons step steps, List.map_append, List.append_assoc]

theorem run_of_not_isSetUp (h : ∀ step ∈ steps, step.isSetUp = false) (r : Recorder) :
    (r.run steps).journal.sinks = r.journal.sinks ++ (attached steps).map foreign ∧
      (r.run steps).journal.threshold = r.journal.threshold := by
  induction steps generalizing r with
  | nil => simp [attached]
  | cons step steps ih =>
    obtain ⟨hfirst, hsteps⟩ := List.forall_mem_cons.1 h
    obtain ⟨hsinks, hthreshold⟩ := after_of_not_isSetUp (r := r) hfirst
    obtain ⟨hsinks', hthreshold'⟩ := ih hsteps (r.after step)
    rw [run_cons, hsinks', hthreshold', hsinks, hthreshold, attached_cons step steps,
      List.map_append, List.append_assoc]
    exact ⟨rfl, rfl⟩

/-- **Each text goes on with what is delivered in the steps of a run.** -/
theorem text_run (h : r.journal.InRange) (steps : List Step) :
    (r.run steps).journal.InRange ∧
      ∀ k, (r.run steps).journal.text k =
        r.journal.text k ++ received k (r.deliveredIn steps) := by
  induction steps generalizing r with
  | nil => exact ⟨h, by simp [deliveredIn]⟩
  | cons step steps ih =>
    obtain ⟨hrange, htext⟩ := after_text h step
    obtain ⟨hrange', htext'⟩ := ih hrange
    refine ⟨hrange', fun k => ?_⟩
    rw [run_cons, htext', htext, deliveredIn, received_append, String.append_assoc]

theorem start_inRange (env : Environment) (errors : Nat) : (start env errors).journal.InRange :=
  fun _ hsink => nomatch hsink

/-- The sinks and the threshold after a setup that is the last. -/
theorem run_lastSetUp (env : Environment) (errors : Nat) (before : List Step)
    (word : Option String) (stream : Option Nat) (h : ∀ step ∈ after, step.isSetUp = false) :
    let r := (start env errors).run (before ++ .setUp word stream :: after)
    r.journal.sinks = (attached before).map foreign ++
      ⟨true, stream.getD errors⟩ :: (attached after).map foreign ∧
    r.journal.threshold = threshold word (environmentAfter env before) := by
  intro r
  obtain ⟨henv, herrors⟩ := run_environment (start env errors) before
  have hforeign := run_foreign (start env errors) before
  obtain ⟨hsinks, hthreshold⟩ := run_of_not_isSetUp h
    (((start env errors).run before).after (.setUp word stream))
  have hr : r = (((start env errors).run before).after (.setUp word stream)).run after := by
    rw [← run_cons, ← run_append]
  rw [hr, hsinks, hthreshold]
  constructor
  · -- the setup keeps the sinks of others and puts its own behind them
    simp only [Recorder.after, Sinks.setUpOn, Sinks.addOn, hforeign, herrors, List.append_assoc,
      List.singleton_append]
    rfl
  · simp only [Recorder.after, Sinks.setUpOn, Sinks.addOn, henv]
    rfl

/-- **What a run after a setup delivers, and where.**  The journal has one sink of its own, on the
stream of the last setup, and the sinks of others in the order in which they were attached.  The
text of each stream is what was delivered to it.  An entry that reaches the threshold of the last
setup is delivered once to each sink, as a line to the journal's own and bare to those of others,
and a stream that none of them is on stays as it is. -/
theorem run_setUp (env : Environment) (errors : Nat)
    (h : ∃ step ∈ steps, step.isSetUp = true) :
    ∃ before word stream after, steps = before ++ .setUp word stream :: after ∧
      (∀ step ∈ after, step.isSetUp = false) ∧
      let r := (start env errors).run steps
      let level := threshold word (environmentAfter env before)
      let own := stream.getD errors
      r.journal.threshold = level ∧
      r.journal.sinks = (attached before).map foreign ++ ⟨true, own⟩ ::
        (attached after).map foreign ∧
      (∀ k, r.journal.text k = received k ((start env errors).deliveredIn steps)) ∧
      ∀ e : Entry,
        r.delivered (.write e) = (if e.reaches level then
          (attached before).map (⟨·, e.text ++ "\n"⟩) ++ ⟨own, e.line ++ "\n"⟩ ::
            (attached after).map (⟨·, e.text ++ "\n"⟩) else []) ∧
        (∀ k, (r.after (.write e)).journal.text k =
          r.journal.text k ++ received k (r.delivered (.write e))) ∧
        ∀ k, k ≠ own → k ∉ attached steps →
          (r.after (.write e)).journal.text k = r.journal.text k := by
  obtain ⟨before, word, stream, after, rfl, hafter⟩ := exists_lastSetUp h
  refine ⟨before, word, stream, after, rfl, hafter, ?_⟩
  intro r level own
  obtain ⟨hsinks, hthreshold⟩ := run_lastSetUp env errors before word stream hafter
  obtain ⟨hrange, htext⟩ := text_run (start_inRange env errors)
    (before ++ .setUp word stream :: after)
  have hdelivered (e : Entry) : r.delivered (.write e) = (if e.reaches level then
      (attached before).map (⟨·, e.text ++ "\n"⟩) ++ ⟨own, e.line ++ "\n"⟩ ::
        (attached after).map (⟨·, e.text ++ "\n"⟩) else []) := by
    rw [delivered, Sinks.deliveries, hthreshold, hsinks]
    simp only [List.map_append, List.map_cons, List.map_map]
    rfl
  refine ⟨hthreshold, hsinks, fun k => ?_, fun e => ⟨hdelivered e, (after_text hrange _).2, ?_⟩⟩
  · rw [htext k]
    exact String.empty_append
  · intro k hown hforeign
    have hnone : received k (r.delivered (.write e)) = "" := by
      refine received_of_forall_ne ?_
      rw [hdelivered]
      rw [attached_append, attached_cons _ after, List.mem_append, List.mem_append] at hforeign
      split
      · simp only [List.mem_append, List.mem_cons, List.mem_map]
        rintro d (⟨j, hj, rfl⟩ | rfl | ⟨j, hj, rfl⟩) rfl
        · exact hforeign (Or.inl hj)
        · exact hown rfl
        · exact hforeign (Or.inr (Or.inr hj))
      · simp
    rw [(after_text hrange _).2, hnone, String.append_empty]

/-- A process that sets up its journal again, on its error stream, when others have attached a
sink and changed the level that the environment asks for. -/
def twice : List Step := [
  .setUp (some "error") (some 1),
  .attach 2,
  .write ⟨.error, "scrapeplan.cli", "first"⟩,
  .setVariable Environment.levelVariable (some "warning"),
  .setUp none none,
  .write ⟨.warning, "scrapeplan.cli", "second"⟩]

/-- The stream of the first setup gets the first entry only, and others get both. -/
theorem run_setUp_twice :
    (∃ step ∈ twice, step.isSetUp = true) ∧
      ((start ⟨[]⟩ 0).run twice).journal.ownCount = 1 ∧
      ((start ⟨[]⟩ 0).run twice).journal.text 0 = "WARNING  [scrapeplan.cli] second\n" ∧
      ((start ⟨[]⟩ 0).run twice).journal.text 1 = "ERROR    [scrapeplan.cli] first\n" ∧
      ((start ⟨[]⟩ 0).run twice).journal.text 2 = "first\nsecond\n" := by
  have hsetUp : ∃ step ∈ twice, step.isSetUp = true := ⟨_, List.mem_cons_self, rfl⟩
  obtain ⟨before, word, stream, after, -, -, -, hsinks, htext, -⟩ :=
    run_setUp ⟨[]⟩ 0 hsetUp
  refine ⟨hsetUp, ?_, ?_, ?_, ?_⟩
  · rw [Sinks.ownCount, hsinks]
    simp [foreign, Function.comp_def]
  · exact (htext 0).trans (by decide +kernel)
  · exact (htext 1).trans (by decide +kernel)
  · exact (htext 2).trans (by decide +kernel)

end Recorder

end PagePlan.Journal
