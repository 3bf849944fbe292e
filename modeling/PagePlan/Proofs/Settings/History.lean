/-
# The settings of a process over time

Whether a step fails is told from the step alone: no setting that it does not name can get in its
way, whatever was done before.  A step that fails changes nothing.  One that is taken changes what it
names, and a reset makes all settings anew from the variables as they are then.  So each setting has
a history of its own, which does not depend on the others.

* `Setup.perform_spec` — one step, from any settings;
* `Setup.get_run` — a run: the value of each setting after some steps;
* `Setup.perform_run` — a step after a run from fresh settings.
-/
import PagePlan.Settings.Setup
import PagePlan.Proofs.Settings.Change

namespace PagePlan

open Setting (faultIn? valueIn)

namespace Setting

variable {j k : Setting}

theorem ofName?_name (k : Setting) : ofName? k.name = some k := by
  cases k <;> rfl

theorem name_of_ofName? {name : String} (h : ofName? name = some k) : k.name = name := by
  simpa using List.find?_some h

theorem name_inj (h : j.name = k.name) : j = k := by
  rw [← Option.some_inj, ← ofName?_name j, h, ofName?_name]

theorem name_startsWith (k : Setting) : k.name.startsWith "_" = false := by
  cases k <;> simp [name]

end Setting

namespace Setup

variable {p q : Setup} {step : Step} {e : Failure} {k : Setting}

/-! ### What a step says -/

namespace Step

/-- The value that a step names for a setting. -/
def given? (k : Setting) : Step → Option Value
  | .configure overrides => overrides.entries.get? k.name
  | .assign name v => if name = k.name then some v else none
  | _ => none

/-- The places of what a step names. -/
def named : Step → List PathStep
  | .configure overrides => overrides.entries.map fun e => .ofKey e.1
  | .assign name _ => [.name name]
  | _ => []

/-- The failure of a step, if it fails. -/
def failure? : Step → Option Failure
  | .configure overrides =>
    if overrides.entries.any fun e => e.1.str?.isNone then some .wrongKind
    else match Settings.changeFaults overrides.entries with
      | [] => none
      | faults => some (.invalid faults)
  | .assign name v =>
    if name.startsWith "_" then none
    else match Setting.ofName? name with
      | none => some (.invalid [⟨.noSuchAttribute, [.name name]⟩])
      | some k =>
        match k.checked v with
        | .ok _ => none
        | .error kind => some (.invalid [⟨kind, [.name k.name]⟩])
  | _ => none

end Step

/-! ### One step -/

theorem faultIn?_path {es : Entries} {fault : Fault} (h : faultIn? es k = some fault) :
    ∃ e ∈ es, fault.path = [.ofKey e.1] := by
  unfold faultIn? at h
  split at h
  · cases h
  · next v hv =>
    split at h
    · cases h
    · cases h
      exact ⟨_, Entries.mem_of_get? hv, rfl⟩

/-- The faults of a change are at what it names. -/
theorem changeFaults_path {es : Entries} {fault : Fault} (h : fault ∈ Settings.changeFaults es) :
    ∃ e ∈ es, fault.path = [.ofKey e.1] := by
  rcases List.mem_append.1 h with h | h
  · obtain ⟨k, -, hk⟩ := List.mem_filterMap.1 h
    exact faultIn?_path hk
  · obtain ⟨⟨key, v⟩, he, hfault⟩ := List.mem_filterMap.1 h
    refine ⟨_, he, ?_⟩
    dsimp only at hfault
    split at hfault
    · split at hfault
      · cases hfault
      · cases hfault
        rfl
    · cases hfault
      rfl

/-- **A step that fails does so because of something that it names.** -/
theorem failure?_named (h : step.failure? = some e) :
    e = .wrongKind ∨ ∃ faults, e = .invalid faults ∧ faults ≠ [] ∧
      ∀ fault ∈ faults, ∃ place ∈ step.named, fault.path = [place] := by
  cases step with
  | setVariable name value => cases h
  | reset => cases h
  | configure overrides =>
    rw [Step.failure?] at h
    split at h
    · exact .inl (Option.some.inj h).symm
    · split at h
      · cases h
      · next faults hnil =>
        cases h
        refine .inr ⟨_, rfl, hnil, fun fault hfault => ?_⟩
        obtain ⟨entry, hentry, hpath⟩ := changeFaults_path hfault
        exact ⟨_, List.mem_map_of_mem hentry, hpath⟩
  | assign name v =>
    rw [Step.failure?] at h
    split at h
    · cases h
    · split at h
      · cases h
        exact .inr ⟨_, rfl, by simp, by simp [Step.named]⟩
      · next k hk =>
        split at h
        · cases h
        · cases h
          exact .inr ⟨_, rfl, by simp, by simp [Step.named, Setting.name_of_ofName? hk]⟩

/-- A negative number of retries is refused. -/
example : (Step.configure ⟨[(.str "max_retries", .int (-1))], by decide⟩).failure? =
    some (.invalid [⟨.greaterThanEqual, [.name "max_retries"]⟩]) := by rfl

/-- What a step that is taken makes of a process. -/
def Taken (p q : Setup) : Step → Prop
  | .setVariable name value => q = { p with environment := p.environment.set name value }
  | .reset => q = start p.environment
  | step => q.environment = p.environment ∧ ∀ k : Setting,
      match step.given? k with
      | none => k.get q.settings = k.get p.settings
      | some v => k.checked v = .ok (k.get q.settings)

theorem configure_of_keys {es : Entries} (s : Settings)
    (h : (es.any fun e => e.1.str?.isNone) = false) :
    (s.configure es).outcome = (s.change es).mapError Failure.invalid := by
  rw [Settings.configure, if_neg (by simp [h])]
  cases s.change es <;> rfl

theorem configure_of_wrongKind {es : Entries} (s : Settings)
    (h : (es.any fun e => e.1.str?.isNone) = true) :
    (s.configure es).outcome = .error .wrongKind := by
  rw [Settings.configure, if_pos h]
  rfl

/-- A setting that a sound change names takes its value as the check makes it. -/
theorem checked_valueIn {es : Entries} {v old : Value} (h : Settings.changeFaults es = [])
    (hv : es.get? k.name = some v) : k.checked v = .ok (valueIn es k old) := by
  have hsound : faultIn? es k = none :=
    List.filterMap_eq_nil_iff.1 (List.append_eq_nil_iff.1 h).1 k (Setting.mem_all k)
  unfold valueIn
  cases hchecked : k.checked v with
  | ok w => simp [hv, hchecked]
  | error kind => simp [faultIn?, hv, hchecked] at hsound

theorem perform_configure (p : Setup) (overrides : Overrides) :
    match (Step.configure overrides).failure? with
    | some e => p.perform (.configure overrides) = .error e
    | none => ∃ q, p.perform (.configure overrides) = .ok q ∧ Taken p q (.configure overrides) := by
  obtain ⟨es, hdistinct⟩ := overrides
  rw [Step.failure?, perform]
  by_cases hkeys : (es.any fun e => e.1.str?.isNone) = true
  · rw [if_pos hkeys, configure_of_wrongKind _ hkeys]
    rfl
  rw [if_neg hkeys, configure_of_keys _ (by simpa using hkeys)]
  cases hfaults : Settings.changeFaults es with
  | cons fault faults =>
    have hnil : Settings.changeFaults es ≠ [] := by simp [hfaults]
    rw [Settings.change_of_faults hdistinct _ hnil, hfaults]
    rfl
  | nil =>
    obtain ⟨s, hchange, hvalues⟩ := Settings.change_of_sound hdistinct p.settings hfaults
    refine ⟨⟨p.environment, s⟩, by rw [hchange]; rfl, rfl, fun k => ?_⟩
    change match es.get? k.name with
      | none => k.get s = k.get p.settings
      | some v => k.checked v = .ok (k.get s)
    rw [hvalues k]
    cases hv : es.get? k.name with
    | none => simp [valueIn, hv]
    | some v => exact checked_valueIn hfaults hv

theorem perform_assign (p : Setup) (name : String) (v : Value) :
    match (Step.assign name v).failure? with
    | some e => p.perform (.assign name v) = .error e
    | none => ∃ q, p.perform (.assign name v) = .ok q ∧ Taken p q (.assign name v) := by
  rw [Step.failure?, perform, Settings.assign]
  by_cases hunderscore : name.startsWith "_" = true
  · -- No setting has such a name.
    rw [if_pos hunderscore, if_pos hunderscore]
    refine ⟨p, rfl, rfl, fun k => ?_⟩
    have hname : name ≠ k.name := by
      rintro rfl
      rw [Setting.name_startsWith] at hunderscore
      cases hunderscore
    simp [Step.given?, hname]
  rw [if_neg hunderscore, if_neg hunderscore]
  cases hk : Setting.ofName? name with
  | none => rfl
  | some k =>
    obtain rfl := Setting.name_of_ofName? hk
    cases hchecked : k.checked v with
    | error kind =>
      simp [Settings.put_of_not_checked p.settings hchecked, hchecked, Except.mapError, Except.map]
    | ok w =>
      obtain ⟨s, hput, hget, hothers⟩ := Settings.put_of_checked p.settings hchecked
      simp only [hchecked]
      refine ⟨⟨p.environment, s⟩, by rw [hput]; rfl, rfl, fun j => ?_⟩
      by_cases hj : j = k
      · subst hj
        simp [Step.given?, hchecked, hget]
      · have hname : k.name ≠ j.name := fun h => hj (Setting.name_inj h).symm
        simp [Step.given?, hname, hothers j hj]

/-- **A step fails for what it says alone, and else makes what it should of a process.** -/
theorem perform_spec (p : Setup) (step : Step) :
    match step.failure? with
    | some e => p.perform step = .error e
    | none => ∃ q, p.perform step = .ok q ∧ Taken p q step := by
  cases step with
  | setVariable name value => exact ⟨_, rfl, rfl⟩
  | reset => exact ⟨_, rfl, rfl⟩
  | configure overrides => exact perform_configure p overrides
  | assign name v => exact perform_assign p name v

theorem after_of_ok (h : p.perform step = .ok q) : p.after step = q := by
  rw [after, h]

theorem after_of_error (h : p.perform step = .error e) : p.after step = p := by
  rw [after, h]

/-! ### A run -/

namespace Step

/-- The environment after a step. -/
def environment (env : Environment) : Step → Environment
  | .setVariable name value => env.set name value
  | _ => env

/-- The value of a setting after a step, from the environment and the value before. -/
def value (k : Setting) (env : Environment) (old : Value) : Step → Value
  | .reset => k.get (.ofEnvironment env)
  | step =>
    if step.failure?.isSome then old
    else ((step.given? k).map fun v => (k.checked v).toOption.getD old).getD old

theorem value_of_some {env : Environment} {old : Value} (h : step.failure? = some e) :
    step.value k env old = old := by
  have hfailure : step.failure?.isSome = true := by rw [h]; rfl
  cases step with
  | setVariable name value => cases h
  | reset => cases h
  | configure overrides => exact if_pos hfailure
  | assign name v => exact if_pos hfailure

end Step

theorem environment_of_taken (h : Taken p q step) :
    q.environment = step.environment p.environment := by
  cases step with
  | setVariable name value => exact congrArg Setup.environment h
  | reset =>
    obtain rfl : q = start p.environment := h
    rfl
  | configure overrides => exact h.1
  | assign name v => exact h.1

/-- A setting that is named or kept has a value that is told from the one before. -/
theorem get_of_given {given : Option Value} {s s' : Settings}
    (h : match given with
      | none => k.get s' = k.get s
      | some v => k.checked v = .ok (k.get s')) :
    k.get s' = (given.map fun v => (k.checked v).toOption.getD (k.get s)).getD (k.get s) := by
  cases given with
  | none => exact h
  | some v =>
    have hchecked : k.checked v = .ok (k.get s') := h
    simp [hchecked, Except.toOption]

theorem get_of_taken (hnone : step.failure? = none) (h : Taken p q step) (k : Setting) :
    k.get q.settings = step.value k p.environment (k.get p.settings) := by
  have hfailure : ¬ step.failure?.isSome = true := by simp [hnone]
  cases step with
  | setVariable name value => exact congrArg (k.get ·.settings) h
  | reset => exact congrArg (k.get ·.settings) h
  | configure overrides => exact (get_of_given (h.2 k)).trans (if_neg hfailure).symm
  | assign name v => exact (get_of_given (h.2 k)).trans (if_neg hfailure).symm

theorem environment_after (p : Setup) (step : Step) :
    (p.after step).environment = step.environment p.environment := by
  have hspec := perform_spec p step
  split at hspec
  · next e he =>
    rw [after_of_error hspec]
    cases step <;> first | rfl | cases he
  · obtain ⟨q, hq, htaken⟩ := hspec
    rw [after_of_ok hq, environment_of_taken htaken]

/-- What a step makes of a setting does not depend on the other settings. -/
theorem get_after (p : Setup) (step : Step) (k : Setting) :
    k.get (p.after step).settings = step.value k p.environment (k.get p.settings) := by
  have hspec := perform_spec p step
  split at hspec
  · next e he => rw [after_of_error hspec, Step.value_of_some he]
  · next hnone =>
    obtain ⟨q, hq, htaken⟩ := hspec
    rw [after_of_ok hq, get_of_taken hnone htaken]

theorem run_cons (p : Setup) (step : Step) (steps : List Step) :
    p.run (step :: steps) = (p.after step).run steps := rfl

theorem run_append (p : Setup) (steps : List Step) (step : Step) :
    p.run (steps ++ [step]) = (p.run steps).after step := by
  rw [run, List.foldl_append]
  rfl

theorem environment_run (p : Setup) (steps : List Step) :
    (p.run steps).environment = steps.foldl Step.environment p.environment := by
  induction steps generalizing p with
  | nil => rfl
  | cons step steps ih => rw [run_cons, ih, environment_after, List.foldl_cons]

/-- The environment and the value of a setting after some steps. -/
def along (k : Setting) (sofar : Environment × Value) (steps : List Step) : Environment × Value :=
  steps.foldl (fun (env, old) step => (step.environment env, step.value k env old)) sofar

/-- **Each setting has a history of its own.** -/
theorem get_run (p : Setup) (steps : List Step) (k : Setting) :
    k.get (p.run steps).settings = (along k (p.environment, k.get p.settings) steps).2 := by
  induction steps generalizing p with
  | nil => rfl
  | cons step steps ih =>
    rw [run_cons, ih, environment_after, get_after, along, along, List.foldl_cons]

/-- **After any steps from fresh settings, a step fails for what it says alone, because of something
that it names, and changes nothing then; a step that is taken changes what it names.**  The
environment is as the steps before have left it, whether they were taken or not. -/
theorem perform_run (env : Environment) (steps : List Step) (step : Step) :
    let p := (start env).run steps
    let q := (start env).run (steps ++ [step])
    p.environment = steps.foldl Step.environment env ∧
      match step.failure? with
      | some e => p.perform step = .error e ∧ q = p ∧
          (e = .wrongKind ∨ ∃ faults, e = .invalid faults ∧ faults ≠ [] ∧
            ∀ fault ∈ faults, ∃ place ∈ step.named, fault.path = [place])
      | none => p.perform step = .ok q ∧ Taken p q step := by
  intro p q
  have hq : q = p.after step := run_append (start env) steps step
  refine ⟨environment_run (start env) steps, ?_⟩
  have hspec := perform_spec p step
  split at hspec
  · next e he => exact ⟨hspec, hq.trans (after_of_error hspec), failure?_named he⟩
  · obtain ⟨next, hnext, htaken⟩ := hspec
    obtain rfl : q = next := hq.trans (after_of_ok hnext)
    exact ⟨hnext, htaken⟩

end Setup

end PagePlan
