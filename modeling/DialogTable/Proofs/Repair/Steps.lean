import DialogTable.Repair.Run

/-!
# What one step of a repair does

A step makes at most one call and then goes on or stops. The relations below list everything that a
step comes to, each case with the answer that leads there and with the run as it is afterwards;
`submitStep_cases` and `patchStep_cases` say that there is nothing else. What every step preserves
holds at the end of a run (`drive_induction`).

Beside the relations stand the small facts about the parts of a step: what each part leaves of the
session, and that only submissions and patch requests add to the calls in the log.
-/

namespace DialogTable

namespace PatchError

/-- Whether the service refuses the credential. -/
def isUnauthorized : PatchError → Bool
  | unauthorized _ => true
  | _ => false

/-- Whether a reply is of no use and the same request would not help. -/
def isUnusable (error : PatchError) : Bool :=
  !error.isTransient && !error.isUnauthorized

theorem isUnusable_of_not {error : PatchError} (ht : ¬ error.isTransient = true)
    (hu : ∀ message, error ≠ .unauthorized message) : error.isUnusable = true := by
  cases error with
  | unauthorized message => exact absurd rfl (hu message)
  | _ => simpa [isUnusable, isUnauthorized] using ht

end PatchError

end DialogTable

namespace DialogTable.Repair

variable {σ : Type}

/-! ### Calls in the log -/

/-- Whether an entry of the log is a call of a service. -/
def Entry.isCall : Entry → Bool
  | .event _ => false
  | .submission .. | .patchRequest .. => true

namespace Run

/-- The calls made so far, in order. -/
def calls (run : Run σ) : List Entry :=
  run.log.filter Entry.isCall

theorem calls_note (run : Run σ) (entry : Entry) :
    (run.note entry).calls = run.calls ++ [entry].filter Entry.isCall :=
  List.filter_append ..

@[simp]
theorem calls_note_event (run : Run σ) (event : Event) :
    (run.note (.event event)).calls = run.calls := by
  rw [calls_note]
  exact List.append_nil _

@[simp]
theorem calls_enter (run : Run σ) (phase : Phase) : (run.enter phase).calls = run.calls :=
  calls_note_event ..

@[simp]
theorem calls_update (run : Run σ) (change : Session → Session) :
    (run.update change).calls = run.calls := rfl

@[simp]
theorem calls_install (run : Run σ) (tableText : String) :
    (run.install tableText).1.calls = run.calls := rfl

@[simp]
theorem calls_addFixes (run : Run σ) (fixes : List String) :
    (run.addFixes fixes).calls = run.calls := by
  unfold addFixes
  split
  · rfl
  · exact calls_note_event ..

@[simp]
theorem calls_noteIssues (run : Run σ) (report : Validation.Report) :
    (run.noteIssues report).calls = run.calls := by
  unfold noteIssues
  split <;> rfl

@[simp]
theorem calls_installFixed (run : Run σ) (report : Validation.Report) :
    (run.installFixed report).calls = run.calls := by
  rw [installFixed, calls_addFixes, calls_update]

/-- Structural fixes call no service. -/
@[simp]
theorem calls_restructure (policy : Validation.Policy) (passes : Nat) (previous : Option Nat)
    (run : Run σ) : (run.restructure policy passes previous).calls = run.calls := by
  induction passes generalizing previous run with
  | zero => rfl
  | succ passes ih =>
    unfold restructure
    generalize Validation.validate policy true run.session.tableText = report
    dsimp only
    split
    · exact calls_noteIssues run report
    · rw [ih, calls_installFixed]

/-! ### Sessions -/

@[simp]
theorem session_enter (run : Run σ) (phase : Phase) : (run.enter phase).session = run.session := rfl

@[simp]
theorem session_update (run : Run σ) (change : Session → Session) :
    (run.update change).session = change run.session := rfl

@[simp]
theorem session_addFixes (run : Run σ) (fixes : List String) :
    (run.addFixes fixes).session =
      { run.session with fixesApplied := run.session.fixesApplied ++ fixes } := by
  unfold addFixes
  split
  · next h => simp only [h, List.append_nil]
  · rfl

/-- Structural fixes touch the table, the log of fixes and the errors that remain, nothing else of
the session. -/
theorem session_restructure (policy : Validation.Policy) (passes : Nat) (previous : Option Nat)
    (run : Run σ) :
    ∃ tableText fixesApplied remainingErrors,
      (run.restructure policy passes previous).session =
        { run.session with tableText, fixesApplied, remainingErrors } := by
  induction passes generalizing previous run with
  | zero => exact ⟨_, _, _, rfl⟩
  | succ passes ih =>
    unfold restructure
    generalize Validation.validate policy true run.session.tableText = report
    dsimp only
    split
    · unfold noteIssues
      split
      · exact ⟨_, _, _, rfl⟩
      · exact ⟨_, _, _, rfl⟩
    · obtain ⟨tableText, fixesApplied, remainingErrors, h⟩ :=
        ih (some report.issues.length) (run.installFixed report)
      refine ⟨tableText, fixesApplied, remainingErrors, ?_⟩
      rw [h, installFixed, session_addFixes, session_update]

@[simp]
theorem transientFailures_restructure (policy : Validation.Policy) (passes : Nat)
    (previous : Option Nat) (run : Run σ) :
    (run.restructure policy passes previous).session.transientFailures =
      run.session.transientFailures := by
  obtain ⟨_, _, _, h⟩ := session_restructure policy passes previous run
  rw [h]

/-! ### Time and services -/

@[simp]
theorem clock_addFixes (run : Run σ) (fixes : List String) :
    (run.addFixes fixes).clock = run.clock := by
  unfold addFixes
  split <;> rfl

@[simp]
theorem services_addFixes (run : Run σ) (fixes : List String) :
    (run.addFixes fixes).services = run.services := by
  unfold addFixes
  split <;> rfl

/-- Structural fixes take no time and leave the services alone. -/
theorem restructure_still (policy : Validation.Policy) (passes : Nat) (previous : Option Nat)
    (run : Run σ) :
    (run.restructure policy passes previous).clock = run.clock ∧
      (run.restructure policy passes previous).services = run.services := by
  induction passes generalizing previous run with
  | zero => exact ⟨rfl, rfl⟩
  | succ passes ih =>
    unfold restructure
    generalize Validation.validate policy true run.session.tableText = report
    dsimp only
    split
    · unfold noteIssues
      split <;> exact ⟨rfl, rfl⟩
    · obtain ⟨hclock, hservices⟩ := ih (some report.issues.length) (run.installFixed report)
      rw [hclock, hservices, installFixed, clock_addFixes, services_addFixes]
      exact ⟨rfl, rfl⟩

@[simp]
theorem clock_restructure (policy : Validation.Policy) (passes : Nat) (previous : Option Nat)
    (run : Run σ) : (run.restructure policy passes previous).clock = run.clock :=
  (restructure_still policy passes previous run).1

@[simp]
theorem services_restructure (policy : Validation.Policy) (passes : Nat) (previous : Option Nat)
    (run : Run σ) : (run.restructure policy passes previous).services = run.services :=
  (restructure_still policy passes previous run).2

/-! ### Cleaning -/

@[simp]
theorem calls_clean (run : Run σ) : run.clean.calls = run.calls := by
  simp [clean]

/-- Cleaning touches the table and the log of fixes. -/
theorem session_clean (run : Run σ) :
    ∃ tableText fixesApplied, run.clean.session = { run.session with tableText, fixesApplied } :=
  ⟨_, _, session_addFixes ..⟩

@[simp]
theorem clock_clean (run : Run σ) : run.clean.clock = run.clock :=
  clock_addFixes ..

@[simp]
theorem services_clean (run : Run σ) : run.clean.services = run.services :=
  services_addFixes ..

end Run

namespace Setup

/-- A patch is installed with some notes and, if the limits say so, structurally fixed. -/
theorem applyPatch_eq (setup : Setup σ) (patch : Patch) (run : Run σ) :
    ∃ fixes, setup.applyPatch patch run =
      Run.update
        (if setup.limits.restructureAfterPatch then
          ((run.install patch.tableText).1.addFixes fixes).restructure setup.policy
            setup.limits.maxStructuralPasses none
        else (run.install patch.tableText).1.addFixes fixes)
        fun session => { session with iteration := session.iteration + 1, transientFailures := 0 } :=
  ⟨_, rfl⟩

@[simp]
theorem calls_applyPatch (setup : Setup σ) (patch : Patch) (run : Run σ) :
    (setup.applyPatch patch run).calls = run.calls := by
  obtain ⟨fixes, h⟩ := setup.applyPatch_eq patch run
  rw [h, Run.calls_update]
  split
  · rw [Run.calls_restructure, Run.calls_addFixes, Run.calls_install]
  · rw [Run.calls_addFixes, Run.calls_install]

/-- A patch touches the table, the log of fixes, the errors that remain and the counters. -/
theorem session_applyPatch (setup : Setup σ) (patch : Patch) (run : Run σ) :
    ∃ tableText fixesApplied remainingErrors,
      (setup.applyPatch patch run).session =
        { run.session with
          tableText, fixesApplied, remainingErrors, iteration := run.session.iteration + 1
          transientFailures := 0 } := by
  obtain ⟨fixes, h⟩ := setup.applyPatch_eq patch run
  rw [h, Run.session_update]
  split
  · obtain ⟨tableText, fixesApplied, remainingErrors, hs⟩ :=
      Run.session_restructure setup.policy setup.limits.maxStructuralPasses none
        ((run.install patch.tableText).1.addFixes fixes)
    refine ⟨tableText, fixesApplied, remainingErrors, ?_⟩
    rw [hs, Run.session_addFixes]
    rfl
  · rw [Run.session_addFixes]
    exact ⟨_, _, _, rfl⟩

@[simp]
theorem clock_applyPatch (setup : Setup σ) (patch : Patch) (run : Run σ) :
    (setup.applyPatch patch run).clock = run.clock := by
  obtain ⟨fixes, h⟩ := setup.applyPatch_eq patch run
  rw [h]
  show Run.clock (if setup.limits.restructureAfterPatch then _ else _) = _
  split
  · exact (Run.clock_restructure ..).trans (Run.clock_addFixes ..)
  · exact Run.clock_addFixes ..

@[simp]
theorem services_applyPatch (setup : Setup σ) (patch : Patch) (run : Run σ) :
    (setup.applyPatch patch run).services = run.services := by
  obtain ⟨fixes, h⟩ := setup.applyPatch_eq patch run
  rw [h]
  show Run.services (if setup.limits.restructureAfterPatch then _ else _) = _
  split
  · exact (Run.services_restructure ..).trans (Run.services_addFixes ..)
  · exact Run.services_addFixes ..

@[simp]
theorem clock_spendIteration (error : PatchError) (run : Run σ) :
    (spendIteration error run).clock = run.clock :=
  Run.clock_addFixes ..

@[simp]
theorem services_spendIteration (error : PatchError) (run : Run σ) :
    (spendIteration error run).services = run.services :=
  Run.services_addFixes ..

@[simp]
theorem calls_spendIteration (error : PatchError) (run : Run σ) :
    (spendIteration error run).calls = run.calls := by
  rw [spendIteration, Run.calls_update, Run.calls_addFixes]

@[simp]
theorem calls_prepare (setup : Setup σ) (run : Run σ) :
    (setup.prepare run).calls = run.calls := by
  simp [prepare, fixStructure]

@[simp]
theorem services_prepare (setup : Setup σ) (run : Run σ) :
    (setup.prepare run).services = run.services :=
  (Run.services_restructure ..).trans run.services_clean

/-- Before the first submission both counters stand where they stood. -/
theorem counters_prepare (setup : Setup σ) (run : Run σ) :
    (setup.prepare run).session.iteration = run.session.iteration ∧
      (setup.prepare run).session.transientFailures = run.session.transientFailures := by
  constructor
  · simp [prepare, fixStructure, iteration_restructure, Run.clean, Run.install]
  · simp [prepare, fixStructure, Run.clean, Run.install]

end Setup

/-! ### Waiting after a failure -/

namespace Run

/-- Counts one more failure in a row. -/
def countFailure (run : Run σ) : Run σ :=
  run.update fun session => { session with transientFailures := session.transientFailures + 1 }

/-- Notes a wait and lets its time pass. -/
def sleep (delay : Duration) (reason : String) (run : Run σ) : Run σ :=
  { run.note (.event
      (.waiting run.session.iteration run.session.transientFailures delay reason)) with
    clock := (run.clock.wait delay).1 }

@[simp]
theorem calls_sleep (delay : Duration) (reason : String) (run : Run σ) :
    (run.sleep delay reason).calls = run.calls :=
  calls_note_event ..

end Run

namespace Setup

/-- What follows a transient failure: the retries are spent, the wait is cut off, or the call is
made again. -/
inductive BackOff (setup : Setup σ) (stage : Stage) (delay : Duration) (reason : String)
    (run : Run σ) : Next σ → Prop
  | spent (h : setup.limits.maxTransientRetries ≤ run.session.transientFailures) :
    BackOff setup stage delay reason run (.ofEnd
      (run.countFailure.fail (.retryBudgetExhausted (run.session.transientFailures + 1) reason)))
  | interrupted (h : run.session.transientFailures < setup.limits.maxTransientRetries)
      (hc : (run.clock.wait delay).2 = true) :
    BackOff setup stage delay reason run (.ofEnd (run.countFailure.sleep delay reason).cancel)
  | again (h : run.session.transientFailures < setup.limits.maxTransientRetries)
      (hc : (run.clock.wait delay).2 = false) :
    BackOff setup stage delay reason run (.continue stage (run.countFailure.sleep delay reason))

theorem backOff_cases (setup : Setup σ) (stage : Stage) (delay : Duration) (reason : String)
    (run : Run σ) : BackOff setup stage delay reason run (setup.backOff stage delay reason run) := by
  by_cases h : setup.limits.maxTransientRetries < run.session.transientFailures + 1
  · rw [show setup.backOff stage delay reason run = .ofEnd (run.countFailure.fail
      (.retryBudgetExhausted (run.session.transientFailures + 1) reason)) from if_pos h]
    exact .spent (Nat.le_of_lt_succ h)
  · have hlt : run.session.transientFailures < setup.limits.maxTransientRetries :=
      Nat.lt_of_succ_le (Nat.le_of_not_lt h)
    have hb : setup.backOff stage delay reason run =
        if (run.clock.wait delay).2 then .ofEnd (run.countFailure.sleep delay reason).cancel
        else .continue stage (run.countFailure.sleep delay reason) := if_neg h
    rw [hb]
    cases hc : (run.clock.wait delay).2 with
    | true => exact .interrupted hlt hc
    | false => exact .again hlt hc

/-! ### Submissions -/

/-- What the compiler answers. -/
def verdict (setup : Setup σ) (run : Run σ) : Except CompilerError Verdict :=
  (setup.submit (run.enter .remoteValidating)).1

/-- The run after a submission. -/
def submitted (setup : Setup σ) (run : Run σ) : Run σ :=
  (setup.submit (run.enter .remoteValidating)).2

/-- The run after a rejection. -/
def rejected (setup : Setup σ) (complaints : List Complaint) (run : Run σ) : Run σ :=
  (setup.submitted run).update (·.reject complaints)

/-- A submission is one call, of the current table, with the credential of the setup. -/
theorem calls_submitted (setup : Setup σ) (run : Run σ) :
    (setup.submitted run).calls = run.calls ++
      [.submission run.clock.now (setup.submission run) setup.credential
        (setup.verdict run)] := by
  have h : (setup.submitted run).log = (run.enter .remoteValidating).log ++
      [.submission run.clock.now (setup.submission run) setup.credential
        (setup.verdict run)] := rfl
  rw [Run.calls, h, List.filter_append, ← Run.calls, Run.calls_enter]
  rfl

@[simp]
theorem session_submitted (setup : Setup σ) (run : Run σ) :
    (setup.submitted run).session =
      { run.session with lastSubmitted := some run.session.tableText } := rfl

/-- Everything that a submission comes to. -/
inductive SubmitStep (setup : Setup σ) (run : Run σ) : Next σ → Prop
  | cancelled (h : run.clock.cancelled = true) : SubmitStep setup run (.ofEnd run.cancel)
  | accepted (version : String) (hc : run.clock.cancelled = false)
      (h : setup.verdict run = .ok (.accepted version)) :
    SubmitStep setup run (.stop
      (.done ((setup.submitted run).session.acceptedAccount version
        (setup.job.scripts.map ScriptSource.name)))
      ((setup.submitted run).enter .done))
  | exhausted (complaints : List Complaint) (hc : run.clock.cancelled = false)
      (h : setup.verdict run = .ok (.rejected complaints))
      (hi : setup.limits.maxIterations ≤ run.session.iteration) :
    SubmitStep setup run (.ofEnd (setup.rejected complaints run).exhaust)
  | cancelledMeanwhile (complaints : List Complaint) (hc : run.clock.cancelled = false)
      (h : setup.verdict run = .ok (.rejected complaints))
      (hi : run.session.iteration < setup.limits.maxIterations)
      (hm : (setup.submitted run).clock.cancelled = true) :
    SubmitStep setup run (.ofEnd (setup.rejected complaints run).cancel)
  | rejected (complaints : List Complaint) (hc : run.clock.cancelled = false)
      (h : setup.verdict run = .ok (.rejected complaints))
      (hi : run.session.iteration < setup.limits.maxIterations)
      (hm : (setup.submitted run).clock.cancelled = false) :
    SubmitStep setup run (.continue .patching ((setup.rejected complaints run).enter .patching))
  | unauthorized (hc : run.clock.cancelled = false) (h : setup.verdict run = .ok .unauthorized) :
    SubmitStep setup run (.stop
      (.needsCredential { job := setup.job, session := (setup.submitted run).session })
      ((setup.submitted run).enter .needsCredential))
  | rateLimited (retryAfter : Option Duration) (hc : run.clock.cancelled = false)
      (h : setup.verdict run = .ok (.rateLimited retryAfter)) {next : Next σ}
      (hb : BackOff setup .submitting (setup.limits.rateLimitDelay retryAfter) "rate limited"
        (setup.submitted run) next) : SubmitStep setup run next
  | failed (error : CompilerError) (hc : run.clock.cancelled = false)
      (h : setup.verdict run = .error error) {next : Next σ}
      (hb : BackOff setup .submitting (setup.nextBackoff (setup.submitted run)) error.message
        (setup.submitted run) next) : SubmitStep setup run next

theorem submitStep_cases (setup : Setup σ) (run : Run σ) :
    SubmitStep setup run (setup.submitStep run) := by
  cases hc : run.clock.cancelled with
  | true =>
    rw [show setup.submitStep run = .ofEnd run.cancel from if_pos hc]
    exact .cancelled hc
  | false =>
    simp only [submitStep, hc, Bool.false_eq_true, if_false]
    rw [show (setup.submit (run.enter .remoteValidating)).2 = setup.submitted run from rfl]
    split
    · next version h => exact .accepted version hc h
    · next complaints h =>
      split
      · next hi => exact .exhausted complaints hc h hi
      · next hi =>
        split
        · next hm => exact .cancelledMeanwhile complaints hc h (Nat.lt_of_not_le hi) hm
        · next hm =>
          exact .rejected complaints hc h (Nat.lt_of_not_le hi) (Bool.eq_false_iff.mpr hm)
    · next retryAfter h => exact .rateLimited retryAfter hc h (backOff_cases ..)
    · next h => exact .unauthorized hc h
    · next error h => exact .failed error hc h (backOff_cases ..)

end Setup

/-! ### Patch requests -/

namespace Setup

/-- What the patch service answers. -/
def patchReply (setup : Setup σ) (run : Run σ) : Except PatchError Patch :=
  (setup.requestPatch run).1

/-- The run after a patch request. -/
def requested (setup : Setup σ) (run : Run σ) : Run σ :=
  (setup.requestPatch run).2

/-- The run after a reply without a patch. -/
def wasted (setup : Setup σ) (error : PatchError) (run : Run σ) : Run σ :=
  spendIteration error (setup.requested run)

/-- A patch request is one call, about the current table and the messages of the last rejection. -/
theorem calls_requested (setup : Setup σ) (run : Run σ) :
    (setup.requested run).calls = run.calls ++
      [.patchRequest run.clock.now (setup.patchRequest run) (setup.patchReply run)] := by
  have h : (setup.requested run).log = run.log ++
      [.patchRequest run.clock.now (setup.patchRequest run) (setup.patchReply run)] := rfl
  rw [Run.calls, h, List.filter_append, ← Run.calls]
  rfl

@[simp]
theorem session_requested (setup : Setup σ) (run : Run σ) :
    (setup.requested run).session = run.session := rfl

/-- Everything that a patch request comes to. -/
inductive PatchStep (setup : Setup σ) (run : Run σ) : Next σ → Prop
  | patched (patch : Patch) (h : setup.patchReply run = .ok patch) :
    PatchStep setup run (.continue .submitting (setup.applyPatch patch (setup.requested run)))
  | unauthorized (message : String) (h : setup.patchReply run = .error (.unauthorized message)) :
    PatchStep setup run (.ofEnd ((setup.requested run).fail (.patch (.unauthorized message))))
  | failed (error : PatchError) (h : setup.patchReply run = .error error)
      (ht : error.isTransient = true) {next : Next σ}
      (hb : BackOff setup .patching (setup.patchDelay (setup.requested run) error) error.message
        (setup.requested run) next) : PatchStep setup run next
  | exhausted (error : PatchError) (h : setup.patchReply run = .error error)
      (hu : error.isUnusable = true)
      (hi : setup.limits.maxIterations ≤ run.session.iteration + 1) :
    PatchStep setup run (.ofEnd (setup.wasted error run).exhaust)
  | cancelled (error : PatchError) (h : setup.patchReply run = .error error)
      (hu : error.isUnusable = true)
      (hi : run.session.iteration + 1 < setup.limits.maxIterations)
      (hc : (setup.wasted error run).clock.cancelled = true) :
    PatchStep setup run (.ofEnd (setup.wasted error run).cancel)
  | again (error : PatchError) (h : setup.patchReply run = .error error)
      (hu : error.isUnusable = true)
      (hi : run.session.iteration + 1 < setup.limits.maxIterations)
      (hc : (setup.wasted error run).clock.cancelled = false) :
    PatchStep setup run (.continue .patching (setup.wasted error run))

theorem patchStep_cases (setup : Setup σ) (run : Run σ) :
    PatchStep setup run (setup.patchStep run) := by
  simp only [patchStep]
  rw [show (setup.requestPatch run).2 = setup.requested run from rfl]
  split
  · next patch h => exact .patched patch h
  · next error h =>
    split
    · next message => exact .unauthorized message h
    · next hn =>
      split
      · next ht => exact .failed error h ht (backOff_cases ..)
      · next ht =>
        have hu : error.isUnusable = true := PatchError.isUnusable_of_not ht hn
        have hs : (setup.wasted error run).session.iteration = run.session.iteration + 1 :=
          iteration_spendIteration ..
        rw [show spendIteration error (setup.requested run) = setup.wasted error run from rfl, hs]
        split
        · next hi => exact .exhausted error h hu hi
        · next hi =>
          split
          · next hc => exact .cancelled error h hu (Nat.lt_of_not_le hi) hc
          · next hc => exact .again error h hu (Nat.lt_of_not_le hi) (Bool.eq_false_iff.mpr hc)

end Setup

/-! ### Whole runs -/

/-- The run that goes on has one property, or the end has another. -/
def Next.Holds (goesOn : Stage → Run σ → Prop) (ends : Outcome → Run σ → Prop) : Next σ → Prop
  | .continue stage run => goesOn stage run
  | .stop outcome run => ends outcome run

namespace Setup

section Holds

variable {setup : Setup σ} {run : Run σ} {goesOn : Stage → Run σ → Prop}
  {ends : Outcome → Run σ → Prop}

/-- What every case of a submission comes to, the step comes to. -/
theorem holds_submitStep (h : ∀ next, setup.SubmitStep run next → next.Holds goesOn ends) :
    (setup.submitStep run).Holds goesOn ends :=
  h _ (setup.submitStep_cases run)

/-- What every case of a patch request comes to, the step comes to. -/
theorem holds_patchStep (h : ∀ next, setup.PatchStep run next → next.Holds goesOn ends) :
    (setup.patchStep run).Holds goesOn ends :=
  h _ (setup.patchStep_cases run)

end Holds

theorem drive_of_stop {setup : Setup σ} {stage : Stage} {run after : Run σ} {outcome : Outcome}
    (h : setup.step stage run = .stop outcome after) :
    setup.drive stage run = (outcome, after) := by
  rw [drive]
  split
  · next hs => rw [h] at hs; injection hs with ho ha; rw [ho, ha]
  · next hs => rw [h] at hs; cases hs

theorem drive_of_continue {setup : Setup σ} {stage next : Stage} {run after : Run σ}
    (h : setup.step stage run = .continue next after) :
    setup.drive stage run = setup.drive next after := by
  rw [drive]
  split
  · next hs => rw [h] at hs; cases hs
  · next hs => rw [h] at hs; injection hs with hn ha; rw [hn, ha]

/-- What each step preserves as long as the repair goes on, and turns into a property of the end
when it stops, the whole run turns into that property. -/
theorem drive_induction {setup : Setup σ} {goesOn : Stage → Run σ → Prop}
    {ends : Outcome → Run σ → Prop}
    (step : ∀ stage run, goesOn stage run → (setup.step stage run).Holds goesOn ends)
    {stage : Stage} {run : Run σ} (h : goesOn stage run) :
    ends (setup.drive stage run).1 (setup.drive stage run).2 := by
  induction stage, run using drive.induct setup with
  | case1 stage run outcome after hs =>
    have hstep := step stage run h
    rw [hs] at hstep
    rw [drive_of_stop hs]
    exact hstep
  | case2 stage run next after hs ih =>
    have hstep := step stage run h
    rw [hs] at hstep
    rw [drive_of_continue hs]
    exact ih hstep

end Setup

end DialogTable.Repair
