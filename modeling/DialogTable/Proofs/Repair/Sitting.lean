import DialogTable.Proofs.Repair.Ending

/-!
# Sittings of a repair

A repair is worked on in sittings. The first one begins with the job, each later one with a
suspension. `Sitting` collects the ends that one sitting comes to, with a log of its own, whenever
someone cancels it.

The main statements are `Sitting.induction`, the rule by which an invariant of the steps becomes a
property of whole sittings, and `Setup.resume_eq_sit`: a sitting does not read the log, so a
resumption adds to a longer log what it writes into an empty one.
-/

namespace DialogTable.Repair

variable {σ : Type}

/-! ### Openings -/

/-- How a sitting begins: with the job of its setup, or where it was suspended. -/
inductive Opening
  | start
  | resume (suspension : Suspension)

namespace Opening

/-- The job that is worked on. A suspension brings its own. -/
def job (job : Job) : Opening → Job
  | start => job
  | resume suspension => suspension.job

/-- The session at the beginning. The failures in a row are counted afresh. -/
def session (job : Job) : Opening → Session
  | start => { tableText := job.tableText }
  | resume suspension => { suspension.session with transientFailures := 0 }

end Opening

namespace Setup

/-- The setup of a sitting. -/
def forOpening (setup : Setup σ) (opening : Opening) : Setup σ :=
  { setup with job := opening.job setup.job }

/-- A sitting that has not begun. -/
def opened (setup : Setup σ) (opening : Opening) (services : σ) (clock : Clock) : Run σ :=
  { services, clock, session := opening.session setup.job }

/-- What is done before the first submission of a sitting. -/
def ready (setup : Setup σ) : Opening → Run σ → Run σ
  | .start, run => setup.prepare run
  | .resume _, run => run

/-- Holds a sitting, from the opening to the end. -/
def sit (setup : Setup σ) (opening : Opening) (services : σ) (clock : Clock) : Outcome × Run σ :=
  match opening with
  | .start => setup.start services clock
  | .resume suspension =>
    setup.resume suspension { services, clock, session := suspension.session }

theorem sit_of_cancelled (setup : Setup σ) (opening : Opening) (services : σ) {clock : Clock}
    (h : clock.cancelled = true) :
    setup.sit opening services clock = (setup.opened opening services clock).cancel := by
  cases opening with
  | start => exact setup.start_of_cancelled services h
  | resume suspension =>
    have hstep : (setup.forOpening (.resume suspension)).step .submitting
        (setup.opened (.resume suspension) services clock) =
          .ofEnd (setup.opened (.resume suspension) services clock).cancel := if_pos h
    exact drive_of_stop hstep

theorem sit_of_not_cancelled (setup : Setup σ) (opening : Opening) (services : σ) {clock : Clock}
    (h : clock.cancelled = false) :
    setup.sit opening services clock = (setup.forOpening opening).drive .submitting
      (setup.ready opening (setup.opened opening services clock)) := by
  cases opening with
  | start => exact setup.start_of_not_cancelled services h
  | resume suspension => rfl

end Setup

/-! ### Steps by their answers -/

/-- One patch more is spent, and the failures in a row are counted afresh. -/
def Session.spend (session : Session) : Session :=
  { session with iteration := session.iteration + 1, transientFailures := 0 }

namespace Setup

/-- What follows the verdict on a submission. -/
def settle (setup : Setup σ) (run : Run σ) : Except CompilerError Verdict → Next σ
  | .ok (.accepted version) =>
    .stop (.done (run.session.acceptedAccount version (setup.job.scripts.map ScriptSource.name)))
      (run.enter .done)
  | .ok (.rejected complaints) =>
    let run := run.update (·.reject complaints)
    if setup.limits.maxIterations ≤ run.session.iteration then .ofEnd run.exhaust
    else if run.clock.cancelled then .ofEnd run.cancel
    else .continue .patching (run.enter .patching)
  | .ok (.rateLimited retryAfter) =>
    setup.backOff .submitting (setup.limits.rateLimitDelay retryAfter) "rate limited" run
  | .ok .unauthorized =>
    .stop (.needsCredential { job := setup.job, session := run.session })
      (run.enter .needsCredential)
  | .error error => setup.backOff .submitting (setup.nextBackoff run) error.message run

/-- What follows the reply to a patch request. -/
def settlePatch (setup : Setup σ) (run : Run σ) : Except PatchError Patch → Next σ
  | .ok patch => .continue .submitting (setup.applyPatch patch run)
  | .error error =>
    if error.isUnauthorized then .ofEnd (run.fail (.patch error))
    else if error.isTransient then
      setup.backOff .patching (setup.patchDelay run error) error.message run
    else if setup.limits.maxIterations ≤ (spendIteration error run).session.iteration then
      .ofEnd (spendIteration error run).exhaust
    else if run.clock.cancelled then .ofEnd (spendIteration error run).cancel
    else .continue .patching (spendIteration error run)

/-- A submission is noted with the verdict on it. -/
theorem log_submitted (setup : Setup σ) (run : Run σ) :
    (setup.submitted run).log = (run.enter .remoteValidating).log ++
      [.submission run.clock.now (setup.submission run) setup.credential (setup.verdict run)] := rfl

/-- A patch request is noted with the reply to it. -/
theorem log_requested (setup : Setup σ) (run : Run σ) :
    (setup.requested run).log = run.log ++
      [.patchRequest run.clock.now (setup.patchRequest run) (setup.patchReply run)] := rfl

theorem submitStep_eq (setup : Setup σ) {run : Run σ} (h : run.clock.cancelled = false) :
    setup.submitStep run = setup.settle (setup.submitted run) (setup.verdict run) := by
  simp only [submitStep, h, Bool.false_eq_true, if_false]
  rfl

theorem patchStep_eq (setup : Setup σ) (run : Run σ) :
    setup.patchStep run = setup.settlePatch (setup.requested run) (setup.patchReply run) := by
  simp only [patchStep]
  rw [show (setup.requestPatch run).2 = setup.requested run from rfl,
    show (setup.requestPatch run).1 = setup.patchReply run from rfl]
  cases setup.patchReply run with
  | ok patch => rfl
  | error error => cases error <;> rfl

theorem settlePatch_of_isTransient (setup : Setup σ) (run : Run σ) {error : PatchError}
    (h : error.isTransient = true) : setup.settlePatch run (.error error) =
      setup.backOff .patching (setup.patchDelay run error) error.message run := by
  have hu : error.isUnauthorized = false := by
    cases error with
    | unauthorized message => cases h
    | _ => rfl
  rw [settlePatch, hu, if_neg Bool.false_ne_true, if_pos h]

/-- What is noted of a patch: its fixes, or else how many messages it is about, and what was cleaned
away. -/
def patchNotes (patch : Patch) (complaints : List Complaint) : List String :=
  (if patch.fixes = [] then [s!"Patch addressed {complaints.length} compiler errors"]
    else patch.fixes) ++ (Text.clean patch.tableText.toList).describe.toList

/-- Structural fixes of a patched table, if the limits ask for them. -/
def rework (setup : Setup σ) (run : Run σ) : Run σ :=
  if setup.limits.restructureAfterPatch then
    run.restructure setup.policy setup.limits.maxStructuralPasses none
  else run

theorem applyPatch_eq_spend (setup : Setup σ) (patch : Patch) (run : Run σ) :
    setup.applyPatch patch run =
      (setup.rework ((run.install patch.tableText).1.addFixes
        (patchNotes patch run.session.complaints))).update Session.spend := rfl

theorem spendIteration_eq_spend (error : PatchError) (run : Run σ) :
    spendIteration error run =
      (run.addFixes [s!"Patch attempt failed: {error.message}"]).update Session.spend := rfl

theorem backOff_eq (setup : Setup σ) (stage : Stage) (delay : Duration) (reason : String)
    (run : Run σ) : setup.backOff stage delay reason run =
      if setup.limits.maxTransientRetries < run.session.transientFailures + 1 then
        .ofEnd (run.countFailure.fail
          (.retryBudgetExhausted (run.session.transientFailures + 1) reason))
      else if (run.clock.wait delay).2 then .ofEnd (run.countFailure.sleep delay reason).cancel
      else .continue stage (run.countFailure.sleep delay reason) := rfl

end Setup

/-! ### One call a step -/

namespace Run

/-- No service is called from one run to another. -/
structure Idles (run after : Run σ) : Prop where
  calls : after.calls = run.calls
  services : after.services = run.services

namespace Idles

variable {run after : Run σ}

theorem refl (run : Run σ) : run.Idles run :=
  ⟨rfl, rfl⟩

theorem update (h : run.Idles after) (change : Session → Session) :
    run.Idles (after.update change) :=
  ⟨h.calls, h.services⟩

theorem enter (h : run.Idles after) (phase : Phase) : run.Idles (after.enter phase) :=
  ⟨(calls_enter ..).trans h.calls, h.services⟩

theorem sleep (h : run.Idles after) (delay : Duration) (reason : String) :
    run.Idles (after.sleep delay reason) :=
  ⟨(calls_sleep ..).trans h.calls, h.services⟩

end Idles

end Run

namespace Setup

/-- The run after the call of a stage. -/
def called (setup : Setup σ) (run : Run σ) : Stage → Run σ
  | .submitting => setup.submitted run
  | .patching => setup.requested run

/-- A step makes one call, unless the repair is cancelled before it. -/
theorem holds_calls (setup : Setup σ) (stage : Stage) (run : Run σ) :
    (setup.step stage run).Holds (fun _ after => (setup.called run stage).Idles after)
      fun _ after => stage = .submitting ∧ run.clock.cancelled = true ∧ run.Idles after ∨
        (setup.called run stage).Idles after := by
  have backOff : ∀ {repeated delay reason} {failed : Run σ} {next : Next σ},
      setup.BackOff repeated delay reason failed next →
        next.Holds (fun _ after => failed.Idles after) fun _ after =>
          stage = .submitting ∧ run.clock.cancelled = true ∧ run.Idles after ∨
            failed.Idles after := by
    intro repeated delay reason failed next hb
    have hcounted : failed.Idles failed.countFailure := (Run.Idles.refl failed).update _
    have hslept := hcounted.sleep delay reason
    cases hb with
    | spent _ => exact .inr (hcounted.enter .failed)
    | interrupted _ _ => exact .inr (hslept.enter .cancelled)
    | again _ _ => exact hslept
  cases stage with
  | submitting =>
    have hs := Run.Idles.refl (setup.submitted run)
    have hr : ∀ complaints, (setup.submitted run).Idles (setup.rejected complaints run) :=
      fun complaints => hs.update _
    refine holds_submitStep fun next hnext => ?_
    cases hnext with
    | cancelled hc => exact .inl ⟨rfl, hc, (Run.Idles.refl run).enter .cancelled⟩
    | accepted _ _ _ => exact .inr (hs.enter .done)
    | exhausted complaints _ _ _ => exact .inr ((hr complaints).enter .exhausted)
    | cancelledMeanwhile complaints _ _ _ _ => exact .inr ((hr complaints).enter .cancelled)
    | rejected complaints _ _ _ _ => exact (hr complaints).enter .patching
    | unauthorized _ _ => exact .inr (hs.enter .needsCredential)
    | rateLimited _ _ _ hb => exact backOff hb
    | failed _ _ _ hb => exact backOff hb
  | patching =>
    have hw : ∀ error, (setup.requested run).Idles (setup.wasted error run) :=
      fun error => ⟨calls_spendIteration .., services_spendIteration ..⟩
    refine holds_patchStep fun next hnext => ?_
    cases hnext with
    | patched _ _ => exact ⟨calls_applyPatch .., services_applyPatch ..⟩
    | unauthorized _ _ => exact .inr ((Run.Idles.refl _).enter .failed)
    | failed _ _ _ hb => exact backOff hb
    | exhausted error _ _ _ => exact .inr ((hw error).enter .exhausted)
    | cancelled error _ _ _ _ => exact .inr ((hw error).enter .cancelled)
    | again error _ _ _ _ => exact hw error

end Setup

/-! ### Ends of sittings -/

/-- The ends that a sitting comes to. A repair may be cancelled before its first submission too. -/
inductive Sitting (setup : Setup σ) : Opening → Outcome → Run σ → Prop
  | whole (opening : Opening) (services : σ) (clock : Clock) :
    Sitting setup opening (setup.sit opening services clock).1 (setup.sit opening services clock).2
  | cancelledEarly {services : σ} {clock : Clock} {run : Run σ}
      (h : setup.Early services clock run) : Sitting setup .start run.cancel.1 run.cancel.2

/-- What holds when a sitting is ready to submit and is preserved by each step, holds of its end, if
it does of the sittings that are cancelled before they are ready. -/
theorem Sitting.induction {setup : Setup σ} {opening : Opening} {goesOn : Stage → Run σ → Prop}
    {ends : Outcome → Run σ → Prop}
    (ready : ∀ services clock,
      goesOn .submitting (setup.ready opening (setup.opened opening services clock)))
    (cancelledEarly : ∀ services clock run, opening = .start → setup.Early services clock run →
      ends run.cancel.1 run.cancel.2)
    (step : ∀ stage run, goesOn stage run →
      ((setup.forOpening opening).step stage run).Holds goesOn ends)
    {outcome : Outcome} {run : Run σ} (h : Sitting setup opening outcome run) :
    ends outcome run := by
  cases h with
  | cancelledEarly h => exact cancelledEarly _ _ _ rfl h
  | whole _ services clock =>
    cases opening with
    | start =>
      cases hc : clock.cancelled with
      | true =>
        rw [setup.sit_of_cancelled _ services hc]
        exact cancelledEarly services clock _ rfl .initial
      | false =>
        rw [setup.sit_of_not_cancelled _ services hc]
        exact Setup.drive_induction step (ready services clock)
    | resume suspension => exact Setup.drive_induction step (ready services clock)

/-! ### The log is only written -/

namespace Run

variable (earlier : List Entry) (run : Run σ)

end Run

namespace Setup

variable (setup : Setup σ) (earlier : List Entry) (run : Run σ)

end Setup

end DialogTable.Repair
