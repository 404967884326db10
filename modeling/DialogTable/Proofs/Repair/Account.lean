import Mathlib.Data.List.Basic
import DialogTable.Proofs.Repair.Exchanges

/-!
# The account of a repair is true

A session remembers the table it submitted last and the messages it got, apart from each other and
from the current table. The log tells what really happened, and a record that the services keep
bears it out. The main statement `Recorded.account_truthful` compares the three, over all repairs
and resumptions: the table of an account is the one submitted last, it is called accepted exactly if
the compiler has accepted it, and each patch request is about the table submitted last and the
messages of its rejection.

The invariant is `Consistent`: the session agrees with the log between any two calls, and while a
patch is asked for the current table is still the rejected one.
-/

namespace DialogTable.Repair

variable {σ : Type}

/-! ### Submissions in a log -/

/-- The submission that an entry tells of, with the answer to it. -/
def Entry.submission? : Entry → Option (Submission × Except CompilerError Verdict)
  | .submission _ sent _ answer => some (sent, answer)
  | _ => none

/-- The submissions in a log, each with the answer to it. -/
def submissions (log : List Entry) : List (Submission × Except CompilerError Verdict) :=
  log.filterMap Entry.submission?

/-- The last submission in a log, with the answer to it. -/
def lastSubmission (log : List Entry) : Option (Submission × Except CompilerError Verdict) :=
  (submissions log).getLast?

/-- Each patch request in a log is about the table submitted last, and brings the messages with
which that very submission was rejected. -/
def Grounded (log : List Entry) : Prop :=
  ∀ before time request answer after, log = before ++ .patchRequest time request answer :: after →
    ∃ submission, lastSubmission before = some (submission, .ok (.rejected request.complaints)) ∧
      request.tableText = submission.tableText

theorem submissions_append (a b : List Entry) :
    submissions (a ++ b) = submissions a ++ submissions b :=
  List.filterMap_append

theorem submissions_concat_submission (log : List Entry) (time : Duration)
    (submission : Submission) (credential : Credential) (answer : Except CompilerError Verdict) :
    submissions (log ++ [.submission time submission credential answer]) =
      submissions log ++ [(submission, answer)] :=
  submissions_append log _

theorem submissions_concat_patchRequest (log : List Entry) (time : Duration)
    (request : PatchRequest) (answer : Except PatchError Patch) :
    submissions (log ++ [.patchRequest time request answer]) = submissions log := by
  rw [submissions_append]
  exact List.append_nil _

theorem lastSubmission_concat_submission (log : List Entry) (time : Duration)
    (submission : Submission) (credential : Credential) (answer : Except CompilerError Verdict) :
    lastSubmission (log ++ [.submission time submission credential answer]) =
      some (submission, answer) := by
  rw [lastSubmission, submissions_concat_submission, List.getLast?_concat]

theorem lastSubmission_concat_patchRequest (log : List Entry) (time : Duration)
    (request : PatchRequest) (answer : Except PatchError Patch) :
    lastSubmission (log ++ [.patchRequest time request answer]) = lastSubmission log := by
  rw [lastSubmission, submissions_concat_patchRequest, lastSubmission]

/-- Events tell of no submission. -/
theorem submissions_filter_isCall (log : List Entry) :
    submissions (log.filter Entry.isCall) = submissions log := by
  rw [submissions, submissions, List.filterMap_filter]
  apply List.filterMap_congr
  intro entry _
  cases entry with
  | event event => rfl
  | submission => rfl
  | patchRequest => rfl

theorem lastSubmission_filter_isCall (log : List Entry) :
    lastSubmission (log.filter Entry.isCall) = lastSubmission log := by
  rw [lastSubmission, submissions_filter_isCall, lastSubmission]

namespace Grounded

theorem nil : Grounded [] := by
  intro before time request answer after h
  exact absurd h.symm (List.append_ne_nil_of_right_ne_nil _ (List.cons_ne_nil _ _))

/-- What an entry at a place of a longer log says was said before, or stands at the end. -/
theorem concat {log : List Entry} {entry : Entry} (h : Grounded log)
    (he : ∀ time request answer, entry = .patchRequest time request answer →
      ∃ submission, lastSubmission log = some (submission, .ok (.rejected request.complaints)) ∧
        request.tableText = submission.tableText) : Grounded (log ++ [entry]) := by
  intro before time request answer after heq
  rcases List.eq_nil_or_concat after with rfl | ⟨earlier, last, rfl⟩
  · -- the request is the new entry
    obtain ⟨rfl, hlast⟩ := List.append_inj' heq rfl
    exact he time request answer (List.cons.inj hlast).1
  · -- the request was there before
    have hsplit : log ++ [entry] =
        (before ++ .patchRequest time request answer :: earlier) ++ [last] := by
      simpa using heq
    exact h before time request answer earlier (List.append_inj' hsplit rfl).1

theorem of_filter_isCall {log : List Entry} (h : Grounded (log.filter Entry.isCall)) :
    Grounded log := by
  intro before time request answer after heq
  have hfilter : log.filter Entry.isCall = before.filter Entry.isCall ++
      .patchRequest time request answer :: after.filter Entry.isCall := by
    rw [heq, List.filter_append]
    rfl
  have hgrounded := h _ time request answer _ hfilter
  rw [lastSubmission_filter_isCall] at hgrounded
  exact hgrounded

end Grounded

/-! ### The session and the log -/

/-- The table that was submitted last, if any was. -/
def Run.submittedText (run : Run σ) : Option String :=
  (lastSubmission run.calls).map fun call => call.1.tableText

/-- What holds between two calls: the session agrees with the log. -/
structure Consistent (stage : Stage) (run : Run σ) : Prop where
  lastSubmitted : run.session.lastSubmitted = run.submittedText
  notAccepted : ∀ submission version,
    (submission, .ok (.accepted version)) ∉ submissions run.calls
  grounded : Grounded run.calls
  rejected : stage = .patching → ∃ submission,
    lastSubmission run.calls = some (submission, .ok (.rejected run.session.complaints)) ∧
      run.session.tableText = submission.tableText

/-- What holds at the end: the account tells what the log tells. -/
structure Truthful (outcome : Outcome) (run : Run σ) : Prop where
  tableText : outcome.account.tableText = run.submittedText.getD run.session.tableText
  valid : outcome.account.valid = outcome.isDone
  version : outcome.account.version.isSome = outcome.isDone
  accepted : outcome.isDone = true → ∃ submission version,
    lastSubmission run.calls = some (submission, .ok (.accepted version)) ∧
      outcome.account.version = some version
  done : ∀ submission version, (submission, .ok (.accepted version)) ∈ submissions run.calls →
    outcome.isDone = true
  grounded : Grounded run.calls
  suspended : ∀ suspension, outcome = .needsCredential suspension →
    suspension.session.lastSubmitted = run.submittedText

theorem Run.submittedText_congr {run after : Run σ} (h : after.calls = run.calls) :
    after.submittedText = run.submittedText := by
  rw [submittedText, h, submittedText]

namespace Consistent

variable {stage : Stage} {run after : Run σ}

/-- A table may be submitted whatever became of it. -/
theorem resubmit (h : Consistent stage run) (hc : after.calls = run.calls)
    (hs : after.session.lastSubmitted = run.session.lastSubmitted) :
    Consistent .submitting after := by
  refine ⟨?_, ?_, ?_, nofun⟩
  · rw [hs, Run.submittedText_congr hc]
    exact h.lastSubmitted
  · rw [hc]
    exact h.notAccepted
  · rw [hc]
    exact h.grounded

/-- Only the calls and three parts of the session matter. -/
theorem congr (h : Consistent stage run) (hc : after.calls = run.calls)
    (hs : after.session.lastSubmitted = run.session.lastSubmitted)
    (ht : after.session.tableText = run.session.tableText)
    (hm : after.session.complaints = run.session.complaints) : Consistent stage after := by
  have hafter := h.resubmit hc hs
  refine ⟨hafter.lastSubmitted, hafter.notAccepted, hafter.grounded, ?_⟩
  rw [hc, ht, hm]
  exact h.rejected

/-- The account of the table submitted last is true as long as none was accepted. -/
theorem truthful (h : Consistent stage run) {outcome : Outcome}
    (ho : outcome.GivesUp run.session.submittedAccount) (hc : after.calls = run.calls)
    (ht : after.session.tableText = run.session.tableText) : Truthful outcome after := by
  refine ⟨?_, ?_, ?_, ?_, ?_, ?_, ?_⟩
  · rw [ho.account_eq, Run.submittedText_congr hc, ht, ← h.lastSubmitted]
    rfl
  · rw [ho.account_eq, ho.isDone_eq]
    rfl
  · rw [ho.account_eq, ho.isDone_eq]
    rfl
  · intro hdone
    rw [ho.isDone_eq] at hdone
    cases hdone
  · intro submission version hmem
    rw [hc] at hmem
    exact absurd hmem (h.notAccepted submission version)
  · rw [hc]
    exact h.grounded
  · intro suspension hsuspended
    exact absurd hsuspended (ho.ne_needsCredential suspension)

/-- A submission that is not accepted. -/
theorem submitted {setup : Setup σ} (h : Consistent .submitting run)
    (hv : ∀ version, setup.verdict run ≠ .ok (.accepted version)) :
    Consistent .submitting (setup.submitted run) := by
  refine ⟨?_, ?_, ?_, nofun⟩
  · rw [Run.submittedText, Setup.calls_submitted, lastSubmission_concat_submission]
    rfl
  · intro submission version hmem
    rw [Setup.calls_submitted, submissions_concat_submission, List.mem_append,
      List.mem_singleton] at hmem
    rcases hmem with hmem | hmem
    · exact h.notAccepted submission version hmem
    · exact hv version (Prod.mk.inj hmem).2.symm
  · rw [Setup.calls_submitted]
    exact h.grounded.concat nofun

/-- After a rejection the current table is the one that was rejected. -/
theorem reject {setup : Setup σ} {complaints : List Complaint} (h : Consistent .submitting run)
    (hv : setup.verdict run = .ok (.rejected complaints)) :
    Consistent .patching (setup.rejected complaints run) := by
  have hs : Consistent .submitting (setup.submitted run) :=
    h.submitted fun version => by rw [hv]; simp
  refine ⟨hs.lastSubmitted, hs.notAccepted, hs.grounded, fun _ => ⟨setup.submission run, ?_, rfl⟩⟩
  show lastSubmission (setup.submitted run).calls = _
  rw [Setup.calls_submitted, lastSubmission_concat_submission, hv]
  rfl

/-- A patch request is about the rejected table. -/
theorem requested {setup : Setup σ} (h : Consistent .patching run) :
    Consistent .patching (setup.requested run) := by
  have hlast : lastSubmission (setup.requested run).calls = lastSubmission run.calls := by
    rw [Setup.calls_requested, lastSubmission_concat_patchRequest]
  refine ⟨?_, ?_, ?_, ?_⟩
  · rw [Run.submittedText, hlast]
    exact h.lastSubmitted
  · rw [Setup.calls_requested, submissions_concat_patchRequest]
    exact h.notAccepted
  · rw [Setup.calls_requested]
    apply h.grounded.concat
    intro time request answer hentry
    injection hentry with _ hrequest _
    obtain ⟨submission, hsubmission, htext⟩ := h.rejected rfl
    subst hrequest
    exact ⟨submission, hsubmission, htext⟩
  · rw [hlast]
    exact h.rejected

/-- A failure changes nothing that an account tells. -/
theorem backOff {setup : Setup σ} {delay : Duration} {reason : String} {next : Next σ}
    (h : Consistent stage run) (hb : setup.BackOff stage delay reason run next) :
    next.Holds Consistent Truthful := by
  cases hb with
  | spent _ => exact h.truthful (.failed _) (Run.calls_enter ..) rfl
  | interrupted _ _ =>
    exact h.truthful .cancelled ((Run.calls_enter ..).trans (Run.calls_sleep ..)) rfl
  | again _ _ => exact h.congr (Run.calls_sleep ..) rfl rfl rfl

end Consistent

/-! ### Steps and ends -/

/-- An accepted table is the current one, and the run ends with it. -/
theorem Truthful.ofAccepted {setup : Setup σ} {run : Run σ} {version : String}
    (h : Consistent .submitting run) (hv : setup.verdict run = .ok (.accepted version)) :
    Truthful (.done ((setup.submitted run).session.acceptedAccount version
      (setup.job.scripts.map ScriptSource.name))) ((setup.submitted run).enter .done) := by
  have hcalls : ((setup.submitted run).enter .done).calls = run.calls ++
      [.submission run.clock.now (setup.submission run) setup.credential
        (.ok (.accepted version))] := by
    rw [Run.calls_enter, Setup.calls_submitted, hv]
  have hlast : lastSubmission ((setup.submitted run).enter .done).calls =
      some (setup.submission run, .ok (.accepted version)) := by
    rw [hcalls, lastSubmission_concat_submission]
  refine ⟨?_, rfl, rfl, fun _ => ⟨_, version, hlast, rfl⟩, fun _ _ _ => rfl, ?_, nofun⟩
  · rw [Run.submittedText, hlast]
    rfl
  · rw [hcalls]
    exact h.grounded.concat nofun

/-- A suspended repair stands at the table it submitted last. -/
theorem Truthful.ofUnauthorized {setup : Setup σ} {run : Run σ}
    (h : Consistent .submitting run) (hv : setup.verdict run = .ok .unauthorized) :
    Truthful (.needsCredential { job := setup.job, session := (setup.submitted run).session })
      ((setup.submitted run).enter .needsCredential) := by
  have hs : Consistent .submitting (setup.submitted run) :=
    h.submitted fun version => by rw [hv]; simp
  have hc : ((setup.submitted run).enter .needsCredential).calls = (setup.submitted run).calls :=
    Run.calls_enter ..
  have ht : ((setup.submitted run).enter .needsCredential).submittedText =
      some run.session.tableText := by
    rw [Run.submittedText_congr hc, ← hs.lastSubmitted]
    rfl
  refine ⟨?_, rfl, rfl, nofun, ?_, ?_, ?_⟩
  · rw [ht]
    rfl
  · intro submission version hmem
    rw [hc] at hmem
    exact absurd hmem (hs.notAccepted submission version)
  · rw [hc]
    exact hs.grounded
  · intro suspension hsuspended
    injection hsuspended with hsuspended
    rw [← hsuspended, ht]
    rfl

theorem Consistent.submitStep {setup : Setup σ} {run : Run σ} (h : Consistent .submitting run) :
    (setup.submitStep run).Holds Consistent Truthful := by
  refine Setup.holds_submitStep fun next hnext => ?_
  cases hnext with
  | cancelled _ => exact h.truthful .cancelled (Run.calls_enter ..) rfl
  | accepted version _ hv => exact .ofAccepted h hv
  | exhausted complaints _ hv _ =>
    exact (h.reject hv).truthful .exhausted (Run.calls_enter ..) rfl
  | cancelledMeanwhile complaints _ hv _ _ =>
    exact (h.reject hv).truthful .cancelled (Run.calls_enter ..) rfl
  | rejected complaints _ hv _ _ => exact (h.reject hv).congr (Run.calls_enter ..) rfl rfl rfl
  | unauthorized _ hv => exact .ofUnauthorized h hv
  | rateLimited retryAfter _ hv hb => exact (h.submitted (by simp [hv])).backOff hb
  | failed error _ hv hb => exact (h.submitted (by simp [hv])).backOff hb

theorem Consistent.patchStep {setup : Setup σ} {run : Run σ} (h : Consistent .patching run) :
    (setup.patchStep run).Holds Consistent Truthful := by
  have hq : Consistent .patching (setup.requested run) := h.requested
  -- A reply of no use leaves the table, and the messages about it.
  have hw : ∀ error, Consistent .patching (setup.wasted error run) := by
    intro error
    refine hq.congr (Setup.calls_spendIteration ..) ?_ ?_ ?_ <;>
      simp [Setup.wasted, Setup.spendIteration]
  refine Setup.holds_patchStep fun next hnext => ?_
  cases hnext with
  | patched patch _ =>
    refine hq.resubmit (Setup.calls_applyPatch ..) ?_
    obtain ⟨tableText, fixesApplied, remainingErrors, hs⟩ :=
      setup.session_applyPatch patch (setup.requested run)
    rw [hs]
  | unauthorized message _ => exact hq.truthful (.failed _) (Run.calls_enter ..) rfl
  | failed error _ _ hb => exact hq.backOff hb
  | exhausted error _ _ _ => exact (hw error).truthful .exhausted (Run.calls_enter ..) rfl
  | cancelled error _ _ _ _ => exact (hw error).truthful .cancelled (Run.calls_enter ..) rfl
  | again error _ _ _ _ => exact hw error

theorem Truthful.reopen {suspension : Suspension} {run : Run σ}
    (h : Truthful (.needsCredential suspension) run) (services : σ) (clock : Clock) :
    Consistent .submitting (suspension.reopen run services clock) := by
  refine ⟨h.suspended suspension rfl, ?_, h.grounded, nofun⟩
  intro submission version hmem
  exact absurd (h.done submission version hmem) nofun

theorem Ending.truthful {kind : Limits → Validation.Policy → Prop} {outcome : Outcome}
    {run : Run σ} (h : Ending kind outcome run) : Truthful outcome run := by
  have early : ∀ (setup : Setup σ) services clock run, kind setup.limits setup.policy →
      setup.Early services clock run → Consistent .submitting run := by
    intro setup services clock run _ he
    have hc := he.calls_eq_nil
    refine ⟨?_, ?_, ?_, nofun⟩
    · rw [he.session_eq.1, Run.submittedText, hc]
      rfl
    · rw [hc]
      exact fun _ _ => List.not_mem_nil
    · rw [hc]
      exact .nil
  have step : ∀ (setup : Setup σ) stage run, kind setup.limits setup.policy →
      Consistent stage run → (setup.step stage run).Holds Consistent Truthful := by
    intro setup stage run _ hr
    cases stage with
    | submitting => exact hr.submitStep
    | patching => exact hr.patchStep
  exact Ending.induction early
    (fun run hr => hr.truthful .cancelled (Run.calls_enter ..) rfl) step
    (fun suspension run services clock hr => hr.reopen services clock) h

/-- **The account of a repair is true.** Over all repairs and resumptions, whatever the services
answer and whenever someone cancels: the table of the account is the one submitted last, or the
current one if none was submitted. It is called valid, and has a version, exactly if the repair is
done. It is done exactly if the compiler's last answer has accepted that very table as that
version. Each patch request was about the table submitted last and brought the messages of its
rejection. All this is what the services have received and replied: the submissions and the patch
requests in the log are those that they have recorded. -/
theorem Recorded.account_truthful {kind : Limits → Validation.Policy → Prop} {outcome : Outcome}
    {run : Run (σ × List Exchange)} (h : Recorded kind outcome run) :
    outcome.account.tableText =
        ((lastSubmission run.log).map fun call => call.1.tableText).getD run.session.tableText ∧
      (outcome.account.valid = true ↔ outcome.isDone = true) ∧
      (outcome.account.version.isSome = true ↔ outcome.isDone = true) ∧
      (outcome.isDone = true ↔ ∃ submission version,
        lastSubmission run.log = some (submission, .ok (.accepted version)) ∧
          outcome.account.tableText = submission.tableText ∧
          outcome.account.version = some version) ∧
      Grounded run.log ∧
      List.Forall₂ (Exchange.Tells kind) run.services.2 (run.log.filter Entry.isCall) := by
  have ht := h.ending.truthful
  have hlast : lastSubmission run.calls = lastSubmission run.log :=
    lastSubmission_filter_isCall run.log
  have htext := ht.tableText
  rw [Run.submittedText, hlast] at htext
  refine ⟨htext, by rw [ht.valid], by rw [ht.version], ⟨?_, ?_⟩, ht.grounded.of_filter_isCall,
    h.told⟩
  · intro hdone
    obtain ⟨submission, version, hsubmission, hversion⟩ := ht.accepted hdone
    rw [hlast] at hsubmission
    refine ⟨submission, version, hsubmission, ?_, hversion⟩
    rw [htext, hsubmission]
    rfl
  · rintro ⟨submission, version, hsubmission, -, -⟩
    rw [← hlast] at hsubmission
    exact ht.done submission version (List.mem_of_getLast? hsubmission)

/-- A table that is rejected, patched and then accepted. The patch service has received the rejected
table with the message about it. -/
theorem account_truthful_of_patched :
    let setup := (Tape.setup "h\n").recorded
    let complaint : Complaint := { node := some 1, message := "missing" }
    let tape : Tape :=
      { verdicts := [{ answer := .ok (.rejected [complaint]) }, { answer := .ok (.accepted "v7") }]
        patches := [{ answer := .ok { tableText := "k\n", fixes := [] } }] }
    let ending := setup.start (tape, []) {}
    ending.1.isDone = true ∧ ending.1.account.tableText = "k\n" ∧
      ending.1.account.version = some "v7" ∧
      ending.2.services.2.filterMap Exchange.request? =
        [{ tableText := "h\n", complaints := [complaint], context := "" }] ∧
      List.Forall₂ (Exchange.Tells fun _ _ => True) ending.2.services.2
        (ending.2.log.filter Entry.isCall) := by
  intro setup complaint tape ending
  have hlog : lastSubmission ending.2.log =
      some ({ botId := "bot", tableText := "k\n" }, .ok (.accepted "v7")) :=
    Setup.start_of_startWithin (p := fun ending => lastSubmission ending.2.log = _) 3
      (by decide +kernel)
  have hdone : ending.1.isDone = true :=
    Setup.start_of_startWithin (p := fun ending => ending.1.isDone = true) 3 (by decide +kernel)
  have hrequests : ending.2.services.2.filterMap Exchange.request? =
      [{ tableText := "h\n", complaints := [complaint], context := "" }] :=
    setup.start_of_startWithin
      (p := fun ending => ending.2.services.2.filterMap Exchange.request? = _) 3
      (by decide +kernel)
  obtain ⟨-, -, -, haccepted, -, htold⟩ := Recorded.account_truthful
    (.start (Tape.setup "h\n") tape {} trivial : Recorded (fun _ _ => True) _ _)
  obtain ⟨submission, version, hlast, htext, hversion⟩ := haccepted.mp hdone
  rw [hlog] at hlast
  cases hlast
  exact ⟨hdone, htext, hversion, hrequests, htold⟩

end DialogTable.Repair
