import DialogTable.Proofs.Repair.Ending

/-!
# The errors that remain

An account tells which errors remain. They are the messages of the last rejection, unless the
compiler has rejected a table without any message: then the local findings about the next patch
take their place, though that table has never been submitted. `Ending.remainingErrors_eq_iff` says
that this is the only exception, and `remainingErrors_of_empty_rejection` shows that it happens.

The invariant is `Informed`: between any two calls the session knows the messages of the last
rejection in the log, and its errors are the ones that `Remaining` describes.
-/

namespace DialogTable.Repair

variable {σ : Type}

/-! ### The last rejection in a log -/

/-- What is known of the last rejection after one more entry: a rejection replaces it, a patch is
the answer to it. -/
def Entry.revise : Entry → Option (List Complaint × Option Patch) →
    Option (List Complaint × Option Patch)
  | .submission _ _ _ (.ok (.rejected complaints)), _ => some (complaints, none)
  | .patchRequest _ _ (.ok patch), known => known.map fun rejection => (rejection.1, some patch)
  | _, known => known

/-- The messages of the last rejection in a log, and the last patch that came after it. -/
def lastRejection (log : List Entry) : Option (List Complaint × Option Patch) :=
  log.foldl (fun known entry => entry.revise known) none

theorem lastRejection_concat (log : List Entry) (entry : Entry) :
    lastRejection (log ++ [entry]) = entry.revise (lastRejection log) := by
  rw [lastRejection, List.foldl_append]
  rfl

/-- Events tell of no rejection. -/
theorem lastRejection_filter_isCall (log : List Entry) :
    lastRejection (log.filter Entry.isCall) = lastRejection log := by
  rw [lastRejection, List.foldl_filter, lastRejection]
  congr 1
  funext known entry
  cases entry with
  | event event => rfl
  | submission => rfl
  | patchRequest => rfl

theorem Entry.revise_submission {time : Duration} {submission : Submission}
    {credential : Credential} {answer : Except CompilerError Verdict}
    (h : ∀ complaints, answer ≠ .ok (.rejected complaints))
    (known : Option (List Complaint × Option Patch)) :
    (Entry.submission time submission credential answer).revise known = known := by
  cases answer with
  | error error => rfl
  | ok verdict =>
    cases verdict with
    | rejected complaints => exact absurd rfl (h complaints)
    | _ => rfl

/-! ### Local findings -/

/-- The issues that structural fixes leave in a table, if the passes suffice to find them. -/
def leftovers (policy : Validation.Policy) : Nat → Option Nat → String →
    Option (List Validation.Issue)
  | 0, _, _ => none
  | passes + 1, previous, tableText =>
    let report := Validation.validate policy true tableText
    if Run.isSettled previous report then some report.issues
    else leftovers policy passes (some report.issues.length) (report.fixedText.getD tableText)

/-- The findings that are noted about a patch before it is submitted, if any are noted. -/
def localFindings (limits : Limits) (policy : Validation.Policy) (patch : Patch) :
    Option (List String) :=
  if limits.restructureAfterPatch then
    (leftovers policy limits.maxStructuralPasses none
      (.ofList (Text.clean patch.tableText.toList).text)).map (·.map Validation.Issue.text)
  else none

/-- Structural fixes note their findings only as long as no messages of the compiler are known. -/
theorem Run.remainingErrors_restructure (policy : Validation.Policy) (passes : Nat)
    (previous : Option Nat) (run : Run σ) :
    (run.restructure policy passes previous).session.remainingErrors =
      if run.session.complaints = [] then
        ((leftovers policy passes previous run.session.tableText).map
          (·.map Validation.Issue.text)).getD run.session.remainingErrors
      else run.session.remainingErrors := by
  induction passes generalizing previous run with
  | zero => exact (ite_self _).symm
  | succ passes ih =>
    unfold restructure leftovers
    generalize Validation.validate policy true run.session.tableText = report
    dsimp only
    split
    · unfold noteIssues
      split
      · rfl
      · rfl
    · rw [ih]
      simp only [installFixed, session_addFixes, session_update]

/-- The findings about a patch take the place of the errors if no messages are known. -/
theorem Setup.remainingErrors_applyPatch (setup : Setup σ) (patch : Patch) (run : Run σ) :
    (setup.applyPatch patch run).session.remainingErrors =
      if run.session.complaints = [] then
        (localFindings setup.limits setup.policy patch).getD run.session.remainingErrors
      else run.session.remainingErrors := by
  obtain ⟨fixes, h⟩ := setup.applyPatch_eq patch run
  rw [h, Run.session_update, localFindings]
  split
  · simp only [Run.remainingErrors_restructure, Run.session_addFixes]
    rfl
  · rw [Option.getD_none, ite_self, Run.session_addFixes]
    rfl

/-! ### What the session knows -/

/-- The errors that remain after a rejection. The messages of the rejection stay, but if there are
none the findings about a patch are noted in their place. -/
inductive Remaining (kind : Limits → Validation.Policy → Prop) :
    List Complaint → Option Patch → List String → Prop
  | rejected (complaints : List Complaint) :
    Remaining kind complaints none (complaints.map Complaint.text)
  | kept (complaints : List Complaint) (patch : Patch) (h : complaints ≠ []) :
    Remaining kind complaints (some patch) (complaints.map Complaint.text)
  | overwritten (patch : Patch) {limits : Limits} {policy : Validation.Policy}
      (hk : kind limits policy) :
    Remaining kind [] (some patch) ((localFindings limits policy patch).getD [])

theorem Remaining.errors_eq {kind : Limits → Validation.Policy → Prop}
    {complaints : List Complaint} {errors : List String}
    (h : Remaining kind complaints none errors) : errors = complaints.map Complaint.text := by
  cases h
  rfl

/-- What holds between two calls: the session knows the last rejection. A patch is asked for as
long as the last rejection has none. -/
structure Informed (kind : Limits → Validation.Policy → Prop) (stage : Stage) (run : Run σ) :
    Prop where
  known : ∀ complaints patch?, lastRejection run.calls = some (complaints, patch?) →
    run.session.complaints = complaints ∧
      Remaining kind complaints patch? run.session.remainingErrors
  patching : stage = .patching → ∃ complaints, lastRejection run.calls = some (complaints, none)

/-- What holds at the end: an account tells of the last rejection, unless the repair is done. -/
structure Telling (kind : Limits → Validation.Policy → Prop) (outcome : Outcome) (run : Run σ) :
    Prop where
  remaining : outcome.isDone = false → ∀ complaints patch?,
    lastRejection run.calls = some (complaints, patch?) →
      Remaining kind complaints patch? outcome.account.remainingErrors
  suspended : ∀ suspension, outcome = .needsCredential suspension → ∀ complaints patch?,
    lastRejection run.calls = some (complaints, patch?) →
      suspension.session.complaints = complaints

namespace Informed

variable {kind : Limits → Validation.Policy → Prop} {stage : Stage} {run after : Run σ}

/-- Only the last rejection and two parts of the session matter. -/
theorem congr (h : Informed kind stage run)
    (hc : lastRejection after.calls = lastRejection run.calls)
    (hm : after.session.complaints = run.session.complaints)
    (he : after.session.remainingErrors = run.session.remainingErrors) :
    Informed kind stage after := by
  refine ⟨?_, ?_⟩
  · rw [hc, hm, he]
    exact h.known
  · rw [hc]
    exact h.patching

theorem telling (h : Informed kind stage run) {outcome : Outcome}
    (ho : outcome.GivesUp run.session.submittedAccount) (hc : after.calls = run.calls) :
    Telling kind outcome after := by
  refine ⟨?_, ?_⟩
  · intro _ complaints patch? hlast
    rw [hc] at hlast
    rw [ho.account_eq]
    exact (h.known complaints patch? hlast).2
  · intro suspension hsuspended
    exact absurd hsuspended (ho.ne_needsCredential suspension)

/-- A submission that is not rejected tells nothing new. -/
theorem submitted {setup : Setup σ} (h : Informed kind .submitting run)
    (hv : ∀ complaints, setup.verdict run ≠ .ok (.rejected complaints)) :
    Informed kind .submitting (setup.submitted run) := by
  refine h.congr ?_ rfl rfl
  rw [Setup.calls_submitted, lastRejection_concat, Entry.revise_submission hv]

/-- A rejection is known from then on, and its messages remain. -/
theorem reject {setup : Setup σ} {complaints : List Complaint}
    (hv : setup.verdict run = .ok (.rejected complaints)) :
    Informed kind .patching (setup.rejected complaints run) := by
  have hlast : lastRejection (setup.rejected complaints run).calls = some (complaints, none) := by
    show lastRejection (setup.submitted run).calls = _
    rw [Setup.calls_submitted, lastRejection_concat, hv]
    rfl
  refine ⟨?_, fun _ => ⟨complaints, hlast⟩⟩
  intro others patch? h
  rw [hlast] at h
  cases h
  exact ⟨rfl, .rejected complaints⟩

/-- A reply without a patch tells nothing new. -/
theorem requested {setup : Setup σ} {error : PatchError} (h : Informed kind .patching run)
    (hr : setup.patchReply run = .error error) :
    Informed kind .patching (setup.requested run) := by
  refine h.congr ?_ rfl rfl
  rw [Setup.calls_requested, lastRejection_concat, hr]
  rfl

/-- Only a patch that answers an empty rejection changes the errors. -/
theorem patched {setup : Setup σ} {patch : Patch} (h : Informed kind .patching run)
    (hk : kind setup.limits setup.policy) (hr : setup.patchReply run = .ok patch) :
    Informed kind .submitting (setup.applyPatch patch (setup.requested run)) := by
  -- The rejection has no patch yet, so its messages are still the errors.
  obtain ⟨complaints, hlast⟩ := h.patching rfl
  obtain ⟨hcomplaints, hremaining⟩ := h.known complaints none hlast
  have hafter : lastRejection (setup.applyPatch patch (setup.requested run)).calls =
      some (complaints, some patch) := by
    rw [Setup.calls_applyPatch, Setup.calls_requested, lastRejection_concat, hr, hlast]
    rfl
  refine ⟨?_, nofun⟩
  intro others patch? ho
  rw [hafter] at ho
  cases ho
  obtain ⟨tableText, fixesApplied, remainingErrors, hs⟩ :=
    setup.session_applyPatch patch (setup.requested run)
  refine ⟨by rw [hs]; exact hcomplaints, ?_⟩
  rw [Setup.remainingErrors_applyPatch, Setup.session_requested, hcomplaints,
    hremaining.errors_eq]
  by_cases hempty : complaints = []
  · subst hempty
    exact .overwritten patch hk
  · rw [if_neg hempty]
    exact .kept complaints patch hempty

/-- A failure changes neither the messages nor the errors. -/
theorem backOff {setup : Setup σ} {delay : Duration} {reason : String} {next : Next σ}
    (h : Informed kind stage run) (hb : setup.BackOff stage delay reason run next) :
    next.Holds (Informed kind) (Telling kind) := by
  cases hb with
  | spent _ => exact h.telling (.failed _) (Run.calls_enter ..)
  | interrupted _ _ => exact h.telling .cancelled ((Run.calls_enter ..).trans (Run.calls_sleep ..))
  | again _ _ =>
    refine h.congr ?_ rfl rfl
    rw [Run.calls_sleep]
    rfl

end Informed

/-! ### Steps and ends -/

variable {kind : Limits → Validation.Policy → Prop}

/-- Nothing is asked of the account of an accepted table. -/
theorem Telling.done (account : Account) (run : Run σ) : Telling kind (.done account) run :=
  ⟨nofun, nofun⟩

theorem Telling.ofUnauthorized {setup : Setup σ} {run : Run σ}
    (h : Informed kind .submitting run) (hv : setup.verdict run = .ok .unauthorized) :
    Telling kind (.needsCredential { job := setup.job, session := (setup.submitted run).session })
      ((setup.submitted run).enter .needsCredential) := by
  have hs : Informed kind .submitting (setup.submitted run) :=
    h.submitted fun complaints => by rw [hv]; simp
  refine ⟨?_, ?_⟩
  · intro _ complaints patch? hlast
    rw [Run.calls_enter] at hlast
    exact (hs.known complaints patch? hlast).2
  · intro suspension hsuspended complaints patch? hlast
    rw [Run.calls_enter] at hlast
    injection hsuspended with hsuspended
    rw [← hsuspended]
    exact (hs.known complaints patch? hlast).1

theorem Informed.submitStep {setup : Setup σ} {run : Run σ} (h : Informed kind .submitting run) :
    (setup.submitStep run).Holds (Informed kind) (Telling kind) := by
  refine Setup.holds_submitStep fun next hnext => ?_
  cases hnext with
  | cancelled _ => exact h.telling .cancelled (Run.calls_enter ..)
  | accepted version _ _ => exact .done _ _
  | exhausted complaints _ hv _ => exact (reject hv).telling .exhausted (Run.calls_enter ..)
  | cancelledMeanwhile complaints _ hv _ _ =>
    exact (reject hv).telling .cancelled (Run.calls_enter ..)
  | rejected complaints _ hv _ _ =>
    refine (reject hv).congr ?_ rfl rfl
    rw [Run.calls_enter]
  | unauthorized _ hv => exact .ofUnauthorized h hv
  | rateLimited retryAfter _ hv hb => exact (h.submitted (by simp [hv])).backOff hb
  | failed error _ hv hb => exact (h.submitted (by simp [hv])).backOff hb

theorem Informed.patchStep {setup : Setup σ} {run : Run σ} (h : Informed kind .patching run)
    (hk : kind setup.limits setup.policy) :
    (setup.patchStep run).Holds (Informed kind) (Telling kind) := by
  -- A reply of no use is noted among the fixes only.
  have hw : ∀ error, setup.patchReply run = .error error →
      Informed kind .patching (setup.wasted error run) := by
    intro error he
    refine (h.requested he).congr ?_ ?_ ?_
    · rw [Setup.wasted, Setup.calls_spendIteration]
    · simp [Setup.wasted, Setup.spendIteration]
    · simp [Setup.wasted, Setup.spendIteration]
  refine Setup.holds_patchStep fun next hnext => ?_
  cases hnext with
  | patched patch hp => exact h.patched hk hp
  | unauthorized message he => exact (h.requested he).telling (.failed _) (Run.calls_enter ..)
  | failed error he _ hb => exact (h.requested he).backOff hb
  | exhausted error he _ _ => exact (hw error he).telling .exhausted (Run.calls_enter ..)
  | cancelled error he _ _ _ => exact (hw error he).telling .cancelled (Run.calls_enter ..)
  | again error he _ _ _ => exact hw error he

/-- A suspended session knows the last rejection too. -/
theorem Telling.reopen {suspension : Suspension} {run : Run σ}
    (h : Telling kind (.needsCredential suspension) run) (services : σ) (clock : Clock) :
    Informed kind .submitting (suspension.reopen run services clock) := by
  refine ⟨?_, nofun⟩
  intro complaints patch? hlast
  exact ⟨h.suspended suspension rfl complaints patch? hlast,
    h.remaining rfl complaints patch? hlast⟩

theorem Ending.telling {outcome : Outcome} {run : Run σ} (h : Ending kind outcome run) :
    Telling kind outcome run := by
  have early : ∀ (setup : Setup σ) services clock run, kind setup.limits setup.policy →
      setup.Early services clock run → Informed kind .submitting run := by
    intro setup services clock run _ he
    refine ⟨?_, nofun⟩
    intro complaints patch? hlast
    rw [he.calls_eq_nil] at hlast
    cases hlast
  have step : ∀ (setup : Setup σ) stage run, kind setup.limits setup.policy →
      Informed kind stage run →
        (setup.step stage run).Holds (Informed kind) (Telling kind) := by
    intro setup stage run hk hr
    cases stage with
    | submitting => exact hr.submitStep
    | patching => exact hr.patchStep hk
  exact Ending.induction early (fun run hr => hr.telling .cancelled (Run.calls_enter ..)) step
    (fun suspension run services clock hr => hr.reopen services clock) h

/-- **The verdict of the compiler stands, unless it was empty.** Over all repairs and resumptions
under some limits and a policy: once a table was rejected, an account that is not about an accepted
table tells exactly the messages of the last rejection, if and only if there are any, or no patch
came after it, or structural fixes have noted nothing about the patch. -/
theorem Ending.remainingErrors_eq_iff {limits : Limits} {policy : Validation.Policy}
    {outcome : Outcome} {run : Run σ} {complaints : List Complaint} {patch? : Option Patch}
    (h : Ending (fun l p => l = limits ∧ p = policy) outcome run)
    (hd : outcome.isDone = false) (hr : lastRejection run.log = some (complaints, patch?)) :
    outcome.account.remainingErrors = complaints.map Complaint.text ↔
      complaints ≠ [] ∨
        ∀ patch ∈ patch?, ∀ findings ∈ localFindings limits policy patch, findings = [] := by
  have hcalls : lastRejection run.calls = some (complaints, patch?) := by
    rw [Run.calls, lastRejection_filter_isCall, hr]
  have hremaining := h.telling.remaining hd complaints patch? hcalls
  generalize outcome.account.remainingErrors = errors at hremaining ⊢
  cases hremaining with
  | rejected => simp
  | kept _ patch hne => simp [hne]
  | overwritten patch hk =>
    have hnone : (localFindings limits policy patch).getD [] = [] ↔
        ∀ findings ∈ localFindings limits policy patch, findings = [] := by
      cases localFindings limits policy patch with
      | none => simp
      | some findings => simp
    rw [hk.1, hk.2]
    simpa using hnone

/-- A table that is rejected with some messages and patched. The patch lacks a command, and someone
cancels the repair before it is submitted. -/
def Tape.rejectedThenCancelled (complaints : List Complaint) : Tape where
  verdicts := [{ answer := .ok (.rejected complaints) }]
  patches := [{ answer := .ok { tableText := "h\n1,A,a\n", fixes := [] }, cancels := true }]

/-- Messages of the compiler are not overwritten. -/
theorem remainingErrors_of_rejection :
    let missing : Complaint := { node := some 1, message := "missing" }
    let ending := (Tape.setup "h\n").start (.rejectedThenCancelled [missing]) {}
    ending.1.isDone = false ∧ ending.1.account.remainingErrors = [missing.text] := by
  intro missing ending
  have hdone : ending.1.isDone = false :=
    Setup.start_of_startWithin (p := fun ending => ending.1.isDone = false) 3 (by decide +kernel)
  have hlast : lastRejection ending.2.log =
      some ([missing], some { tableText := "h\n1,A,a\n", fixes := [] }) :=
    Setup.start_of_startWithin (p := fun ending => lastRejection ending.2.log = _) 3
      (by decide +kernel)
  have hending : Ending (fun l p => l = {} ∧ p = {}) ending.1 ending.2 :=
    .start (Tape.setup "h\n") _ {} ⟨rfl, rfl⟩
  exact ⟨hdone, (hending.remainingErrors_eq_iff hdone hlast).mpr (.inl (List.cons_ne_nil _ _))⟩

/-- After a rejection without messages the findings about a patch are told, which has never been
submitted. -/
theorem remainingErrors_of_empty_rejection :
    ¬ ∀ (setup : Setup Tape) (tape : Tape) (clock : Clock) (complaints : List Complaint)
      (patch? : Option Patch), (setup.start tape clock).1.isDone = false →
        lastRejection (setup.start tape clock).2.log = some (complaints, patch?) →
          (setup.start tape clock).1.account.remainingErrors =
            complaints.map Complaint.text := by
  intro hall
  have hending : ∃ ending ∈ (Tape.setup "h\n").startWithin 3 (.rejectedThenCancelled []) {},
      ending.1.isDone = false ∧
        lastRejection ending.2.log =
          some ([], some { tableText := "h\n1,A,a\n", fixes := [] }) ∧
        ending.1.account.remainingErrors ≠ [] := by
    decide +kernel
  obtain ⟨hdone, hlast, herrors⟩ := Setup.start_of_startWithin (p := fun ending =>
    ending.1.isDone = false ∧
      lastRejection ending.2.log =
        some ([], some { tableText := "h\n1,A,a\n", fixes := [] }) ∧
      ending.1.account.remainingErrors ≠ []) 3 hending
  exact herrors (hall (Tape.setup "h\n") _ {} [] _ hdone hlast)

end DialogTable.Repair
