import DialogTable.Proofs.Repair.Account
import DialogTable.Proofs.Validation.Characters

/-!
# Submitted tables are clean

The table of a job may hold anything, and so may a patch. Both are cleaned before anything else is
done with them, and structural fixes write no character that would be cleaned away again. So the
current table is clean between any two calls (`Tidy`), and every table that the compiler gets to see
is a fixed point of cleaning (`Recorded.clean_of_submitted`).
-/

namespace DialogTable.Repair

variable {σ : Type}

/-! ### The current table -/

/-- The current table is clean. -/
def Session.IsClean (session : Session) : Prop :=
  Text.IsClean session.tableText.toList

namespace Run

/-- A text is clean once it is installed. -/
theorem isClean_install (run : Run σ) (tableText : String) :
    (run.install tableText).1.session.IsClean := by
  show Text.IsClean (String.ofList (Text.clean tableText.toList).text).toList
  rw [String.toList_ofList]
  exact Text.isClean_clean tableText.toList

theorem isClean_addFixes {run : Run σ} (h : run.session.IsClean) (fixes : List String) :
    (run.addFixes fixes).session.IsClean := by
  rw [session_addFixes]
  exact h

theorem isClean_noteIssues {run : Run σ} (h : run.session.IsClean) (report : Validation.Report) :
    (run.noteIssues report).session.IsClean := by
  unfold noteIssues
  split
  · exact h
  · exact h

theorem isClean_installFixed {run : Run σ} {report : Validation.Report}
    (h : Text.IsClean (report.fixedText.getD run.session.tableText).toList) :
    (run.installFixed report).session.IsClean := by
  rw [installFixed]
  apply isClean_addFixes
  exact h

/-- Any number of structural passes leaves the table clean. -/
theorem isClean_restructure {run : Run σ} (h : run.session.IsClean) (policy : Validation.Policy)
    (passes : Nat) (previous : Option Nat) :
    (run.restructure policy passes previous).session.IsClean := by
  induction passes generalizing previous run with
  | zero => exact h
  | succ passes ih =>
    have hfixed : Text.IsClean ((Validation.validate policy true
        run.session.tableText).fixedText.getD run.session.tableText).toList := by
      rw [Validation.fixedText_validate, Option.getD_some]
      exact Validation.isClean_fixedTable policy h
    unfold restructure
    generalize Validation.validate policy true run.session.tableText = report at hfixed ⊢
    dsimp only
    split
    · exact isClean_noteIssues h report
    · exact ih (isClean_installFixed hfixed) _

theorem isClean_clean (run : Run σ) : run.clean.session.IsClean := by
  rw [clean]
  exact isClean_addFixes (isClean_install _ _) _

end Run

namespace Setup

theorem isClean_prepare (setup : Setup σ) (run : Run σ) :
    (setup.prepare run).session.IsClean := by
  rw [prepare_eq]
  apply Run.isClean_restructure
  rw [Run.session_enter]
  exact run.isClean_clean

/-- A patched table is clean, whether it is restructured or not. -/
theorem isClean_applyPatch (setup : Setup σ) (patch : Patch) (run : Run σ) :
    (setup.applyPatch patch run).session.IsClean := by
  obtain ⟨fixes, h⟩ := setup.applyPatch_eq patch run
  have hinstalled : ((run.install patch.tableText).1.addFixes fixes).session.IsClean :=
    Run.isClean_addFixes (Run.isClean_install run patch.tableText) fixes
  rw [h, Run.session_update]
  split
  · exact Run.isClean_restructure hinstalled _ _ _
  · exact hinstalled

end Setup

/-! ### The submitted tables -/

/-- Each table that was submitted is clean. -/
def Run.SubmitsClean (run : Run σ) : Prop :=
  ∀ sent ∈ submissions run.calls, Text.IsClean sent.1.tableText.toList

/-- What holds between two calls: the current table is clean, and so are those that were
submitted. -/
structure Tidy (run : Run σ) : Prop where
  current : run.session.IsClean
  submitted : run.SubmitsClean

/-- What holds at the end: a suspended repair goes on with a clean table. -/
structure TidyEnd (outcome : Outcome) (run : Run σ) : Prop where
  submitted : run.SubmitsClean
  suspended : ∀ suspension, outcome = .needsCredential suspension → suspension.session.IsClean

namespace Tidy

variable {setup : Setup σ} {run after : Run σ}

/-- Only the calls and the current table matter. -/
theorem congr (h : Tidy run) (hc : after.calls = run.calls)
    (ht : after.session.tableText = run.session.tableText) : Tidy after := by
  refine ⟨?_, ?_⟩
  · rw [Session.IsClean, ht]
    exact h.current
  · rw [Run.SubmitsClean, hc]
    exact h.submitted

theorem ends (h : Tidy run) {outcome : Outcome} {account : Account}
    (ho : outcome.GivesUp account) : TidyEnd outcome run :=
  ⟨h.submitted, fun suspension heq => absurd heq (ho.ne_needsCredential suspension)⟩

theorem entered (h : Tidy run) (phase : Phase) : Tidy (run.enter phase) :=
  h.congr (Run.calls_enter ..) rfl

/-- The table that is submitted is the current one. -/
theorem sent (h : Tidy run) : Tidy (setup.submitted run) := by
  refine ⟨h.current, ?_⟩
  intro sent hsent
  rw [Setup.calls_submitted, submissions_concat_submission, List.mem_append,
    List.mem_singleton] at hsent
  rcases hsent with hsent | rfl
  · exact h.submitted sent hsent
  · exact h.current

theorem requested (h : Tidy run) : Tidy (setup.requested run) := by
  refine ⟨h.current, ?_⟩
  rw [Run.SubmitsClean, Setup.calls_requested, submissions_concat_patchRequest]
  exact h.submitted

theorem patched (h : Tidy run) (patch : Patch) : Tidy (setup.applyPatch patch run) := by
  refine ⟨setup.isClean_applyPatch patch run, ?_⟩
  rw [Run.SubmitsClean, Setup.calls_applyPatch]
  exact h.submitted

theorem backOff {stage : Stage} {delay : Duration} {reason : String} {next : Next σ}
    (h : Tidy run) (hb : setup.BackOff stage delay reason run next) :
    next.Holds (fun _ => Tidy) TidyEnd := by
  have hcounted : Tidy run.countFailure := h.congr rfl rfl
  have hslept : Tidy (run.countFailure.sleep delay reason) := h.congr (Run.calls_sleep ..) rfl
  cases hb with
  | spent _ => exact (hcounted.entered _).ends (.failed _)
  | interrupted _ _ => exact (hslept.entered _).ends .cancelled
  | again _ _ => exact hslept

theorem submitStep (h : Tidy run) : (setup.submitStep run).Holds (fun _ => Tidy) TidyEnd := by
  have hs : Tidy (setup.submitted run) := h.sent
  have hr : ∀ complaints, Tidy (setup.rejected complaints run) := fun _ => hs.congr rfl rfl
  refine Setup.holds_submitStep fun next hnext => ?_
  cases hnext with
  | cancelled _ => exact (h.entered _).ends .cancelled
  | accepted version _ _ => exact ⟨(hs.entered _).submitted, nofun⟩
  | exhausted complaints _ _ _ => exact ((hr complaints).entered _).ends .exhausted
  | cancelledMeanwhile complaints _ _ _ _ => exact ((hr complaints).entered _).ends .cancelled
  | rejected complaints _ _ _ _ => exact (hr complaints).entered _
  | unauthorized _ _ =>
    refine ⟨(hs.entered _).submitted, fun suspension heq => ?_⟩
    injection heq with heq
    rw [← heq]
    exact h.current
  | rateLimited retryAfter _ _ hb => exact hs.backOff hb
  | failed error _ _ hb => exact hs.backOff hb

theorem patchStep (h : Tidy run) : (setup.patchStep run).Holds (fun _ => Tidy) TidyEnd := by
  have hq : Tidy (setup.requested run) := h.requested
  have hw : ∀ error, Tidy (setup.wasted error run) := by
    intro error
    refine hq.congr (Setup.calls_spendIteration ..) ?_
    rw [Setup.wasted, Setup.spendIteration, Run.session_update, Run.session_addFixes]
  refine Setup.holds_patchStep fun next hnext => ?_
  cases hnext with
  | patched patch _ => exact hq.patched patch
  | unauthorized message _ => exact (hq.entered _).ends (.failed _)
  | failed error _ _ hb => exact hq.backOff hb
  | exhausted error _ _ _ => exact ((hw error).entered _).ends .exhausted
  | cancelled error _ _ _ _ => exact ((hw error).entered _).ends .cancelled
  | again error _ _ _ _ => exact hw error

end Tidy

/-! ### Whole repairs -/

theorem Ending.tidyEnd {kind : Limits → Validation.Policy → Prop} {outcome : Outcome} {run : Run σ}
    (h : Ending kind outcome run) : TidyEnd outcome run := by
  -- The table of the job itself need not be clean, but before it is nothing is submitted.
  have hnone : ∀ run : Run σ, run.calls = [] → run.SubmitsClean := by
    intro run hcalls sent hsent
    rw [hcalls] at hsent
    exact absurd hsent List.not_mem_nil
  have step : ∀ (setup : Setup σ) stage run, kind setup.limits setup.policy → Tidy run →
      (setup.step stage run).Holds (fun _ => Tidy) TidyEnd := by
    intro setup stage run _ hr
    cases stage with
    | submitting => exact hr.submitStep
    | patching => exact hr.patchStep
  refine Ending.induction_of_prepared ?_ ?_ step ?_ h
  · intro setup services clock _
    exact ⟨setup.isClean_prepare _, hnone _ (setup.calls_prepare _)⟩
  · intro setup services clock run _ hearly
    exact ⟨hnone _ ((Run.calls_enter ..).trans hearly.calls_eq_nil), nofun⟩
  · intro suspension run services clock hr
    exact ⟨hr.suspended suspension rfl, hr.submitted⟩

/-- **Every submitted table is clean.** Whatever the job, the services and the limits, in a repair
and all its resumptions: cleaning a table that was handed to the compiler removes nothing, replaces
nothing, changes no line end and returns the same text. -/
theorem Recorded.clean_of_submitted {kind : Limits → Validation.Policy → Prop} {outcome : Outcome}
    {run : Run (σ × List Exchange)} (h : Recorded kind outcome run) :
    ∀ submission ∈ run.services.2.filterMap Exchange.submission?,
      Text.clean submission.tableText.toList = { text := submission.tableText.toList } := by
  intro submission hmem
  obtain ⟨exchange, hexchange, hsubmission⟩ := List.mem_filterMap.1 hmem
  obtain ⟨entry, hentry, htells⟩ := exists_entry_of_mem h.told exchange hexchange
  cases htells with
  | requestPatch _ _ _ => cases hsubmission
  | @submit time sent credential reply answer _ =>
    obtain rfl : sent = submission := Option.some.inj hsubmission
    have hsent : (sent, answer) ∈ submissions run.calls := List.mem_filterMap.2 ⟨_, hentry, rfl⟩
    exact (Text.clean_eq_self_iff _).2 (h.ending.tidyEnd.submitted _ hsent)

/-- A byte order mark and a carriage return in the job, a non-breaking space in the patch, which is
not restructured. -/
theorem clean_of_submitted_of_patched :
    let setup : Setup Tape :=
      { Tape.setup "\uFEFFh\r\n" with limits := { restructureAfterPatch := false } }
    let tape : Tape :=
      { verdicts := [
          { answer := .ok (.rejected [{ node := some 1, message := "missing" }]) },
          { answer := .ok (.accepted "v7") }]
        patches := [{ answer := .ok { tableText := "k\u00A0x\n", fixes := [] } }] }
    let received := (setup.recorded.start (tape, []) {}).2.services.2
    (received.filterMap Exchange.submission?).map Submission.tableText = ["h\n", "k x\n"] ∧
      ∀ submission ∈ received.filterMap Exchange.submission?,
        Text.clean submission.tableText.toList = { text := submission.tableText.toList } := by
  intro setup tape received
  refine ⟨?_, ?_⟩
  · exact setup.recorded.start_of_startWithin
      (p := fun ending => (ending.2.services.2.filterMap Exchange.submission?).map
        Submission.tableText = _) 3 (by decide +kernel)
  · exact Recorded.clean_of_submitted
      (.start setup tape {} trivial : Recorded (fun _ _ => True) _ _)

end DialogTable.Repair
