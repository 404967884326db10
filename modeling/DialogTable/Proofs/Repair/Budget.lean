import DialogTable.Proofs.Repair.Ending

/-!
# The budgets of a repair

A repair may spend some patches (`maxIterations`) and some failures in a row
(`maxTransientRetries`). Between two patches each service is called at most once more than failures
are put up with, and that bounds the calls of a whole run. The counter of patches is exact: it
stands at the number of replies that held a patch or were of no use.

The invariant is `Ledger`: it bounds the calls made so far by the two counters, in the submitting
and in the patching stage. Each call adds one to the side that the stage is about; a failure in a
row pays for it, or else the counter of failures starts again and a new stage pays with a full set
of retries.
-/

namespace DialogTable.Repair

variable {σ : Type}

namespace Entry

/-- A submission. -/
def isSubmission : Entry → Bool
  | .submission .. => true
  | _ => false

/-- A patch request. -/
def isPatchRequest : Entry → Bool
  | .patchRequest .. => true
  | _ => false

/-- A patch request whose reply held a patch, or was of no use and would be again. -/
def spendsPatch : Entry → Bool
  | .patchRequest _ _ (.ok _) => true
  | .patchRequest _ _ (.error error) => error.isUnusable
  | _ => false

end Entry

/-- The number of calls of a kind. -/
def Run.count (run : Run σ) (kind : Entry → Bool) : Nat :=
  run.calls.countP kind

theorem Run.count_congr {run after : Run σ} (h : after.calls = run.calls) (kind : Entry → Bool) :
    after.count kind = run.count kind := by
  rw [count, count, h]

theorem Run.count_countFailure (run : Run σ) (kind : Entry → Bool) :
    run.countFailure.count kind = run.count kind := rfl

/-- A kind of calls is counted among the calls. -/
theorem countP_filter_isCall {kind : Entry → Bool} (h : ∀ event, kind (.event event) = false)
    (log : List Entry) : (log.filter Entry.isCall).countP kind = log.countP kind := by
  rw [List.countP_filter]
  apply List.countP_congr
  intro entry _
  cases entry with
  | event event => simp [h event]
  | submission => simp [Entry.isCall]
  | patchRequest => simp [Entry.isCall]

theorem Run.count_eq {kind : Entry → Bool} (h : ∀ event, kind (.event event) = false)
    (run : Run σ) : run.log.countP kind = run.count kind :=
  (countP_filter_isCall h run.log).symm

namespace Setup

theorem count_submitted (setup : Setup σ) (run : Run σ) (kind : Entry → Bool) :
    (setup.submitted run).count kind = run.count kind +
      [Entry.submission run.clock.now (setup.submission run) setup.credential
        (setup.verdict run)].countP kind := by
  rw [Run.count, calls_submitted, List.countP_append]
  rfl

theorem count_requested (setup : Setup σ) (run : Run σ) (kind : Entry → Bool) :
    (setup.requested run).count kind = run.count kind +
      [Entry.patchRequest run.clock.now (setup.patchRequest run) (setup.patchReply run)].countP
        kind := by
  rw [Run.count, calls_requested, List.countP_append]
  rfl

end Setup

/-! ### What two counters allow -/

/-- The submissions that two counters allow: a full set of attempts for each patch, and the failures
in a row of the stage under way. -/
def Limits.submissionCap (limits : Limits) (session : Session) : Stage → Nat
  | .submitting => session.iteration * (limits.maxTransientRetries + 1) + session.transientFailures
  | .patching => (session.iteration + 1) * (limits.maxTransientRetries + 1)

/-- The patch requests that two counters allow. -/
def Limits.requestCap (limits : Limits) (session : Session) : Stage → Nat
  | .submitting => session.iteration * (limits.maxTransientRetries + 1)
  | .patching => session.iteration * (limits.maxTransientRetries + 1) + session.transientFailures

/-- The patches that are spent once the stage is over. -/
def Stage.begun (session : Session) : Stage → Nat
  | .submitting => session.iteration
  | .patching => session.iteration + 1

/-- What holds between two calls, with at most `most` failures in a row. Only the calls and the two
counters matter. -/
structure Ledger (limits : Limits) (most : Nat) (stage : Stage) (run : Run σ) : Prop where
  failures : run.session.transientFailures ≤ most
  spent : run.session.iteration = run.count Entry.spendsPatch
  begun : stage.begun run.session ≤ limits.maxIterations
  submissions : run.count Entry.isSubmission ≤ limits.submissionCap run.session stage
  requests : run.count Entry.isPatchRequest ≤ limits.requestCap run.session stage

/-- What holds at the end. -/
structure WithinLimits (limits : Limits) (outcome : Outcome) (run : Run σ) : Prop where
  spent : outcome.account.iterations = run.count Entry.spendsPatch
  iterations : outcome.account.iterations ≤ limits.maxIterations
  submissions : run.count Entry.isSubmission ≤
    (limits.maxIterations + 1) * (limits.maxTransientRetries + 1)
  requests : run.count Entry.isPatchRequest ≤
    limits.maxIterations * (limits.maxTransientRetries + 1)

/-! ### The ledger through the parts of a step -/

namespace Ledger

variable {limits : Limits} {most : Nat} {stage : Stage} {run after : Run σ}

theorem congr (h : Ledger limits most stage run) (hc : after.calls = run.calls)
    (hi : after.session.iteration = run.session.iteration)
    (ht : after.session.transientFailures = run.session.transientFailures) :
    Ledger limits most stage after := by
  have hk := Run.count_congr hc
  refine ⟨?_, ?_, ?_, ?_, ?_⟩
  · rw [ht]
    exact h.failures
  · rw [hi, hk]
    exact h.spent
  · have := h.begun
    cases stage <;> simpa only [Stage.begun, hi] using this
  · rw [hk]
    have := h.submissions
    cases stage <;> simpa only [Limits.submissionCap, hi, ht] using this
  · rw [hk]
    have := h.requests
    cases stage <;> simpa only [Limits.requestCap, hi, ht] using this

/-- With one failure more than is put up with, the calls still fit into the budgets. -/
theorem within (h : Ledger limits (limits.maxTransientRetries + 1) stage run) {outcome : Outcome}
    (ho : outcome.account.iterations = run.session.iteration) (hc : after.calls = run.calls) :
    WithinLimits limits outcome after := by
  have hk := Run.count_congr hc
  have hf := h.failures
  have hb := h.begun
  have hs := h.submissions
  have hr := h.requests
  refine ⟨?_, ?_, ?_, ?_⟩
  · rw [ho, hk]
    exact h.spent
  · rw [ho]
    cases stage with
    | submitting => exact hb
    | patching => exact Nat.le_of_succ_le hb
  · -- A full set of attempts may be under way, so that one patch more has to be paid for.
    have hm : (run.session.iteration + 1) * (limits.maxTransientRetries + 1) ≤
        (limits.maxIterations + 1) * (limits.maxTransientRetries + 1) := by
      apply Nat.mul_le_mul_right
      cases stage <;> simp only [Stage.begun] at hb <;> omega
    rw [Nat.succ_mul] at hm
    rw [hk]
    cases stage <;> simp only [Limits.submissionCap, Nat.succ_mul] at hs <;> omega
  · have hm := Nat.mul_le_mul_right (limits.maxTransientRetries + 1) hb
    rw [hk]
    cases stage with
    | submitting =>
      simp only [Stage.begun, Limits.requestCap] at hm hr
      omega
    | patching =>
      simp only [Stage.begun, Nat.succ_mul, Limits.requestCap] at hm hr
      omega

/-- What follows a failure that was counted. -/
theorem backOff {setup : Setup σ} {delay : Duration} {reason : String} {next : Next σ}
    (h : Ledger setup.limits (setup.limits.maxTransientRetries + 1) stage run.countFailure)
    (hb : setup.BackOff stage delay reason run next) :
    next.Holds (Ledger setup.limits setup.limits.maxTransientRetries)
      (WithinLimits setup.limits) := by
  cases hb with
  | spent _ => exact h.within rfl (Run.calls_enter ..)
  | interrupted hlt _ =>
    exact h.within rfl ((Run.calls_enter ..).trans (Run.calls_sleep ..))
  | again hlt _ =>
    have hl : Ledger setup.limits setup.limits.maxTransientRetries stage run.countFailure :=
      { h with failures := hlt }
    exact hl.congr (Run.calls_sleep ..) rfl rfl

/-- A submission is one call more, which the failure that it may end in pays for. -/
theorem submitted (setup : Setup σ) (h : Ledger limits most .submitting run) :
    Ledger limits (most + 1) .submitting (setup.submitted run).countFailure := by
  refine ⟨Nat.succ_le_succ h.failures, ?_, h.begun, ?_, ?_⟩
  · rw [Run.count_countFailure, Setup.count_submitted]
    exact h.spent
  · rw [Run.count_countFailure, Setup.count_submitted]
    exact Nat.succ_le_succ h.submissions
  · rw [Run.count_countFailure, Setup.count_submitted]
    exact h.requests

/-- So is a patch request that ends in a failure. -/
theorem requested {setup : Setup σ} (h : Ledger limits most .patching run) {error : PatchError}
    (he : setup.patchReply run = .error error) (hu : error.isUnusable = false) :
    Ledger limits (most + 1) .patching (setup.requested run).countFailure := by
  refine ⟨Nat.succ_le_succ h.failures, ?_, h.begun, ?_, ?_⟩
  · rw [Run.count_countFailure, Setup.count_requested, he, List.countP_singleton,
      Entry.spendsPatch, hu]
    exact h.spent
  · rw [Run.count_countFailure, Setup.count_requested]
    exact h.submissions
  · rw [Run.count_countFailure, Setup.count_requested]
    exact Nat.succ_le_succ h.requests

/-- A rejection starts the count of failures again. The stage of patching has retries of its own. -/
theorem rejected {setup : Setup σ} {complaints : List Complaint}
    (h : Ledger limits limits.maxTransientRetries .submitting run)
    (hi : run.session.iteration < limits.maxIterations) :
    Ledger limits limits.maxTransientRetries .patching (setup.rejected complaints run) := by
  obtain ⟨hf, hv, -, hs, hr⟩ := h.submitted setup
  refine ⟨Nat.zero_le _, hv, hi, ?_, hr⟩
  refine Nat.le_trans hs ?_
  simp only [Limits.submissionCap, Nat.succ_mul]
  exact Nat.add_le_add_left hf _

/-- A reply that spends a patch starts the count of failures again, and one more patch is spent. -/
theorem spend {setup : Setup σ} (h : Ledger limits limits.maxTransientRetries .patching run)
    (hv : Entry.spendsPatch
      (.patchRequest run.clock.now (setup.patchRequest run) (setup.patchReply run)) = true)
    (hc : after.calls = (setup.requested run).calls)
    (hi : after.session.iteration = run.session.iteration + 1)
    (ht : after.session.transientFailures = 0) :
    Ledger limits limits.maxTransientRetries .submitting after := by
  have hk := fun kind => (Run.count_congr hc kind).trans (setup.count_requested run kind)
  obtain ⟨hf, hspent, hb, hs, hr⟩ := h
  refine ⟨by omega, ?_, ?_, ?_, ?_⟩
  · rw [hk, List.countP_singleton, hv, hi, hspent]
    rfl
  · simpa only [Stage.begun, hi] using hb
  · rw [hk]
    simp only [Limits.submissionCap, hi, ht]
    exact hs
  · rw [hk]
    simp only [Limits.requestCap, hi, Nat.succ_mul] at hr ⊢
    have : [Entry.patchRequest run.clock.now (setup.patchRequest run)
        (setup.patchReply run)].countP Entry.isPatchRequest = 1 := rfl
    omega

/-- After a reply of no use the stage of patching goes on if a patch is left. -/
theorem patching (h : Ledger limits most .submitting run)
    (hi : run.session.iteration < limits.maxIterations)
    (ht : run.session.transientFailures = 0) : Ledger limits most .patching run := by
  obtain ⟨hf, hv, -, hs, hr⟩ := h
  refine ⟨hf, hv, hi, ?_, ?_⟩
  · simp only [Limits.submissionCap, ht, Nat.succ_mul] at hs ⊢
    omega
  · simp only [Limits.requestCap, ht]
    exact hr

/-- The end may come with no failure at all. -/
theorem more (h : Ledger limits limits.maxTransientRetries stage run) :
    Ledger limits (limits.maxTransientRetries + 1) stage run :=
  { h with failures := Nat.le_succ_of_le h.failures }

end Ledger

/-! ### Steps and runs -/

theorem Ledger.submitStep {setup : Setup σ} {run : Run σ}
    (h : Ledger setup.limits setup.limits.maxTransientRetries .submitting run) :
    (setup.submitStep run).Holds (Ledger setup.limits setup.limits.maxTransientRetries)
      (WithinLimits setup.limits) := by
  have hs := h.submitted setup
  have hr := setup.submitStep_cases run
  revert hr
  generalize setup.submitStep run = next
  intro hr
  cases hr with
  | cancelled _ => exact h.more.within rfl (Run.calls_enter ..)
  | accepted version _ _ => exact hs.within rfl (Run.calls_enter ..)
  | exhausted complaints _ _ _ => exact hs.within rfl (Run.calls_enter ..)
  | cancelledMeanwhile complaints _ _ _ _ => exact hs.within rfl (Run.calls_enter ..)
  | rejected complaints _ _ hi _ => exact (h.rejected hi).congr (Run.calls_enter ..) rfl rfl
  | unauthorized _ _ => exact hs.within rfl (Run.calls_enter ..)
  | rateLimited retryAfter _ _ hb => exact hs.backOff hb
  | failed error _ _ hb => exact hs.backOff hb

theorem Ledger.patchStep {setup : Setup σ} {run : Run σ}
    (h : Ledger setup.limits setup.limits.maxTransientRetries .patching run) :
    (setup.patchStep run).Holds (Ledger setup.limits setup.limits.maxTransientRetries)
      (WithinLimits setup.limits) := by
  have hw : ∀ error, setup.patchReply run = .error error → error.isUnusable = true →
      Ledger setup.limits setup.limits.maxTransientRetries .submitting (setup.wasted error run) :=
    fun error he hu => h.spend (by rw [he]; exact hu) (Setup.calls_spendIteration ..)
      (Setup.iteration_spendIteration ..) rfl
  have hi : ∀ error, (setup.wasted error run).session.iteration = run.session.iteration + 1 :=
    fun error => Setup.iteration_spendIteration ..
  have hr := setup.patchStep_cases run
  revert hr
  generalize setup.patchStep run = next
  intro hr
  cases hr with
  | patched patch he =>
    exact h.spend (by rw [he]; rfl) (Setup.calls_applyPatch ..) (Setup.iteration_applyPatch ..) rfl
  | unauthorized message he => exact (h.requested he rfl).within rfl (Run.calls_enter ..)
  | failed error he ht hb =>
    exact (h.requested he (by simp [PatchError.isUnusable, ht])).backOff hb
  | exhausted error he hu _ => exact (hw error he hu).more.within rfl (Run.calls_enter ..)
  | cancelled error he hu _ _ => exact (hw error he hu).more.within rfl (Run.calls_enter ..)
  | again error he hu hlt _ => exact (hw error he hu).patching (by rw [hi]; exact hlt) rfl

/-- A run that starts within the budgets ends within them. -/
theorem Ledger.drive {setup : Setup σ} {stage : Stage} {run : Run σ}
    (h : Ledger setup.limits setup.limits.maxTransientRetries stage run) :
    WithinLimits setup.limits (setup.drive stage run).1 (setup.drive stage run).2 := by
  refine Setup.drive_induction (fun stage run h => ?_) h
  cases stage with
  | submitting => exact h.submitStep
  | patching => exact h.patchStep

/-- **The budgets of a repair.** Whatever the services answer, and whenever the repair is cancelled,
a repair from the start ends with at most `(I + 1) * (R + 1)` submissions and `I * (R + 1)` patch
requests in its log, for `I` patches and `R` failures in a row. The iterations of its account, also
of a suspended one, are exactly the replies that spent a patch, and no more than `I`. -/
theorem Setup.start_within_budgets (setup : Setup σ) (services : σ) (clock : Clock) :
    let ending := setup.start services clock
    let log := ending.2.log
    log.countP Entry.isSubmission ≤
        (setup.limits.maxIterations + 1) * (setup.limits.maxTransientRetries + 1) ∧
      log.countP Entry.isPatchRequest ≤
        setup.limits.maxIterations * (setup.limits.maxTransientRetries + 1) ∧
      ending.1.account.iterations = log.countP Entry.spendsPatch ∧
      ending.1.account.iterations ≤ setup.limits.maxIterations := by
  let run : Run σ := setup.initial services clock
  have start : Ledger setup.limits setup.limits.maxTransientRetries .submitting run :=
    ⟨Nat.zero_le _, rfl, Nat.zero_le _, Nat.zero_le _, Nat.zero_le _⟩
  have ends : WithinLimits setup.limits (setup.start services clock).1
      (setup.start services clock).2 := by
    cases hc : clock.cancelled with
    | true =>
      rw [setup.start_of_cancelled services hc]
      exact start.more.within rfl (Run.calls_enter ..)
    | false =>
      rw [setup.start_of_not_cancelled services hc]
      have hp := counters_prepare setup run
      exact (start.congr (calls_prepare ..) hp.1 hp.2).drive
  refine ⟨?_, ?_, ?_, ends.iterations⟩
  · rw [Run.count_eq fun _ => rfl]
    exact ends.submissions
  · rw [Run.count_eq fun _ => rfl]
    exact ends.requests
  · rw [Run.count_eq fun _ => rfl]
    exact ends.spent

end DialogTable.Repair
