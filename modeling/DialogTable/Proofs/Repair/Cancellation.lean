import DialogTable.Proofs.Repair.Account
import DialogTable.Proofs.Repair.Events
import DialogTable.Proofs.Repair.Retries

/-!
# Cancelled sittings

A sitting can be cancelled at any moment, but it looks only where it has waited for someone. The
moments that matter are therefore those before a call, when its answer is there, and at the end of a
wait; whatever happens to the cancellation in between is seen at the next of them. `Setup.Passes`
lists the moments of a sitting, and `Setup.CancelledAt` the sittings that are cancelled at one.

The main statement `CancelledAt.stops_work` says that nothing is begun after such a moment, and that
the sitting ends as cancelled unless the answer to the last call ends it by itself
(`Entry.endsRepair`).
-/

namespace DialogTable.Repair

variable {σ : Type}

/-! ### Answers that end a sitting -/

/-- Whether the answer to a call ends a sitting by itself: a table that is accepted, a credential
that is refused by either service, or a budget that is spent by then. -/
def Entry.endsRepair (limits : Limits) (begun : Session) (before : List Entry) : Entry → Bool
  | .event _ => false
  | .submission _ _ _ (.ok (.accepted _)) => true
  | .submission _ _ _ (.ok .unauthorized) => true
  | .submission _ _ _ (.ok (.rejected _)) => limits.maxIterations ≤ patchesSpent begun before
  | .submission _ _ _ _ => limits.maxTransientRetries ≤ failuresInARow .submitting before
  | .patchRequest _ _ (.ok _) => false
  | .patchRequest _ _ (.error error) =>
    if error.isTransient then limits.maxTransientRetries ≤ failuresInARow .patching before
    else error.isUnauthorized || limits.maxIterations ≤ patchesSpent begun before + 1

/-- The last call did not end the sitting. -/
def Unended (limits : Limits) (begun : Session) (run : Run σ) : Prop :=
  ∀ before call, run.calls = before ++ [call] → call.endsRepair limits begun before = false

/-- The last call ended the sitting. -/
def Ended (limits : Limits) (begun : Session) (run : Run σ) : Prop :=
  ∃ before call, run.calls = before ++ [call] ∧ call.endsRepair limits begun before = true

/-- A sitting is cancelled or ended by its last call. -/
def CancelledOrEnded (limits : Limits) (begun : Session) (outcome : Outcome) (run : Run σ) : Prop :=
  outcome.phase = .cancelled ∧ Unended limits begun run ∨
    outcome.phase ≠ .cancelled ∧ Ended limits begun run

theorem CancelledOrEnded.of_ended {limits : Limits} {begun : Session} {outcome : Outcome}
    {run : Run σ} (phase : Phase) (ho : outcome.phase = phase) (hp : phase ≠ .cancelled)
    (h : Ended limits begun run) : CancelledOrEnded limits begun outcome run :=
  .inr ⟨ho ▸ hp, h⟩

theorem CancelledOrEnded.iff {limits : Limits} {begun : Session} {outcome : Outcome} {run : Run σ}
    (h : CancelledOrEnded limits begun outcome run) :
    outcome.phase ≠ .cancelled ↔ Ended limits begun run := by
  rcases h with ⟨hphase, hun⟩ | ⟨hphase, hended⟩
  · refine ⟨fun hne => absurd hphase hne, ?_⟩
    rintro ⟨before, call, hcalls, hends⟩
    rw [hun before call hcalls] at hends
    cases hends
  · exact ⟨fun _ => hended, fun _ => hphase⟩

/-- The counts of a log are those of its calls. -/
theorem Entry.endsRepair_filter_isCall (limits : Limits) (begun : Session) (log : List Entry)
    (call : Entry) : call.endsRepair limits begun (log.filter Entry.isCall) =
      call.endsRepair limits begun log := by
  have hrow : ∀ stage,
      failuresInARow stage (log.filter Entry.isCall) = failuresInARow stage log := by
    intro stage
    rw [failuresInARow, List.filter_filter, failuresInARow]
    simp only [Bool.and_self]
  have hspent : patchesSpent begun (log.filter Entry.isCall) = patchesSpent begun log :=
    congrArg (begun.iteration + ·) (countP_filter_isCall (fun _ => rfl) log)
  unfold Entry.endsRepair
  simp only [hrow, hspent]

/-- A failure ends a sitting if no more are put up with. -/
theorem Entry.endsRepair_of_failsIn {limits : Limits} {begun : Session} {before : List Entry}
    {call : Entry} {stage : Stage} (h : call.failsIn stage = true) :
    call.endsRepair limits begun before =
      decide (limits.maxTransientRetries ≤ failuresInARow stage before) := by
  have hfailure := Entry.isFailure_of_failsIn h
  cases call with
  | event event => cases hfailure
  | submission time sent credential answer =>
    have hstage : stage = .submitting := by
      cases stage with
      | submitting => rfl
      | patching => cases h
    subst hstage
    cases answer with
    | error error => rfl
    | ok verdict =>
      cases verdict with
      | rateLimited retryAfter => rfl
      | _ => cases hfailure
  | patchRequest time request answer =>
    have hstage : stage = .patching := by
      cases stage with
      | submitting => cases h
      | patching => rfl
    subst hstage
    cases answer with
    | ok patch => cases hfailure
    | error error =>
      rw [isFailure_patchRequest] at hfailure
      exact if_pos hfailure

namespace Answered

variable {setup : Setup σ} {begun : Session} {stage : Stage} {earlier : List Entry} {call : Entry}
  {run after : Run σ}

theorem calls_eq (h : Answered setup begun stage earlier call run) (hc : after.calls = run.calls) :
    after.calls = earlier.filter Entry.isCall ++ [call] := by
  rw [hc, Run.calls, h.log, List.filter_append, List.filter_singleton, h.isCall]
  rfl

theorem unended (h : Answered setup begun stage earlier call run) (hc : after.calls = run.calls)
    (hends : call.endsRepair setup.limits begun earlier = false) :
    Unended setup.limits begun after := by
  intro before last hlast
  rw [h.calls_eq hc] at hlast
  obtain ⟨rfl, hcall⟩ := List.append_inj' hlast rfl
  rw [← (List.cons.inj hcall).1, Entry.endsRepair_filter_isCall, hends]

theorem ended (h : Answered setup begun stage earlier call run) (hc : after.calls = run.calls)
    (hends : call.endsRepair setup.limits begun earlier = true) :
    Ended setup.limits begun after :=
  ⟨_, call, h.calls_eq hc, by rw [Entry.endsRepair_filter_isCall, hends]⟩

/-- A failure ends the sitting if it is one too many. Otherwise the sitting goes on, unless its wait
is cut off. -/
theorem holds_backOff (h : Answered setup begun stage earlier call run)
    (hc : call.failsIn stage = true) {delay : Duration} {reason : String} {next : Next σ}
    (hb : setup.BackOff stage delay reason run next) :
    next.Holds (fun _ => Unended setup.limits begun) (CancelledOrEnded setup.limits begun) := by
  have hends : call.endsRepair setup.limits begun earlier =
      decide (setup.limits.maxTransientRetries ≤ run.session.transientFailures) := by
    rw [Entry.endsRepair_of_failsIn hc, h.failures]
  have hgoesOn : run.session.transientFailures < setup.limits.maxTransientRetries →
      call.endsRepair setup.limits begun earlier = false := fun hlt => by
    rw [hends]
    exact decide_eq_false (Nat.not_le_of_lt hlt)
  cases hb with
  | spent hle =>
    exact .of_ended .failed rfl (by decide)
      (h.ended (Run.calls_enter ..) (hends.trans (decide_eq_true hle)))
  | interrupted hlt _ =>
    exact .inl ⟨rfl, h.unended ((Run.calls_enter ..).trans (Run.calls_sleep ..)) (hgoesOn hlt)⟩
  | again hlt _ => exact h.unended (Run.calls_sleep ..) (hgoesOn hlt)

end Answered

section Steps

variable {setup : Setup σ} {begun : Session} {run : Run σ}

theorem Retrying.holds_submitStep (h : Retrying setup begun .submitting run)
    (hun : Unended setup.limits begun run) :
    (setup.submitStep run).Holds (fun _ => Unended setup.limits begun)
      (CancelledOrEnded setup.limits begun) := by
  have hs := h.submitted
  have hspent : patchesSpent begun (run.enter .remoteValidating).log = run.session.iteration :=
    hs.spent.symm
  refine Setup.holds_submitStep fun next hnext => ?_
  cases hnext with
  | cancelled _ =>
    refine .inl ⟨rfl, ?_⟩
    intro before call hcalls
    exact hun before call ((Run.calls_enter ..).symm.trans hcalls)
  | accepted version _ hv =>
    rw [hv] at hs
    exact .of_ended .done rfl (by decide) (hs.ended (Run.calls_enter ..) rfl)
  | exhausted complaints _ hv hi =>
    rw [hv] at hs
    refine .of_ended .exhausted rfl (by decide) (hs.ended (Run.calls_enter ..) ?_)
    rw [Entry.endsRepair, hspent]
    exact decide_eq_true hi
  | cancelledMeanwhile complaints _ hv hi _ =>
    rw [hv] at hs
    refine .inl ⟨rfl, hs.unended (Run.calls_enter ..) ?_⟩
    rw [Entry.endsRepair, hspent]
    exact decide_eq_false (Nat.not_le_of_lt hi)
  | rejected complaints _ hv hi _ =>
    rw [hv] at hs
    refine hs.unended (Run.calls_enter ..) ?_
    rw [Entry.endsRepair, hspent]
    exact decide_eq_false (Nat.not_le_of_lt hi)
  | unauthorized _ hv =>
    rw [hv] at hs
    exact .of_ended .needsCredential rfl (by decide) (hs.ended (Run.calls_enter ..) rfl)
  | rateLimited retryAfter _ hv hb =>
    rw [hv] at hs
    exact hs.holds_backOff rfl hb
  | failed error _ hv hb =>
    rw [hv] at hs
    exact hs.holds_backOff rfl hb

theorem Retrying.holds_patchStep (h : Retrying setup begun .patching run) :
    (setup.patchStep run).Holds (fun _ => Unended setup.limits begun)
      (CancelledOrEnded setup.limits begun) := by
  have hq := h.requested
  have hunusable : ∀ time request error, error.isUnusable = true →
      (Entry.patchRequest time request (.error error)).endsRepair setup.limits begun run.log =
        decide (setup.limits.maxIterations ≤ run.session.iteration + 1) := by
    intro time request error hu
    rw [PatchError.isUnusable, Bool.and_eq_true, Bool.not_eq_true', Bool.not_eq_true'] at hu
    rw [Entry.endsRepair, hu.1, hu.2, h.spent]
    rfl
  refine Setup.holds_patchStep fun next hnext => ?_
  cases hnext with
  | patched patch hr =>
    rw [hr] at hq
    exact hq.unended (Setup.calls_applyPatch ..) rfl
  | unauthorized message hr =>
    rw [hr] at hq
    exact .of_ended .failed rfl (by decide) (hq.ended (Run.calls_enter ..) rfl)
  | failed error hr ht hb =>
    rw [hr] at hq
    exact hq.holds_backOff ((Entry.isFailure_patchRequest ..).trans ht) hb
  | exhausted error hr hu hi =>
    rw [hr] at hq
    refine .of_ended .exhausted rfl (by decide)
      (hq.ended ((Run.calls_enter ..).trans (Setup.calls_spendIteration ..)) ?_)
    rw [hunusable _ _ _ hu]
    exact decide_eq_true hi
  | cancelled error hr hu hi _ =>
    rw [hr] at hq
    refine .inl ⟨rfl, hq.unended ((Run.calls_enter ..).trans (Setup.calls_spendIteration ..)) ?_⟩
    rw [hunusable _ _ _ hu]
    exact decide_eq_false (Nat.not_le_of_lt hi)
  | again error hr hu hi _ =>
    rw [hr] at hq
    refine hq.unended (Setup.calls_spendIteration ..) ?_
    rw [hunusable _ _ _ hu]
    exact decide_eq_false (Nat.not_le_of_lt hi)

end Steps

theorem Next.Holds.and {goesOn other : Stage → Run σ → Prop} {ends : Outcome → Run σ → Prop}
    {still : Outcome → Run σ → Prop} {next : Next σ} (h : next.Holds goesOn still)
    (h' : next.Holds other ends) :
    next.Holds (fun stage run => goesOn stage run ∧ other stage run) ends := by
  cases next with
  | «continue» stage run => exact ⟨h, h'⟩
  | stop outcome run => exact h'

/-- A sitting ends as cancelled exactly if its last call, if it made any, has not ended it. -/
theorem Sitting.cancelledOrEnded {setup : Setup σ} {opening : Opening} {outcome : Outcome}
    {run : Run σ} (h : Sitting setup opening outcome run) :
    CancelledOrEnded setup.limits (opening.session setup.job) outcome run := by
  let begun := opening.session setup.job
  have unended : ∀ {run : Run σ}, run.calls = [] → Unended setup.limits begun run := by
    intro run hnil before call hcalls
    rw [hnil] at hcalls
    exact absurd hcalls.symm (List.append_ne_nil_of_right_ne_nil _ (List.cons_ne_nil _ _))
  have ready : ∀ services clock,
      let run := setup.ready opening (setup.opened opening services clock)
      Retrying (setup.forOpening opening) begun .submitting run ∧ Unended setup.limits begun run :=
    fun services clock => ⟨setup.retrying_ready opening services clock,
      unended (setup.addsNews_ready opening services clock).calls_eq⟩
  have cancelledEarly : ∀ services clock run, opening = .start →
      setup.Early services clock run →
        CancelledOrEnded setup.limits begun run.cancel.1 run.cancel.2 :=
    fun _ _ _ _ hearly => .inl ⟨rfl, unended ((Run.calls_enter ..).trans hearly.calls_eq_nil)⟩
  have step : ∀ stage run,
      Retrying (setup.forOpening opening) begun stage run ∧ Unended setup.limits begun run →
        ((setup.forOpening opening).step stage run).Holds
          (fun stage run =>
            Retrying (setup.forOpening opening) begun stage run ∧ Unended setup.limits begun run)
          (CancelledOrEnded setup.limits begun) := by
    rintro stage run ⟨hr, hun⟩
    cases stage with
    | submitting => exact hr.submitStep.and (hr.holds_submitStep hun)
    | patching => exact hr.patchStep.and hr.holds_patchStep
  exact Sitting.induction ready cancelledEarly step h

/-! ### The table of a cancelled sitting -/

/-- The session remembers the table submitted last, in this sitting or before it. -/
def Remembers (begun : Session) (run : Run σ) : Prop :=
  run.session.lastSubmitted = run.submittedText.or begun.lastSubmitted

theorem Remembers.congr {begun : Session} {run after : Run σ} (h : Remembers begun run)
    (hc : after.calls = run.calls)
    (hs : after.session.lastSubmitted = run.session.lastSubmitted) : Remembers begun after := by
  rw [Remembers, hs, Run.submittedText_congr hc]
  exact h

/-- The account has the table submitted last, or the current one before any submission. -/
def Reported (begun : Session) (outcome : Outcome) (run : Run σ) : Prop :=
  outcome.account.tableText =
    (run.submittedText.or begun.lastSubmitted).getD run.session.tableText

namespace Remembers

variable {setup : Setup σ} {begun : Session} {run after : Run σ}

theorem reported (h : Remembers begun run) {outcome : Outcome}
    (ho : outcome.account.tableText = run.session.submittedAccount.tableText) (phase : Phase) :
    Reported begun outcome (run.enter phase) := by
  rw [Reported, ho, Run.submittedText_congr (Run.calls_enter run phase), ← h]
  rfl

theorem submitted (setup : Setup σ) (begun : Session) (run : Run σ) :
    Remembers begun (setup.submitted run) := by
  rw [Remembers, Run.submittedText, Setup.calls_submitted, lastSubmission_concat_submission]
  rfl

theorem requested (h : Remembers begun run) (setup : Setup σ) :
    Remembers begun (setup.requested run) := by
  rw [Remembers, Run.submittedText, Setup.calls_requested, lastSubmission_concat_patchRequest]
  exact h

theorem backOff (h : Remembers begun run) {stage : Stage} {delay : Duration} {reason : String}
    {next : Next σ} (hb : setup.BackOff stage delay reason run next) :
    next.Holds (fun _ => Remembers begun) (Reported begun) := by
  have hslept : Remembers begun (run.countFailure.sleep delay reason) :=
    h.congr (Run.calls_sleep ..) rfl
  cases hb with
  | spent _ =>
    have hcounted : Remembers begun run.countFailure := h
    exact hcounted.reported rfl _
  | interrupted _ _ => exact hslept.reported rfl _
  | again _ _ => exact hslept

theorem submitStep (h : Remembers begun run) :
    (setup.submitStep run).Holds (fun _ => Remembers begun) (Reported begun) := by
  have hs := submitted setup begun run
  have hr : ∀ complaints, Remembers begun (setup.rejected complaints run) := fun _ => hs
  refine Setup.holds_submitStep fun next hnext => ?_
  cases hnext with
  | cancelled _ => exact h.reported rfl _
  | accepted version _ _ => exact hs.reported rfl _
  | exhausted complaints _ _ _ => exact (hr complaints).reported rfl _
  | cancelledMeanwhile complaints _ _ _ _ => exact (hr complaints).reported rfl _
  | rejected complaints _ _ _ _ => exact (hr complaints).congr (Run.calls_enter ..) rfl
  | unauthorized _ _ => exact hs.reported rfl _
  | rateLimited retryAfter _ _ hb => exact hs.backOff hb
  | failed error _ _ hb => exact hs.backOff hb

theorem patchStep (h : Remembers begun run) :
    (setup.patchStep run).Holds (fun _ => Remembers begun) (Reported begun) := by
  have hq := h.requested setup
  have hw : ∀ error, Remembers begun (setup.wasted error run) := fun error =>
    hq.congr (Setup.calls_spendIteration ..) (by simp [Setup.wasted, Setup.spendIteration])
  refine Setup.holds_patchStep fun next hnext => ?_
  cases hnext with
  | patched patch _ =>
    obtain ⟨_, _, _, hs⟩ := setup.session_applyPatch patch (setup.requested run)
    exact hq.congr (Setup.calls_applyPatch ..) (by rw [hs])
  | unauthorized message _ => exact hq.reported rfl _
  | failed error _ _ hb => exact hq.backOff hb
  | exhausted error _ _ _ => exact (hw error).reported rfl _
  | cancelled error _ _ _ _ => exact (hw error).reported rfl _
  | again error _ _ _ _ => exact hw error

end Remembers

theorem Sitting.reported {setup : Setup σ} {opening : Opening} {outcome : Outcome} {run : Run σ}
    (h : Sitting setup opening outcome run) :
    Reported (opening.session setup.job) outcome run := by
  let begun := opening.session setup.job
  have early : ∀ services clock run, setup.Early services clock run →
      Remembers (Opening.start.session setup.job) run := by
    intro services clock run hearly
    rw [Remembers, hearly.session_eq.1, Run.submittedText, hearly.calls_eq_nil]
    rfl
  have ready : ∀ services clock, Remembers begun
      (setup.ready opening (setup.opened opening services clock)) := by
    intro services clock
    cases opening with
    | start => exact early services clock _ .prepared
    | resume suspension => rfl
  have cancelledEarly : ∀ services clock run, opening = .start →
      setup.Early services clock run → Reported begun run.cancel.1 run.cancel.2 := by
    rintro services clock run rfl hearly
    exact (early services clock run hearly).reported rfl _
  have step : ∀ stage run, Remembers begun run →
      ((setup.forOpening opening).step stage run).Holds (fun _ => Remembers begun)
        (Reported begun) := by
    intro stage run hr
    cases stage with
    | submitting => exact hr.submitStep
    | patching => exact hr.patchStep
  exact Sitting.induction ready cancelledEarly step h

/-! ### Moments -/

/-- The moments that a repair passes from a run on, each as the run at that moment: before a call,
when its answer is there, and at the end of a wait. -/
inductive Setup.Passes (setup : Setup σ) : Stage → Run σ → Run σ → Prop
  | here (stage : Stage) (run : Run σ) : Passes setup stage run run
  | submitted {run : Run σ} (h : run.clock.cancelled = false) :
    Passes setup .submitting run (setup.submitted run)
  | requested (run : Run σ) : Passes setup .patching run (setup.requested run)
  | waited {stage : Stage} {run failed : Run σ} {delay : Duration} {reason : String}
      (h : setup.step stage run = setup.backOff stage delay reason failed)
      (hlt : failed.session.transientFailures < setup.limits.maxTransientRetries) :
    Passes setup stage run (failed.countFailure.sleep delay reason)
  | later {stage next : Stage} {run after moment : Run σ}
      (h : setup.step stage run = .continue next after) (hm : Passes setup next after moment) :
    Passes setup stage run moment

namespace Setup

variable {setup : Setup σ}

/-- A cancelled repair goes on only to look before a submission, and one that is cancelled when an
answer is there stays so. -/
theorem holds_clock (setup : Setup σ) (stage : Stage) (run : Run σ) :
    (setup.step stage run).Holds
      (fun next after => (after.clock.cancelled = true → next = .submitting) ∧
        ((setup.called run stage).clock.cancelled = true → after.clock.cancelled = true))
      fun _ _ => True := by
  -- Whoever has waited is not cancelled, and whoever is cancelled does not wait.
  have backOff : ∀ {repeated delay reason} {failed : Run σ} {next : Next σ},
      setup.BackOff repeated delay reason failed next →
        next.Holds (fun next after => (after.clock.cancelled = true → next = .submitting) ∧
          (failed.clock.cancelled = true → after.clock.cancelled = true)) fun _ _ => True := by
    intro repeated delay reason failed next hb
    cases hb with
    | spent _ => trivial
    | interrupted _ _ => trivial
    | again _ hcut =>
      refine ⟨fun hc => ?_, fun hc => ?_⟩
      · have hinterrupted : (failed.clock.wait delay).2 = true := (Clock.wait_snd ..).trans hc
        rw [hinterrupted] at hcut
        cases hcut
      · have hwait : failed.clock.wait delay = (failed.clock, true) := if_pos hc
        rw [hwait] at hcut
        cases hcut
  cases stage with
  | submitting =>
    refine holds_submitStep fun next hnext => ?_
    cases hnext with
    | rejected _ _ _ _ hm => exact ⟨fun hc => absurd hc (Bool.eq_false_iff.mp hm), id⟩
    | rateLimited _ _ _ hb => exact backOff hb
    | failed _ _ _ hb => exact backOff hb
    | _ => trivial
  | patching =>
    refine holds_patchStep fun next hnext => ?_
    cases hnext with
    | patched patch _ =>
      refine ⟨fun _ => rfl, fun hc => ?_⟩
      rw [clock_applyPatch]
      exact hc
    | failed _ _ _ hb => exact backOff hb
    | again error _ _ _ hm =>
      refine ⟨fun hc => absurd hc (Bool.eq_false_iff.mp hm), fun hc => ?_⟩
      rw [wasted, clock_spendIteration]
      exact hc
    | _ => trivial

/-- Once an answer is there and the repair is cancelled, no call follows. A patch is still
installed. -/
theorem calls_drive_of_called {stage : Stage} {run : Run σ}
    (h : stage = .submitting → run.clock.cancelled = false)
    (hc : (setup.called run stage).clock.cancelled = true) :
    (setup.drive stage run).2.calls = (setup.called run stage).calls := by
  have hcalls := setup.holds_calls stage run
  have hclock := setup.holds_clock stage run
  cases hs : setup.step stage run with
  | stop outcome after =>
    rw [hs] at hcalls
    rw [drive_of_stop hs]
    rcases hcalls with ⟨hstage, hcancelled, -⟩ | hcalls
    · rw [h hstage] at hcancelled
      cases hcancelled
    · exact hcalls.calls
  | «continue» next after =>
    rw [hs] at hcalls hclock
    have hcancelled := hclock.2 hc
    obtain rfl := hclock.1 hcancelled
    have hstop : setup.step .submitting after = .ofEnd after.cancel := if_pos hcancelled
    rw [drive_of_continue hs, drive_of_stop hstop]
    exact (Run.calls_enter ..).trans hcalls.calls

/-- No call follows a moment at which the repair is cancelled. -/
theorem Passes.calls_eq {stage : Stage} {run moment : Run σ} (h : setup.Passes stage run moment)
    (hlooks : run.clock.cancelled = true → stage = .submitting)
    (hc : moment.clock.cancelled = true) : (setup.drive stage run).2.calls = moment.calls := by
  induction h with
  | here stage run =>
    obtain rfl := hlooks hc
    have hstop : setup.step .submitting run = .ofEnd run.cancel := if_pos hc
    rw [drive_of_stop hstop]
    exact Run.calls_enter ..
  | submitted h => exact calls_drive_of_called (fun _ => h) hc
  | requested run => exact calls_drive_of_called nofun hc
  | @waited stage run failed delay reason h hlt =>
    have hcut : (failed.clock.wait delay).2 = true := (Clock.wait_snd ..).trans hc
    rw [backOff_eq, if_neg (Nat.not_lt_of_le hlt), if_pos hcut] at h
    rw [drive_of_stop h]
    exact Run.calls_enter ..
  | @later stage next run after moment h hm ih =>
    rw [drive_of_continue h]
    have hclock := setup.holds_clock stage run
    rw [h] at hclock
    exact ih hclock.1 hc

/-- A sitting with a moment at which it is cancelled: before its first submission, or at one of the
moments that it passes. -/
inductive CancelledAt (setup : Setup σ) : Opening → Run σ → Outcome → Run σ → Prop
  | early {services : σ} {clock : Clock} {run : Run σ} (h : setup.Early services clock run) :
    CancelledAt setup .start run run.cancel.1 run.cancel.2
  | opened (opening : Opening) (services : σ) {clock : Clock} (hc : clock.cancelled = true) :
    CancelledAt setup opening (setup.opened opening services clock)
      (setup.sit opening services clock).1 (setup.sit opening services clock).2
  | during (opening : Opening) (services : σ) {clock : Clock} {moment : Run σ}
      (ho : clock.cancelled = false)
      (h : (setup.forOpening opening).Passes .submitting
        (setup.ready opening (setup.opened opening services clock)) moment)
      (hc : moment.clock.cancelled = true) :
    CancelledAt setup opening moment
      (setup.sit opening services clock).1 (setup.sit opening services clock).2

namespace CancelledAt

variable {setup : Setup σ} {opening : Opening} {moment run : Run σ} {outcome : Outcome}

theorem sitting (h : setup.CancelledAt opening moment outcome run) :
    Sitting setup opening outcome run := by
  cases h with
  | early h => exact .cancelledEarly h
  | opened _ services _ => exact .whole ..
  | during _ services _ _ _ => exact .whole ..

theorem calls_eq (h : setup.CancelledAt opening moment outcome run) :
    run.calls = moment.calls := by
  cases h with
  | early _ => exact Run.calls_enter ..
  | opened _ services hc =>
    rw [setup.sit_of_cancelled opening services hc]
    exact Run.calls_enter ..
  | during _ services ho h hc =>
    rw [setup.sit_of_not_cancelled opening services ho]
    exact h.calls_eq (fun _ => rfl) hc

/-- **Cancellation stops all work.** Whatever the services answer, in a repair from the start and in
a resumption, whichever moment it is cancelled at: no service is called after that moment. The
sitting ends as cancelled, unless its last call has an answer that ends it by itself. The account of
a cancelled sitting has the table submitted last, or the current one if none was submitted, and all
the fixes that were noted, before the sitting and in it. -/
theorem stops_work (h : setup.CancelledAt opening moment outcome run) :
    let begun := opening.session setup.job
    run.calls = moment.calls ∧
      (outcome.phase ≠ .cancelled ↔ ∃ before call, moment.calls = before ++ [call] ∧
        call.endsRepair setup.limits begun before = true) ∧
      ∀ account, outcome = .cancelled account →
        account.tableText =
            (((lastSubmission run.log).map fun call => call.1.tableText).or
              begun.lastSubmitted).getD run.session.tableText ∧
          account.fixesApplied = begun.fixesApplied ++ loggedFixes run.log := by
  intro begun
  refine ⟨h.calls_eq, ?_, ?_⟩
  · rw [← h.calls_eq]
    exact h.sitting.cancelledOrEnded.iff
  · rintro account rfl
    have htext := h.sitting.reported
    rw [Reported, Run.submittedText, Run.calls, lastSubmission_filter_isCall] at htext
    refine ⟨htext, ?_⟩
    have hconcluded := h.sitting.concluded
    exact hconcluded.fixes.trans hconcluded.narrated.fixes

end CancelledAt

/-- A table that is rejected while someone cancels. -/
theorem stops_work_of_rejected :
    let setup := Tape.setup "h\n"
    let complaints : List Complaint := [{ node := some 1, message := "missing" }]
    let tape : Tape :=
      { verdicts := [{ answer := .ok (.rejected complaints), cancels := true }] }
    let ending := setup.sit .start tape {}
    let moment := setup.submitted (setup.ready .start (setup.opened .start tape {}))
    moment.clock.cancelled = true ∧ ending.2.calls = moment.calls ∧
      ending.1.phase = .cancelled := by
  intro setup complaints tape ending moment
  have hready : (setup.ready .start (setup.opened .start tape {})).clock.cancelled = false := by
    decide +kernel
  have hmoment : moment.clock.cancelled = true := by
    decide +kernel
  have hcancelled : setup.CancelledAt .start moment ending.1 ending.2 :=
    .during .start tape rfl (.submitted hready) hmoment
  obtain ⟨hcalls, -, -⟩ := CancelledAt.stops_work hcancelled
  exact ⟨hmoment, hcalls, start_of_startWithin (p := fun ending => ending.1.phase = .cancelled) 2
    (by decide +kernel)⟩

end Setup

/-! ### No moment is missing -/

namespace Setup

variable {setup : Setup σ}

/-- The last step of a repair passes a moment at which it is cancelled, if it is cancelled after
it. -/
theorem holds_passes (setup : Setup σ) (stage : Stage) (run : Run σ) :
    (setup.step stage run).Holds (fun _ _ => True) fun _ after =>
      after.clock.cancelled = true →
        ∃ moment, setup.Passes stage run moment ∧ moment.clock.cancelled = true := by
  have backOff : ∀ {delay reason} {failed : Run σ} {next : Next σ},
      setup.step stage run = setup.backOff stage delay reason failed →
        setup.Passes stage run failed → setup.BackOff stage delay reason failed next →
          next.Holds (fun _ _ => True) fun _ after => after.clock.cancelled = true →
            ∃ moment, setup.Passes stage run moment ∧ moment.clock.cancelled = true := by
    intro delay reason failed next hstep hfailed hb
    cases hb with
    | spent _ => exact fun hc => ⟨failed, hfailed, hc⟩
    | interrupted hlt _ => exact fun hc => ⟨_, .waited hstep hlt, hc⟩
    | again _ _ => trivial
  cases stage with
  | submitting =>
    refine holds_submitStep fun next hnext => ?_
    cases hnext with
    | cancelled _ => exact fun hc => ⟨run, .here _ run, hc⟩
    | rejected _ _ _ _ _ => trivial
    | rateLimited retryAfter ho hv hb =>
      have hstep := submitStep_eq setup ho
      rw [hv] at hstep
      exact backOff hstep (.submitted ho) hb
    | failed error ho hv hb =>
      have hstep := submitStep_eq setup ho
      rw [hv] at hstep
      exact backOff hstep (.submitted ho) hb
    | accepted _ ho _ => exact fun hc => ⟨_, .submitted ho, hc⟩
    | exhausted _ ho _ _ => exact fun hc => ⟨_, .submitted ho, hc⟩
    | cancelledMeanwhile _ ho _ _ _ => exact fun hc => ⟨_, .submitted ho, hc⟩
    | unauthorized ho _ => exact fun hc => ⟨_, .submitted ho, hc⟩
  | patching =>
    have hw : ∀ error, (setup.wasted error run).clock.cancelled = true →
        ∃ moment, setup.Passes .patching run moment ∧ moment.clock.cancelled = true := by
      intro error hc
      rw [wasted, clock_spendIteration] at hc
      exact ⟨_, .requested run, hc⟩
    refine holds_patchStep fun next hnext => ?_
    cases hnext with
    | patched _ _ => trivial
    | unauthorized _ _ => exact fun hc => ⟨_, .requested run, hc⟩
    | failed error hr ht hb =>
      have hstep := patchStep_eq setup run
      rw [hr, settlePatch_of_isTransient _ _ ht] at hstep
      exact backOff hstep (.requested run) hb
    | exhausted error _ _ _ => exact hw error
    | cancelled error _ _ _ _ => exact hw error
    | again _ _ _ _ _ => trivial

theorem exists_passes {stage : Stage} {run : Run σ}
    (hc : (setup.drive stage run).2.clock.cancelled = true) :
    ∃ moment, setup.Passes stage run moment ∧ moment.clock.cancelled = true := by
  induction stage, run using drive.induct setup with
  | case1 stage run outcome after hs =>
    have hholds := setup.holds_passes stage run
    rw [hs] at hholds
    rw [drive_of_stop hs] at hc
    exact hholds hc
  | case2 stage run next after hs ih =>
    rw [drive_of_continue hs] at hc
    obtain ⟨moment, hpasses, hmoment⟩ := ih hc
    exact ⟨moment, .later hs hpasses, hmoment⟩

end Setup

/-- The moments are all that matter: a sitting that is cancelled at its end was so at one of
them. -/
theorem Sitting.exists_cancelledAt {setup : Setup σ} {opening : Opening} {outcome : Outcome}
    {run : Run σ} (h : Sitting setup opening outcome run) (hc : run.clock.cancelled = true) :
    ∃ moment, setup.CancelledAt opening moment outcome run := by
  cases h with
  | cancelledEarly h => exact ⟨_, .early h⟩
  | whole _ services clock =>
    cases ho : clock.cancelled with
    | true => exact ⟨_, .opened opening services ho⟩
    | false =>
      rw [setup.sit_of_not_cancelled opening services ho] at hc
      obtain ⟨moment, hpasses, hmoment⟩ := Setup.exists_passes hc
      exact ⟨moment, .during opening services ho hpasses hmoment⟩

end DialogTable.Repair
