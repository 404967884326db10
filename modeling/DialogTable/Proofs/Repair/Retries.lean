import Mathlib.Data.List.DropRight
import DialogTable.Proofs.Repair.Budget
import DialogTable.Proofs.Repair.Sitting

/-!
# Retries after transient failures

One counter of failures serves both services, and it is set back in many places. The log tells what
it has to be: the failures of the stage under way since the last other answer (`failuresInARow`).

The main statement `Sitting.retries_exact` is about sittings that nobody cancels. Each failure up to
the limit is followed by one wait, whose length depends on the failure and its number, and then by
the same call; the one beyond the limit ends the repair.

The invariant is `Retrying`: the counters agree with the log, and every failure in it was retried,
except that the last one may still be waited for. `Answered` is its form right after a call.
-/

namespace DialogTable.Repair

variable {σ : Type}

/-- A wait is cut off exactly if the repair is cancelled at its end. -/
theorem Clock.wait_snd (clock : Clock) (delay : Duration) :
    (clock.wait delay).2 = (clock.wait delay).1.cancelled := by
  unfold wait
  split
  · next hc => exact hc.symm
  · next hc =>
    dsimp only
    split
    · next hdue =>
      simp [pass, isDueBefore, hdue, hc]
    · next due hdue =>
      split
      · rfl
      · next hlt => simp [pass, isDueBefore, hdue, hc, hlt]

/-! ### Failures in a log -/

namespace Entry

/-- Whether a call failed so that it is repeated. The compiler is asked again after a rate limit and
after any error; the patch service after a rate limit, an error of the network, a late reply or an
error of the server. -/
def isFailure : Entry → Bool
  | .submission _ _ _ (.ok (.rateLimited _)) => true
  | .submission _ _ _ (.error _) => true
  | .patchRequest _ _ (.error (.network _))
  | .patchRequest _ _ (.error (.timeout _))
  | .patchRequest _ _ (.error (.rateLimited _)) => true
  | .patchRequest _ _ (.error (.api status _)) => 500 ≤ status
  | _ => false

/-- Whether a call of a stage failed in that way. -/
def failsIn (entry : Entry) : Stage → Bool
  | .submitting => entry.isSubmission && entry.isFailure
  | .patching => entry.isPatchRequest && entry.isFailure

/-- How long the repair waits after a failure, if it is the one with that number in a row. A rate
limit may name the time, and has a fixed one else; any other failure has the time of its number. -/
def delay (limits : Limits) (attempt : Nat) : Entry → Duration
  | .submission _ _ _ (.ok (.rateLimited (some hint)))
  | .patchRequest _ _ (.error (.rateLimited (some hint))) => hint
  | .submission _ _ _ (.ok (.rateLimited none))
  | .patchRequest _ _ (.error (.rateLimited none)) => .ofSeconds limits.defaultRetryAfterSeconds
  | _ => limits.backoff attempt

/-- The wording of a failure. -/
def reason : Entry → String
  | .submission _ _ _ (.error error) => error.message
  | .patchRequest _ _ (.error error) => error.message
  | _ => "rate limited"

end Entry

/-- What a service is asked for. -/
inductive Call
  | submit (submission : Submission) (credential : Credential)
  | requestPatch (request : PatchRequest)

/-- The call that an entry tells of, whenever it was made and whatever was answered. -/
def Entry.call? : Entry → Option Call
  | .event _ => none
  | .submission _ sent credential _ => some (.submit sent credential)
  | .patchRequest _ request _ => some (.requestPatch request)

/-- The call that a stage makes next. -/
def Setup.nextCall (setup : Setup σ) (run : Run σ) : Stage → Call
  | .submitting => .submit (setup.submission run) setup.credential
  | .patching => .requestPatch (setup.patchRequest run)

/-- The number of failures of a stage at the end of a log, since the last other call. -/
def failuresInARow (stage : Stage) (log : List Entry) : Nat :=
  ((log.filter Entry.isCall).rtakeWhile (Entry.failsIn · stage)).length

/-- The number of patches that are spent at the end of a log. -/
def patchesSpent (begun : Session) (log : List Entry) : Nat :=
  begun.iteration + log.countP Entry.spendsPatch

namespace Entry

variable {stage other : Stage} {entry : Entry}

theorem isFailure_of_failsIn (h : entry.failsIn stage = true) : entry.isFailure = true := by
  cases stage <;> exact (Bool.and_eq_true_iff.mp h).2

theorem failsIn_eq_false (h : entry.isFailure = false) (stage : Stage) :
    entry.failsIn stage = false := by
  cases stage <;> rw [failsIn, h, Bool.and_false]

theorem isFailure_patchRequest (time : Duration) (request : PatchRequest) (error : PatchError) :
    (Entry.patchRequest time request (.error error)).isFailure = error.isTransient := by
  cases error <;> rfl

theorem isFailure_of_isUnusable {time : Duration} {request : PatchRequest} {error : PatchError}
    (h : error.isUnusable = true) :
    (Entry.patchRequest time request (.error error)).isFailure = false := by
  rw [PatchError.isUnusable, Bool.and_eq_true, Bool.not_eq_true'] at h
  rw [isFailure_patchRequest]
  exact h.1

theorem isCall_of_failsIn (h : entry.failsIn stage = true) : entry.isCall = true := by
  cases entry with
  | event event => cases isFailure_of_failsIn h
  | submission => rfl
  | patchRequest => rfl

/-- A failure spends no patch. -/
theorem spendsPatch_of_failsIn (h : entry.failsIn stage = true) : entry.spendsPatch = false := by
  have hfailure := isFailure_of_failsIn h
  cases entry with
  | event event => rfl
  | submission => rfl
  | patchRequest time request answer =>
    cases answer with
    | ok patch => cases hfailure
    | error error =>
      have ht : error.isTransient = true := by rwa [isFailure_patchRequest] at hfailure
      rw [spendsPatch, PatchError.isUnusable, ht]
      rfl

/-- Each call fails in its own stage only. -/
theorem failsIn_unique (h : entry.failsIn stage = true) (ho : entry.failsIn other = true) :
    stage = other := by
  cases entry with
  | event event => cases isFailure_of_failsIn h
  | submission => cases stage <;> cases other <;> first | rfl | cases h | cases ho
  | patchRequest => cases stage <;> cases other <;> first | rfl | cases h | cases ho

end Entry

section Counters

variable {stage : Stage} {log : List Entry} {entry : Entry}

theorem failuresInARow_concat_failure (h : entry.failsIn stage = true) :
    failuresInARow stage (log ++ [entry]) = failuresInARow stage log + 1 := by
  rw [failuresInARow, List.filter_append, List.filter_singleton, Entry.isCall_of_failsIn h,
    cond_true, List.rtakeWhile_concat_pos (Entry.failsIn · stage) _ _ h, List.length_append]
  rfl

/-- Any other answer starts the count afresh. -/
theorem failuresInARow_concat_other (hc : entry.isCall = true) (h : entry.failsIn stage = false) :
    failuresInARow stage (log ++ [entry]) = 0 := by
  rw [failuresInARow, List.filter_append, List.filter_singleton, hc, cond_true,
    List.rtakeWhile_concat_neg (Entry.failsIn · stage) _ _ (Bool.eq_false_iff.mp h)]
  rfl

end Counters

theorem patchesSpent_concat (begun : Session) (log : List Entry) (entry : Entry) :
    patchesSpent begun (log ++ [entry]) =
      patchesSpent begun log + if entry.spendsPatch then 1 else 0 := by
  rw [patchesSpent, List.countP_append, List.countP_singleton, patchesSpent, Nat.add_assoc]

theorem Run.failuresInARow_congr {run after : Run σ} (h : after.calls = run.calls) (stage : Stage) :
    failuresInARow stage after.log = failuresInARow stage run.log :=
  congrArg (fun calls => (List.rtakeWhile (Entry.failsIn · stage) calls).length) h

theorem Run.patchesSpent_congr {run after : Run σ} (h : after.calls = run.calls)
    (begun : Session) : patchesSpent begun after.log = patchesSpent begun run.log := by
  rw [patchesSpent, patchesSpent, Run.count_eq fun _ => rfl, Run.count_eq fun _ => rfl,
    Run.count_congr h]

/-! ### What may follow a failure -/

section Followed

variable (limits : Limits) (begun : Session)

/-- A failure that is put up with is followed by the news of a wait, and then by something else. -/
def Waited (stage : Stage) (before : List Entry) (call : Entry) (after rest : List Entry) : Prop :=
  let attempt := failuresInARow stage before + 1
  attempt ≤ limits.maxTransientRetries ∧
    after = .event (.waiting (patchesSpent begun before) attempt (call.delay limits attempt)
      call.reason) :: rest

/-- After the wait the same call is made again. -/
inductive Retried (before : List Entry) (call : Entry) (after : List Entry) : Stage → Prop
  | submission {errors : List String} {again : Entry} {rest : List Entry}
      (hw : Waited limits begun .submitting before call after
        (.event (.entered (patchesSpent begun before) .remoteValidating errors) :: again :: rest))
      (hc : again.call? = call.call?) : Retried before call after .submitting
  | patchRequest {again : Entry} {rest : List Entry}
      (hw : Waited limits begun .patching before call after (again :: rest))
      (hc : again.call? = call.call?) : Retried before call after .patching

/-- A failure too many ends the repair. -/
def GaveUp (outcome : Outcome) (before : List Entry) (call : Entry) (after : List Entry)
    (stage : Stage) : Prop :=
  failuresInARow stage before = limits.maxTransientRetries ∧
    ∃ account errors,
      outcome = .failed account
        (.retryBudgetExhausted (limits.maxTransientRetries + 1) call.reason) ∧
      account.iterations = patchesSpent begun before ∧
      after = [.event (.entered (patchesSpent begun before) .failed errors)]

end Followed

/-- What is so of each failure in a log, with what came before and after it. -/
def EachFailure (claim : List Entry → Entry → List Entry → Stage → Prop) (log : List Entry) :
    Prop :=
  ∀ stage before call after, log = before ++ call :: after → call.failsIn stage = true →
    claim before call after stage

/-- News of a wait comes right after a failure. -/
def WaitsFollow (log : List Entry) : Prop :=
  ∀ before iteration attempt delay reason after,
    log = before ++ .event (.waiting iteration attempt delay reason) :: after →
      ∃ earlier call stage, before = earlier ++ [call] ∧ call.failsIn stage = true

section Splits

variable {limits : Limits} {begun : Session} {log new : List Entry}

/-- An element of a longer list was there before, or is a new one. -/
theorem split_append {before after : List Entry} {entry : Entry}
    (h : log ++ new = before ++ entry :: after) :
    (∃ rest, log = before ++ entry :: rest ∧ after = rest ++ new) ∨
      ∃ more, before = log ++ more ∧ new = more ++ entry :: after := by
  rcases List.append_eq_append_iff.mp h with ⟨more, hbefore, hnew⟩ | ⟨rest, hlog, hafter⟩
  · exact .inr ⟨more, hbefore, hnew⟩
  · cases rest with
    | nil =>
      rw [List.append_nil] at hlog
      exact .inr ⟨[], by rw [hlog, List.append_nil], hafter.symm⟩
    | cons first rest =>
      obtain ⟨hentry, hrest⟩ := List.cons.inj hafter
      rw [← hentry] at hlog
      exact .inl ⟨rest, hlog, hrest⟩

theorem split_singleton {before after : List Entry} {last entry : Entry}
    (h : [last] = before ++ entry :: after) : before = [] ∧ entry = last ∧ after = [] := by
  cases before with
  | nil =>
    obtain ⟨hentry, hafter⟩ := List.cons.inj h
    exact ⟨rfl, hentry.symm, hafter.symm⟩
  | cons first before =>
    exact absurd (List.cons.inj h).2.symm
      (List.append_ne_nil_of_right_ne_nil _ (List.cons_ne_nil _ _))

theorem split_concat {before after : List Entry} {last entry : Entry}
    (h : log ++ [last] = before ++ entry :: after) :
    (∃ rest, log = before ++ entry :: rest ∧ after = rest ++ [last]) ∨
      before = log ∧ entry = last ∧ after = [] := by
  rcases split_append h with hold | ⟨more, hbefore, hmore⟩
  · exact .inl hold
  · obtain ⟨rfl, hentry, hafter⟩ := split_singleton hmore
    rw [List.append_nil] at hbefore
    exact .inr ⟨hbefore, hentry, hafter⟩

theorem EachFailure.append {claim later : List Entry → Entry → List Entry → Stage → Prop}
    (h : EachFailure claim log)
    (hold : ∀ stage before call after, log = before ++ call :: after →
      call.failsIn stage = true → claim before call after stage →
        later before call (after ++ new) stage)
    (hnew : ∀ stage before call after, new = before ++ call :: after →
      call.failsIn stage = true → later (log ++ before) call after stage) :
    EachFailure later (log ++ new) := by
  intro stage before call after heq hfails
  rcases split_append heq with ⟨rest, hlog, rfl⟩ | ⟨more, rfl, hmore⟩
  · exact hold stage before call rest hlog hfails (h stage before call rest hlog hfails)
  · exact hnew stage more call after hmore hfails

theorem Waited.append {stage : Stage} {before after rest : List Entry} {call : Entry}
    (h : Waited limits begun stage before call after rest) (more : List Entry) :
    Waited limits begun stage before call (after ++ more) (rest ++ more) := by
  obtain ⟨hle, rfl⟩ := h
  exact ⟨hle, rfl⟩

theorem Retried.append {stage : Stage} {before after : List Entry} {call : Entry}
    (h : Retried limits begun before call after stage) (more : List Entry) :
    Retried limits begun before call (after ++ more) stage := by
  cases h with
  | submission hw hc => exact .submission (hw.append more) hc
  | patchRequest hw hc => exact .patchRequest (hw.append more) hc

end Splits

/-! ### News of other things -/

/-- An event that tells of no wait. -/
def Entry.isNews : Entry → Bool
  | .event (.waiting ..) => false
  | .event _ => true
  | _ => false

/-- Only such events are added to the log. -/
def Run.AddsNews (run after : Run σ) : Prop :=
  ∃ news, after.log = run.log ++ news ∧ ∀ entry ∈ news, entry.isNews = true

namespace Run.AddsNews

variable {run between after : Run σ}

theorem refl (run : Run σ) : run.AddsNews run :=
  ⟨[], (List.append_nil _).symm, nofun⟩

theorem trans (h : run.AddsNews between) (h' : between.AddsNews after) : run.AddsNews after := by
  obtain ⟨news, hlog, hnews⟩ := h
  obtain ⟨later, hlog', hlater⟩ := h'
  refine ⟨news ++ later, by rw [hlog', hlog, List.append_assoc], ?_⟩
  intro entry hentry
  rcases List.mem_append.mp hentry with hentry | hentry
  · exact hnews entry hentry
  · exact hlater entry hentry

/-- Only the log matters. -/
theorem update (h : run.AddsNews after) (change : Session → Session) :
    run.AddsNews (after.update change) := h

theorem enter (run : Run σ) (phase : Phase) : run.AddsNews (run.enter phase) :=
  ⟨_, rfl, fun _ h => by rw [List.mem_singleton.mp h]; rfl⟩

theorem addFixes (run : Run σ) (fixes : List String) : run.AddsNews (run.addFixes fixes) := by
  unfold Run.addFixes
  split
  · exact refl run
  · exact ⟨_, rfl, fun _ h => by rw [List.mem_singleton.mp h]; rfl⟩

theorem noteIssues (run : Run σ) (report : Validation.Report) :
    run.AddsNews (run.noteIssues report) := by
  unfold Run.noteIssues
  split
  · exact (refl run).update _
  · exact refl run

theorem restructure (policy : Validation.Policy) (passes : Nat) (previous : Option Nat)
    (run : Run σ) : run.AddsNews (run.restructure policy passes previous) := by
  induction passes generalizing previous run with
  | zero => exact refl run
  | succ passes ih =>
    unfold Run.restructure
    generalize Validation.validate policy true run.session.tableText = report
    dsimp only
    split
    · exact noteIssues run report
    · have hfixed : run.AddsNews (run.installFixed report) :=
        ((refl run).update _).trans (addFixes _ report.appliedFixes)
      exact hfixed.trans (ih _ _)

theorem applyPatch (setup : Setup σ) (patch : Patch) (run : Run σ) :
    run.AddsNews (setup.applyPatch patch run) := by
  have hnoted : run.AddsNews ((run.install patch.tableText).1.addFixes
      (Setup.patchNotes patch run.session.complaints)) :=
    ((refl run).update _).trans (addFixes _ _)
  rw [Setup.applyPatch_eq_spend, Setup.rework]
  split
  · exact (hnoted.trans (restructure ..)).update _
  · exact hnoted.update _

theorem spendIteration (error : PatchError) (run : Run σ) :
    run.AddsNews (Setup.spendIteration error run) :=
  (addFixes run _).update _

theorem rejected (setup : Setup σ) (complaints : List Complaint) (run : Run σ) (phase : Phase) :
    (setup.submitted run).AddsNews ((setup.rejected complaints run).enter phase) :=
  ((refl _).update _).trans (enter _ phase)

theorem clean (run : Run σ) : run.AddsNews run.clean :=
  (enter run .sanitizing).trans (((refl _).update _).trans (addFixes _ _))

theorem prepare (setup : Setup σ) (run : Run σ) : run.AddsNews (setup.prepare run) :=
  ((clean run).trans (enter _ .structuralFix)).trans (restructure ..)

theorem calls_eq (h : run.AddsNews after) : after.calls = run.calls := by
  obtain ⟨news, hlog, hnews⟩ := h
  have hnone : news.filter Entry.isCall = [] := by
    rw [List.filter_eq_nil_iff]
    intro entry hentry hcall
    have hnews := hnews entry hentry
    cases entry with
    | event => cases hcall
    | submission => cases hnews
    | patchRequest => cases hnews
  rw [Run.calls, hlog, List.filter_append, hnone, List.append_nil, Run.calls]

end Run.AddsNews

/-! ### What holds during a sitting -/

/-- The last failure is being waited for: the news of the wait is the last entry, and the next call
is the same. -/
structure Pending (setup : Setup σ) (begun : Session) (stage : Stage) (run : Run σ)
    (before : List Entry) (call : Entry) (after : List Entry) (failed : Stage) : Prop where
  sameStage : failed = stage
  waited : Waited setup.limits begun stage before call after []
  spent : patchesSpent begun before = run.session.iteration
  sameCall : call.call? = some (setup.nextCall run stage)

/-- What holds between two calls: the counters agree with the log, and every failure was retried or
is being waited for. -/
structure Retrying (setup : Setup σ) (begun : Session) (stage : Stage) (run : Run σ) : Prop where
  within : run.session.transientFailures ≤ setup.limits.maxTransientRetries
  failures : run.session.transientFailures = failuresInARow stage run.log
  spent : run.session.iteration = patchesSpent begun run.log
  retried : EachFailure (fun before call after failed =>
    Retried setup.limits begun before call after failed ∨
      Pending setup begun stage run before call after failed) run.log
  waits : WaitsFollow run.log

/-- What holds right after a call, of the log before it and the call itself. -/
structure Answered (setup : Setup σ) (begun : Session) (stage : Stage) (earlier : List Entry)
    (call : Entry) (run : Run σ) : Prop where
  log : run.log = earlier ++ [call]
  isCall : call.isCall = true
  within : run.session.transientFailures ≤ setup.limits.maxTransientRetries
  failures : run.session.transientFailures = failuresInARow stage earlier
  spent : run.session.iteration = patchesSpent begun earlier
  retried : EachFailure (fun before call after failed =>
    Retried setup.limits begun before call after failed ∨ after = []) run.log
  waits : WaitsFollow run.log

/-- What holds at the end. -/
structure Accounted (limits : Limits) (begun : Session) (outcome : Outcome) (run : Run σ) :
    Prop where
  failures : EachFailure (fun before call after stage =>
    Retried limits begun before call after stage ∨
      GaveUp limits begun outcome before call after stage) run.log
  waits : WaitsFollow run.log
  failed : ∀ account error, outcome = .failed account error →
    ∃ earlier call errors,
      run.log = earlier ++ [call, .event (.entered account.iterations .failed errors)] ∧
        ((∃ stage, call.failsIn stage = true ∧
            failuresInARow stage earlier = limits.maxTransientRetries ∧
            error = .retryBudgetExhausted (limits.maxTransientRetries + 1) call.reason) ∨
          ∃ time request message,
            call = .patchRequest time request (.error (.unauthorized message)) ∧
              error = .patch (.unauthorized message))

/-- A cancelled repair does not wait any longer, nor does it make its call again. -/
def AccountedIfCalm (limits : Limits) (begun : Session) (outcome : Outcome) (run : Run σ) : Prop :=
  run.clock.cancelled = false → Accounted limits begun outcome run

theorem not_failsIn_of_isNews {news : List Entry} (h : ∀ entry ∈ news, entry.isNews = true)
    {before after : List Entry} {call : Entry} {stage : Stage}
    (heq : news = before ++ call :: after) : call.failsIn stage = false := by
  have hnews := h call (by rw [heq]; exact List.mem_append_right _ List.mem_cons_self)
  cases call with
  | event event => exact Entry.failsIn_eq_false rfl stage
  | submission => cases hnews
  | patchRequest => cases hnews

namespace WaitsFollow

variable {log : List Entry}

/-- A list that adds no news of a wait. -/
theorem append (h : WaitsFollow log) {new : List Entry}
    (hnew : ∀ iteration attempt delay reason,
      .event (.waiting iteration attempt delay reason) ∉ new) : WaitsFollow (log ++ new) := by
  intro before iteration attempt delay reason after heq
  rcases split_append heq with ⟨rest, hlog, -⟩ | ⟨more, -, hmore⟩
  · exact h before iteration attempt delay reason rest hlog
  · refine absurd ?_ (hnew iteration attempt delay reason)
    rw [hmore]
    exact List.mem_append_right _ List.mem_cons_self

/-- The news of a wait after a failure. -/
theorem concat {earlier : List Entry} {call : Entry} {stage : Stage}
    (h : WaitsFollow (earlier ++ [call])) (hc : call.failsIn stage = true) (event : Event) :
    WaitsFollow (earlier ++ [call] ++ [.event event]) := by
  intro before iteration attempt delay reason after heq
  rcases split_concat heq with ⟨rest, hlog, -⟩ | ⟨rfl, -, -⟩
  · exact h before iteration attempt delay reason rest hlog
  · exact ⟨earlier, call, stage, rfl, hc⟩

end WaitsFollow

section Steps

variable {setup : Setup σ} {begun : Session} {stage : Stage} {earlier : List Entry} {call : Entry}
  {run after : Run σ}

/-- If a failure is being waited for, the submission repeats it. -/
theorem Retrying.submitted (h : Retrying setup begun .submitting run) :
    Answered setup begun .submitting (run.enter .remoteValidating).log
      (.submission run.clock.now (setup.submission run) setup.credential (setup.verdict run))
      (setup.submitted run) := by
  have hcalls : (run.enter .remoteValidating).calls = run.calls := Run.calls_enter ..
  refine ⟨setup.log_submitted run, rfl, h.within, ?_, ?_, ?_, ?_⟩
  · rw [Run.failuresInARow_congr hcalls]
    exact h.failures
  · rw [Run.patchesSpent_congr hcalls]
    exact h.spent
  · rw [setup.log_submitted, Run.enter, Run.note, List.append_assoc]
    refine h.retried.append ?_ ?_
    · rintro failed before call after - - (hretried | ⟨rfl, hwaited, hspent, hcall⟩)
      · exact .inl (hretried.append _)
      · rw [← hspent]
        exact .inl (.submission (hwaited.append _) hcall.symm)
    · intro failed before call after hnew hfails
      rcases split_concat hnew with ⟨rest, hentered, -⟩ | ⟨-, -, hafter⟩
      · have hnews : call.failsIn failed = false := not_failsIn_of_isNews
          (fun _ h => by rw [List.mem_singleton.mp h]; rfl) hentered
        rw [hnews] at hfails
        cases hfails
      · exact .inr hafter
  · rw [setup.log_submitted, Run.enter, Run.note, List.append_assoc]
    exact h.waits.append (by simp)

/-- If a failure is being waited for, the patch request repeats it. -/
theorem Retrying.requested (h : Retrying setup begun .patching run) :
    Answered setup begun .patching run.log
      (.patchRequest run.clock.now (setup.patchRequest run) (setup.patchReply run))
      (setup.requested run) := by
  refine ⟨setup.log_requested run, rfl, h.within, h.failures, h.spent, ?_, ?_⟩
  · rw [setup.log_requested]
    refine h.retried.append ?_ ?_
    · rintro failed before call after - - (hretried | ⟨rfl, hwaited, -, hcall⟩)
      · exact .inl (hretried.append _)
      · exact .inl (.patchRequest (hwaited.append _) hcall.symm)
    · intro failed before call after hnew hfails
      exact .inr (split_singleton hnew).2.2
  · rw [setup.log_requested]
    exact h.waits.append (by simp)

theorem Entry.delay_rateLimited (limits : Limits) (attempt : Nat) (time : Duration)
    (submission : Submission) (credential : Credential) (retryAfter : Option Duration) :
    (Entry.submission time submission credential (.ok (.rateLimited retryAfter))).delay limits
      attempt = limits.rateLimitDelay retryAfter := by
  cases retryAfter <;> rfl

theorem Setup.patchDelay_eq (setup : Setup σ) (run : Run σ) (error : PatchError)
    (time : Duration) (request : PatchRequest) :
    setup.patchDelay run error = (Entry.patchRequest time request (.error error)).delay
      setup.limits (run.session.transientFailures + 1) := by
  cases error with
  | rateLimited retryAfter => cases retryAfter <;> rfl
  | _ => rfl

namespace Answered

/-- A call that did not fail leaves no failure to be retried. -/
theorem retried_of_not_failsIn (h : Answered setup begun stage earlier call run)
    (hc : call.isFailure = false) :
    EachFailure (Retried setup.limits begun) run.log := by
  intro failed before failure rest hlog hfails
  rcases h.retried failed before failure rest hlog hfails with hretried | rfl
  · exact hretried
  · rw [h.log] at hlog
    rcases split_concat hlog with ⟨rest, -, hnil⟩ | ⟨-, rfl, -⟩
    · exact absurd hnil.symm (List.append_ne_nil_of_right_ne_nil _ (List.cons_ne_nil _ _))
    · rw [Entry.failsIn_eq_false hc failed] at hfails
      cases hfails

end Answered

/-- News after a log in which every failure was retried. -/
theorem EachFailure.addsNews {limits : Limits} (h : EachFailure (Retried limits begun) run.log)
    (hnews : run.AddsNews after) : EachFailure (Retried limits begun) after.log := by
  obtain ⟨news, hlog, hnews⟩ := hnews
  rw [hlog]
  refine h.append (fun _ _ _ _ _ _ hretried => hretried.append _) ?_
  intro failed before call after hsplit hfails
  rw [not_failsIn_of_isNews hnews hsplit] at hfails
  cases hfails

theorem WaitsFollow.addsNews (h : WaitsFollow run.log) (hnews : run.AddsNews after) :
    WaitsFollow after.log := by
  obtain ⟨news, hlog, hnews⟩ := hnews
  rw [hlog]
  exact h.append fun _ _ _ _ hmem => nomatch hnews _ hmem

namespace Answered

/-- News after a call that did not fail. -/
theorem retried_or (h : Answered setup begun stage earlier call run)
    (hc : call.isFailure = false) (hnews : run.AddsNews after)
    (claim : List Entry → Entry → List Entry → Stage → Prop) :
    EachFailure (fun before failure rest failed =>
      Retried setup.limits begun before failure rest failed ∨ claim before failure rest failed)
      after.log := fun failed before failure rest hlog hfails =>
  .inl ((h.retried_of_not_failsIn hc).addsNews hnews failed before failure rest hlog hfails)

/-- After a call that did not fail the next one begins afresh. -/
theorem retrying (h : Answered setup begun stage earlier call run)
    (hc : call.isFailure = false) (hnews : run.AddsNews after) {next : Stage}
    (hf : after.session.transientFailures = 0)
    (hi : after.session.iteration =
      run.session.iteration + if call.spendsPatch then 1 else 0) :
    Retrying setup begun next after := by
  have hcalls : after.calls = run.calls := hnews.calls_eq
  refine ⟨by omega, ?_, ?_, h.retried_or hc hnews _, h.waits.addsNews hnews⟩
  · rw [hf, Run.failuresInARow_congr hcalls, h.log,
      failuresInARow_concat_other h.isCall (Entry.failsIn_eq_false hc next)]
  · rw [hi, h.spent, Run.patchesSpent_congr hcalls, h.log, patchesSpent_concat]

/-- After a call that did not fail the repair may end in another way. -/
theorem accounted (h : Answered setup begun stage earlier call run)
    (hc : call.isFailure = false) (hnews : run.AddsNews after) {outcome : Outcome} (phase : Phase)
    (ho : outcome.phase = phase) (hp : phase ≠ .failed) :
    Accounted setup.limits begun outcome after := by
  refine ⟨h.retried_or hc hnews _, h.waits.addsNews hnews, ?_⟩
  rintro account error rfl
  exact absurd ho.symm hp

/-- A credential that the patch service refuses ends the repair. -/
theorem refused {time : Duration} {request : PatchRequest} {message : String}
    (h : Answered setup begun stage earlier
      (.patchRequest time request (.error (.unauthorized message))) run) :
    let ending := run.fail (.patch (.unauthorized message))
    Accounted setup.limits begun ending.1 ending.2 := by
  have hnews : run.AddsNews (run.enter .failed) := .enter run .failed
  refine ⟨h.retried_or rfl hnews _, h.waits.addsNews hnews, ?_⟩
  intro account error heq
  obtain ⟨rfl, rfl⟩ := Outcome.failed.inj heq
  refine ⟨earlier, _, run.session.remainingErrors, ?_, .inr ⟨time, request, message, rfl, rfl⟩⟩
  show (run.enter .failed).log = _
  rw [Run.enter, Run.note, h.log, List.append_assoc]
  rfl

/-- The last entry is the call. -/
theorem eq_last (h : Answered setup begun stage earlier call run) {before : List Entry}
    {entry : Entry} (hlog : run.log = before ++ [entry]) : before = earlier ∧ entry = call := by
  rw [h.log] at hlog
  obtain ⟨hbefore, hentry⟩ := List.append_inj' hlog rfl
  exact ⟨hbefore.symm, (List.cons.inj hentry).1.symm⟩

/-- A failure too many. -/
theorem gaveUp (h : Answered setup begun stage earlier call run) (hc : call.failsIn stage = true)
    (hle : setup.limits.maxTransientRetries ≤ run.session.transientFailures) :
    let ending := run.countFailure.fail
      (.retryBudgetExhausted (run.session.transientFailures + 1) call.reason)
    Accounted setup.limits begun ending.1 ending.2 := by
  have hmost : run.session.transientFailures = setup.limits.maxTransientRetries :=
    Nat.le_antisymm h.within hle
  have hlog : (run.countFailure.enter .failed).log = run.log ++
      [.event (.entered run.session.iteration .failed run.session.remainingErrors)] := rfl
  intro ending
  refine ⟨?_, ?_, ?_⟩
  · show EachFailure _ (run.countFailure.enter .failed).log
    rw [hlog]
    refine h.retried.append ?_ ?_
    · rintro failed before failure rest hsplit hfails (hretried | rfl)
      · exact .inl (hretried.append _)
      · obtain ⟨rfl, rfl⟩ := h.eq_last hsplit
        obtain rfl := Entry.failsIn_unique hfails hc
        refine .inr ⟨h.failures.symm.trans hmost, run.session.submittedAccount,
          run.session.remainingErrors, ?_, h.spent, ?_⟩
        · rw [← hmost]
          rfl
        · rw [← h.spent]
          rfl
    · intro failed before failure rest hsplit hfails
      rw [not_failsIn_of_isNews (fun _ h => by rw [List.mem_singleton.mp h]; rfl) hsplit] at hfails
      cases hfails
  · exact h.waits.addsNews (Run.AddsNews.enter run.countFailure .failed)
  · intro account error heq
    obtain ⟨rfl, rfl⟩ := Outcome.failed.inj heq
    refine ⟨earlier, call, run.session.remainingErrors, ?_, .inl ⟨stage, hc, ?_, ?_⟩⟩
    · show (run.countFailure.enter .failed).log = _
      rw [hlog, h.log, List.append_assoc]
      rfl
    · rw [← h.failures, hmost]
    · rw [hmost]

/-- A failure that is waited for. -/
theorem slept (h : Answered setup begun stage earlier call run) (hc : call.failsIn stage = true)
    (hcall : call.call? = some (setup.nextCall run stage))
    (hlt : run.session.transientFailures < setup.limits.maxTransientRetries) :
    Retrying setup begun stage (run.countFailure.sleep
      (call.delay setup.limits (run.session.transientFailures + 1)) call.reason) := by
  let delay := call.delay setup.limits (run.session.transientFailures + 1)
  have hlog : (run.countFailure.sleep delay call.reason).log = run.log ++
      [.event (.waiting run.session.iteration (run.session.transientFailures + 1) delay
        call.reason)] := rfl
  have hcalls : (run.countFailure.sleep delay call.reason).calls = run.calls := Run.calls_sleep ..
  refine ⟨hlt, ?_, ?_, ?_, ?_⟩
  · rw [Run.failuresInARow_congr hcalls, h.log, failuresInARow_concat_failure hc, ← h.failures]
    rfl
  · rw [Run.patchesSpent_congr hcalls, h.log, patchesSpent_concat,
      Entry.spendsPatch_of_failsIn hc]
    exact h.spent
  · show EachFailure _ (run.countFailure.sleep delay call.reason).log
    rw [hlog]
    refine h.retried.append ?_ ?_
    · rintro failed before failure rest hsplit hfails (hretried | rfl)
      · exact .inl (hretried.append _)
      · obtain ⟨rfl, rfl⟩ := h.eq_last hsplit
        refine .inr ⟨Entry.failsIn_unique hfails hc, ⟨?_, ?_⟩, h.spent.symm, hcall⟩
        · rw [← h.failures]
          exact hlt
        · rw [← h.failures, ← h.spent]
          rfl
    · intro failed before failure rest hsplit hfails
      obtain ⟨-, rfl, -⟩ := split_singleton hsplit
      cases Entry.isFailure_of_failsIn hfails
  · show WaitsFollow (run.countFailure.sleep delay call.reason).log
    rw [hlog, h.log]
    exact (h.log ▸ h.waits).concat hc _

/-- What follows a failure when nobody cancels. -/
theorem backOff (h : Answered setup begun stage earlier call run)
    (hc : call.failsIn stage = true) (hcall : call.call? = some (setup.nextCall run stage))
    {next : Next σ}
    (hb : setup.BackOff stage (call.delay setup.limits (run.session.transientFailures + 1))
      call.reason run next) :
    next.Holds (Retrying setup begun) (AccountedIfCalm setup.limits begun) := by
  cases hb with
  | spent hle => exact fun _ => h.gaveUp hc hle
  | interrupted hlt hcut =>
    intro hcalm
    rw [Clock.wait_snd] at hcut
    rw [show (run.clock.wait _).1.cancelled = false from hcalm] at hcut
    cases hcut
  | again hlt _ => exact h.slept hc hcall hlt

end Answered

theorem Retrying.submitStep (h : Retrying setup begun .submitting run) :
    (setup.submitStep run).Holds (Retrying setup begun) (AccountedIfCalm setup.limits begun) := by
  have hs := h.submitted
  refine Setup.holds_submitStep fun next hnext => ?_
  cases hnext with
  | cancelled hcancelled => exact fun hcalm => absurd hcancelled (Bool.eq_false_iff.mp hcalm)
  | accepted version _ hv =>
    rw [hv] at hs
    exact fun _ => hs.accounted rfl (.enter _ _) .done rfl (by decide)
  | exhausted complaints _ hv _ =>
    rw [hv] at hs
    exact fun _ => hs.accounted rfl (.rejected setup complaints run _) .exhausted rfl (by decide)
  | cancelledMeanwhile complaints _ hv _ _ =>
    rw [hv] at hs
    exact fun _ => hs.accounted rfl (.rejected setup complaints run _) .cancelled rfl (by decide)
  | rejected complaints _ hv _ _ =>
    rw [hv] at hs
    exact hs.retrying rfl (.rejected setup complaints run _) rfl rfl
  | unauthorized _ hv =>
    rw [hv] at hs
    exact fun _ => hs.accounted rfl (.enter _ _) .needsCredential rfl (by decide)
  | rateLimited retryAfter _ hv hb =>
    rw [hv] at hs
    rw [← Entry.delay_rateLimited setup.limits (run.session.transientFailures + 1) run.clock.now
      (setup.submission run) setup.credential] at hb
    exact hs.backOff rfl rfl hb
  | failed error _ hv hb =>
    rw [hv] at hs
    exact hs.backOff rfl rfl hb

theorem Retrying.patchStep (h : Retrying setup begun .patching run) :
    (setup.patchStep run).Holds (Retrying setup begun) (AccountedIfCalm setup.limits begun) := by
  have hq := h.requested
  refine Setup.holds_patchStep fun next hnext => ?_
  cases hnext with
  | patched patch hr =>
    rw [hr] at hq
    exact hq.retrying rfl (.applyPatch setup patch _) rfl (Setup.iteration_applyPatch ..)
  | unauthorized message hr =>
    rw [hr] at hq
    exact fun _ => hq.refused
  | failed error hr ht hb =>
    rw [hr] at hq
    rw [setup.patchDelay_eq _ error run.clock.now (setup.patchRequest run)] at hb
    exact hq.backOff ((Entry.isFailure_patchRequest ..).trans ht) rfl hb
  | exhausted error hr hu _ =>
    rw [hr] at hq
    exact fun _ => hq.accounted (Entry.isFailure_of_isUnusable hu)
      (.trans (.spendIteration error _) (.enter _ _)) .exhausted rfl (by decide)
  | cancelled error hr hu _ _ =>
    rw [hr] at hq
    exact fun _ => hq.accounted (Entry.isFailure_of_isUnusable hu)
      (.trans (.spendIteration error _) (.enter _ _)) .cancelled rfl (by decide)
  | again error hr hu _ _ =>
    rw [hr] at hq
    refine hq.retrying (Entry.isFailure_of_isUnusable hu) (.spendIteration error _) rfl ?_
    rw [Setup.iteration_spendIteration, Entry.spendsPatch, hu]
    rfl

end Steps

/-! ### Sittings -/

namespace Run.AddsNews

variable {run after : Run σ}

/-- News alone tells of no failure. -/
theorem eachFailure (h : run.AddsNews after) (hnil : run.log = [])
    (claim : List Entry → Entry → List Entry → Stage → Prop) : EachFailure claim after.log := by
  obtain ⟨news, hlog, hnews⟩ := h
  rw [hnil, List.nil_append] at hlog
  intro stage before call rest hsplit hfails
  rw [not_failsIn_of_isNews hnews (hlog.symm.trans hsplit)] at hfails
  cases hfails

theorem waitsFollow (h : run.AddsNews after) (hnil : run.log = []) : WaitsFollow after.log := by
  refine WaitsFollow.addsNews ?_ h
  rw [hnil]
  intro before iteration attempt delay reason rest hsplit
  exact absurd hsplit.symm (List.append_ne_nil_of_right_ne_nil _ (List.cons_ne_nil _ _))

end Run.AddsNews

namespace Setup

variable (setup : Setup σ) (opening : Opening) (services : σ) (clock : Clock)

/-- Before the first submission there is only news. -/
theorem addsNews_ready :
    (setup.opened opening services clock).AddsNews
      (setup.ready opening (setup.opened opening services clock)) := by
  cases opening with
  | start => exact .prepare setup _
  | resume suspension => exact .refl _

theorem Early.addsNews {setup : Setup σ} {services : σ} {clock : Clock} {run : Run σ}
    (h : setup.Early services clock run) : (setup.initial services clock).AddsNews run := by
  cases h with
  | initial => exact .refl _
  | cleaned => exact .clean _
  | prepared => exact .prepare setup _

/-- A sitting begins with no failure, and with the patches that were spent before. -/
theorem retrying_ready :
    Retrying (setup.forOpening opening) (opening.session setup.job) .submitting
      (setup.ready opening (setup.opened opening services clock)) := by
  have hnews := setup.addsNews_ready opening services clock
  have hcounters : ∀ run, run = setup.ready opening (setup.opened opening services clock) →
      run.session.iteration = (opening.session setup.job).iteration ∧
        run.session.transientFailures = 0 := by
    rintro run rfl
    cases opening with
    | start => exact setup.counters_prepare _
    | resume suspension => exact ⟨rfl, rfl⟩
  obtain ⟨hi, hf⟩ := hcounters _ rfl
  refine ⟨?_, ?_, ?_, hnews.eachFailure rfl _, hnews.waitsFollow rfl⟩
  · rw [hf]
    exact Nat.zero_le _
  · rw [hf, Run.failuresInARow_congr hnews.calls_eq]
    rfl
  · rw [hi, Run.patchesSpent_congr hnews.calls_eq]
    rfl

end Setup

theorem Sitting.accounted {setup : Setup σ} {opening : Opening} {outcome : Outcome} {run : Run σ}
    (h : Sitting setup opening outcome run) (hcalm : run.clock.cancelled = false) :
    Accounted setup.limits (opening.session setup.job) outcome run := by
  let begun := opening.session setup.job
  have cancelledEarly : ∀ services clock run, opening = .start →
      setup.Early services clock run →
        AccountedIfCalm setup.limits begun run.cancel.1 run.cancel.2 := by
    intro services clock run _ hearly _
    have hnews := hearly.addsNews.trans (.enter run .cancelled)
    exact ⟨hnews.eachFailure rfl _, hnews.waitsFollow rfl, nofun⟩
  have step : ∀ stage run, Retrying (setup.forOpening opening) begun stage run →
      ((setup.forOpening opening).step stage run).Holds (Retrying (setup.forOpening opening) begun)
        (AccountedIfCalm setup.limits begun) := by
    intro stage run hr
    cases stage with
    | submitting => exact hr.submitStep
    | patching => exact hr.patchStep
  exact Sitting.induction (setup.retrying_ready opening) cancelledEarly step h hcalm

end DialogTable.Repair
