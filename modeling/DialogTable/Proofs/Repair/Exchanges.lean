import Mathlib.Data.List.Forall2
import DialogTable.Proofs.Repair.Sitting

/-!
# What the services receive

The log of a repair is written by the repair, so it might tell of other calls than those that were
made. Here the services keep a record of their own (`Services.recorded`): what each call handed them
and what they replied. `Recorded` collects the ends of repairs with such services. The log tells
exactly what stands in the record, call by call (`Recorded.told`). An answer in the log is the one
that was replied, if the reply came within the time limit, and the error of a timeout otherwise.

The record changes nothing: a recorded repair without its record is the plain one (`forget_drive`),
and each end of a repair is the end of a recorded one (`Ending.exists_recorded`). So whatever is
proved of the calls in a log is true of what the services receive.
-/

namespace DialogTable.Repair

variable {σ : Type} {kind : Limits → Validation.Policy → Prop}

/-! ### Records -/

/-- A call of a service: what it was handed, and what it replied. -/
inductive Exchange
  | submit (submission : Submission) (credential : Credential)
      (reply : Reply (Except CompilerError Verdict))
  | requestPatch (request : PatchRequest) (reply : Reply (Except PatchError Patch))

namespace Exchange

/-- The submission that was handed to the compiler. -/
def submission? : Exchange → Option Submission
  | submit submission _ _ => some submission
  | requestPatch _ _ => none

/-- The request that was handed to the patch service. -/
def request? : Exchange → Option PatchRequest
  | submit _ _ _ => none
  | requestPatch request _ => some request

end Exchange

/-- The services with a record of their calls. They reply what they would reply without it. -/
def Services.recorded (services : Services σ) : Services (σ × List Exchange) where
  submit state submission credential :=
    let (reply, next) := services.submit state.1 submission credential
    (reply, next, state.2 ++ [.submit submission credential reply])
  requestPatch state request :=
    let (reply, next) := services.requestPatch state.1 request
    (reply, next, state.2 ++ [.requestPatch request reply])

/-- The setup with a record of all calls. -/
def Setup.recorded (setup : Setup σ) : Setup (σ × List Exchange) :=
  { setup with services := setup.services.recorded }

/-- The ends of a repair and its resumptions, with a record of all calls from the start on. Between
a suspension and its resumption the services go on, and the record is kept. -/
inductive Recorded (kind : Limits → Validation.Policy → Prop) :
    Outcome → Run (σ × List Exchange) → Prop
  | start (setup : Setup σ) (services : σ) (clock : Clock)
      (hk : kind setup.limits setup.policy) :
    Recorded kind (setup.recorded.start (services, []) clock).1
      (setup.recorded.start (services, []) clock).2
  | cancelledEarly (setup : Setup σ) {services : σ} {clock : Clock}
      {run : Run (σ × List Exchange)} (h : setup.recorded.Early (services, []) clock run)
      (hk : kind setup.limits setup.policy) : Recorded kind run.cancel.1 run.cancel.2
  | resume (setup : Setup σ) (services : σ) (clock : Clock) {suspension : Suspension}
      {run : Run (σ × List Exchange)} (h : Recorded kind (.needsCredential suspension) run)
      (hk : kind setup.limits setup.policy) :
    Recorded kind
      (setup.recorded.resume suspension
        { run with services := (services, run.services.2), clock }).1
      (setup.recorded.resume suspension
        { run with services := (services, run.services.2), clock }).2

/-- A recorded repair is a repair. -/
theorem Recorded.ending {outcome : Outcome} {run : Run (σ × List Exchange)}
    (h : Recorded kind outcome run) : Ending kind outcome run := by
  induction h with
  | start setup services clock hk => exact .start setup.recorded (services, []) clock hk
  | cancelledEarly setup hearly hk => exact .cancelledEarly setup.recorded hearly hk
  | resume setup services clock _ hk ih =>
    exact .resume setup.recorded (services, _) clock ih hk

/-! ### The log tells what is recorded -/

/-- What is heard of a reply: its answer, if it comes within the time limit, and else that it is
late. -/
def Reply.Heard {α : Type} (kind : Limits → Validation.Policy → Prop) (late : Duration → α)
    (reply : Reply α) (answer : α) : Prop :=
  ∃ limits policy, kind limits policy ∧
    answer = if Clock.timer reply.delay ≤ Clock.timer limits.remoteTimeout then reply.answer
      else late limits.remoteTimeout

/-- An entry of the log tells of a call: it names what was handed over, and the answer is what is
heard of the reply. -/
inductive Exchange.Tells (kind : Limits → Validation.Policy → Prop) : Exchange → Entry → Prop
  | submit (time : Duration) (submission : Submission) (credential : Credential)
      {reply : Reply (Except CompilerError Verdict)} {answer : Except CompilerError Verdict}
      (h : reply.Heard kind (fun limit => .error (.timeout limit)) answer) :
    Tells kind (.submit submission credential reply)
      (.submission time submission credential answer)
  | requestPatch (time : Duration) (request : PatchRequest)
      {reply : Reply (Except PatchError Patch)} {answer : Except PatchError Patch}
      (h : reply.Heard kind (fun limit => .error (.timeout limit)) answer) :
    Tells kind (.requestPatch request reply) (.patchRequest time request answer)

/-- The calls in the log are those of the record. -/
def Run.Told (kind : Limits → Validation.Policy → Prop) (run : Run (σ × List Exchange)) : Prop :=
  List.Forall₂ (Exchange.Tells kind) run.services.2 run.calls

/-- What a clock awaits is what is heard. -/
theorem Reply.heard_await {α : Type} {limits : Limits} {policy : Validation.Policy}
    (hk : kind limits policy) (clock : Clock) (late : Duration → α) (reply : Reply α) :
    reply.Heard kind late
      (clock.await limits.remoteTimeout (late limits.remoteTimeout) reply).1 := by
  refine ⟨limits, policy, hk, ?_⟩
  unfold Clock.await
  split <;> rfl

namespace Run.Told

variable {setup : Setup σ} {run after : Run (σ × List Exchange)}

theorem congr (h : run.Told kind) (hi : run.Idles after) : after.Told kind := by
  rw [Told, hi.calls, hi.services]
  exact h

/-- A call stands in the record and in the log. -/
theorem called (h : run.Told kind) (hk : kind setup.limits setup.policy) (stage : Stage) :
    (setup.recorded.called run stage).Told kind := by
  cases stage with
  | submitting =>
    have hheard := Reply.heard_await hk run.clock (fun limit => .error (.timeout limit))
      (setup.services.submit run.services.1 (setup.recorded.submission run) setup.credential).1
    rw [Told, Setup.called, Setup.calls_submitted]
    exact List.rel_append h (.cons (.submit _ _ _ hheard) .nil)
  | patching =>
    have hheard := Reply.heard_await hk run.clock (fun limit => .error (.timeout limit))
      (setup.services.requestPatch run.services.1 (setup.recorded.patchRequest run)).1
    rw [Told, Setup.called, Setup.calls_requested]
    exact List.rel_append h (.cons (.requestPatch _ _ hheard) .nil)

theorem step (h : run.Told kind) (hk : kind setup.limits setup.policy) (stage : Stage) :
    (setup.recorded.step stage run).Holds (fun _ after => after.Told kind)
      fun _ after => after.Told kind := by
  have hholds := setup.recorded.holds_calls stage run
  cases hs : setup.recorded.step stage run with
  | stop outcome after =>
    rw [hs] at hholds
    rcases hholds with ⟨-, -, hidle⟩ | hidle
    · exact h.congr hidle
    · exact (h.called hk stage).congr hidle
  | «continue» next after =>
    rw [hs] at hholds
    exact (h.called hk stage).congr hholds

theorem drive (h : run.Told kind) (hk : kind setup.limits setup.policy) (stage : Stage) :
    (setup.recorded.drive stage run).2.Told kind := by
  have hstep : ∀ (stage : Stage) (before : Run (σ × List Exchange)), before.Told kind →
      (setup.recorded.step stage before).Holds (fun _ after => after.Told kind)
        fun _ after => after.Told kind :=
    fun stage _ hbefore => hbefore.step hk stage
  exact Setup.drive_induction hstep h

/-- Before the first submission the record and the log are empty. -/
theorem early {services : σ} {clock : Clock} (h : setup.recorded.Early (services, []) clock run) :
    run.Told kind := by
  rw [Told, h.calls_eq_nil, h.services_eq]
  exact .nil

end Run.Told

/-- **The log is true.** The calls in the log are the calls that the services have recorded, in the
same order, with what was handed over and with what was heard of the reply. -/
theorem Recorded.told {outcome : Outcome} {run : Run (σ × List Exchange)}
    (h : Recorded kind outcome run) : run.Told kind := by
  induction h with
  | start setup services clock hk =>
    cases hc : clock.cancelled with
    | true =>
      rw [setup.recorded.start_of_cancelled (services, []) hc]
      exact (Run.Told.early .initial).congr ((Run.Idles.refl _).enter .cancelled)
    | false =>
      rw [setup.recorded.start_of_not_cancelled (services, []) hc]
      exact (Run.Told.early .prepared).drive hk .submitting
  | cancelledEarly setup hearly hk =>
    exact (Run.Told.early hearly).congr ((Run.Idles.refl _).enter .cancelled)
  | @resume setup services clock suspension run _ hk ih =>
    let resumed : Setup _ := { setup with job := suspension.job }
    have hresumed : kind resumed.limits resumed.policy := hk
    have hreopened : (suspension.reopen run (services, run.services.2) clock).Told kind := ih
    exact hreopened.drive hresumed .submitting

/-- Each call of the record stands in the log. -/
theorem exists_entry_of_mem {record : List Exchange} {calls : List Entry}
    (h : List.Forall₂ (Exchange.Tells kind) record calls) :
    ∀ exchange ∈ record, ∃ entry ∈ calls, exchange.Tells kind entry := by
  induction h with
  | nil => exact nofun
  | cons htells _ ih =>
    refine List.forall_mem_cons.2 ⟨⟨_, List.mem_cons_self, htells⟩, fun exchange hmem => ?_⟩
    obtain ⟨entry, hentry, hexchange⟩ := ih exchange hmem
    exact ⟨entry, List.mem_cons_of_mem _ hentry, hexchange⟩

/-! ### The record changes nothing -/

namespace Run

/-- The run without its record. -/
def forget (run : Run (σ × List Exchange)) : Run σ :=
  { services := run.services.1, clock := run.clock, session := run.session, log := run.log }

variable (run : Run (σ × List Exchange))

theorem forget_addFixes (fixes : List String) :
    (run.addFixes fixes).forget = run.forget.addFixes fixes := by
  unfold addFixes
  exact apply_ite forget ..

theorem forget_clean : run.clean.forget = run.forget.clean :=
  forget_addFixes ..

theorem forget_noteIssues (report : Validation.Report) :
    (run.noteIssues report).forget = run.forget.noteIssues report := by
  unfold noteIssues
  exact apply_ite forget ..

theorem forget_installFixed (report : Validation.Report) :
    (run.installFixed report).forget = run.forget.installFixed report :=
  forget_addFixes ..

theorem forget_restructure (policy : Validation.Policy) (passes : Nat) (previous : Option Nat) :
    (run.restructure policy passes previous).forget =
      run.forget.restructure policy passes previous := by
  induction passes generalizing previous run with
  | zero => rfl
  | succ passes ih =>
    unfold restructure
    rw [show run.forget.session = run.session from rfl]
    generalize Validation.validate policy true run.session.tableText = report
    dsimp only
    split
    · exact run.forget_noteIssues report
    · rw [ih, forget_installFixed]

end Run

/-- What follows a call, without the record. -/
def Next.forget : Next (σ × List Exchange) → Next σ
  | .continue stage run => .continue stage run.forget
  | .stop outcome run => .stop outcome run.forget

namespace Setup

variable (setup : Setup σ) (run : Run (σ × List Exchange))

theorem forget_rework : (setup.recorded.rework run).forget = setup.rework run.forget := by
  unfold rework
  rw [apply_ite Run.forget, Run.forget_restructure]
  rfl

theorem forget_applyPatch (patch : Patch) :
    (setup.recorded.applyPatch patch run).forget = setup.applyPatch patch run.forget := by
  rw [applyPatch_eq_spend, applyPatch_eq_spend]
  show (Run.forget (setup.recorded.rework _)).update Session.spend = _
  rw [forget_rework, Run.forget_addFixes]
  rfl

theorem forget_spendIteration (error : PatchError) :
    (spendIteration error run).forget = spendIteration error run.forget := by
  rw [spendIteration_eq_spend, spendIteration_eq_spend, ← Run.forget_addFixes]
  rfl

theorem forget_backOff (stage : Stage) (delay : Duration) (reason : String) :
    (setup.recorded.backOff stage delay reason run).forget =
      setup.backOff stage delay reason run.forget := by
  rw [backOff_eq, backOff_eq, apply_ite Next.forget, apply_ite Next.forget]
  rfl

theorem forget_settle (answer : Except CompilerError Verdict) :
    (setup.recorded.settle run answer).forget = setup.settle run.forget answer := by
  cases answer with
  | error error => exact setup.forget_backOff ..
  | ok verdict =>
    cases verdict with
    | accepted version => rfl
    | rejected complaints =>
      simp only [settle]
      rw [apply_ite Next.forget, apply_ite Next.forget]
      rfl
    | rateLimited retryAfter => exact setup.forget_backOff ..
    | unauthorized => rfl

theorem forget_settlePatch (answer : Except PatchError Patch) :
    (setup.recorded.settlePatch run answer).forget = setup.settlePatch run.forget answer := by
  cases answer with
  | ok patch => exact congrArg (Next.continue .submitting) (setup.forget_applyPatch run patch)
  | error error =>
    simp only [settlePatch, ← forget_spendIteration]
    rw [apply_ite Next.forget, apply_ite Next.forget, apply_ite Next.forget, apply_ite Next.forget,
      forget_backOff]
    rfl

/-- A step of a recorded repair is a step of the plain one. -/
theorem forget_step (stage : Stage) :
    (setup.recorded.step stage run).forget = setup.step stage run.forget := by
  cases stage with
  | submitting =>
    cases hc : run.clock.cancelled with
    | true =>
      have hcancelled : setup.recorded.submitStep run = .ofEnd run.cancel := if_pos hc
      have hplain : setup.submitStep run.forget = .ofEnd run.forget.cancel := if_pos hc
      rw [step, step, hcancelled, hplain]
      rfl
    | false =>
      have hplain : run.forget.clock.cancelled = false := hc
      rw [step, step, submitStep_eq setup.recorded hc, submitStep_eq setup hplain]
      exact setup.forget_settle ..
  | patching =>
    rw [step, step, patchStep_eq, patchStep_eq]
    exact setup.forget_settlePatch ..

theorem forget_prepare :
    (setup.recorded.prepare run).forget = setup.prepare run.forget := by
  rw [prepare_eq, prepare_eq, Run.forget_restructure, ← Run.forget_clean]
  rfl

/-- Without its record a recorded repair is the plain one. -/
theorem forget_drive (stage : Stage) :
    (setup.recorded.drive stage run).1 = (setup.drive stage run.forget).1 ∧
      (setup.recorded.drive stage run).2.forget = (setup.drive stage run.forget).2 := by
  induction stage, run using drive.induct setup.recorded with
  | case1 stage run outcome after hs =>
    have hstep := setup.forget_step run stage
    rw [hs] at hstep
    rw [drive_of_stop hs, drive_of_stop hstep.symm]
    exact ⟨rfl, rfl⟩
  | case2 stage run next after hs ih =>
    have hstep := setup.forget_step run stage
    rw [hs] at hstep
    rw [drive_of_continue hs, drive_of_continue hstep.symm]
    exact ih

theorem forget_start (services : σ) (clock : Clock) :
    (setup.recorded.start (services, []) clock).1 = (setup.start services clock).1 ∧
      (setup.recorded.start (services, []) clock).2.forget = (setup.start services clock).2 := by
  cases hc : clock.cancelled with
  | true =>
    rw [setup.recorded.start_of_cancelled (services, []) hc, setup.start_of_cancelled services hc]
    exact ⟨rfl, rfl⟩
  | false =>
    have hdrive := setup.forget_drive
      (setup.recorded.prepare (setup.recorded.initial (services, []) clock)) .submitting
    rw [forget_prepare] at hdrive
    rw [setup.recorded.start_of_not_cancelled (services, []) hc,
      setup.start_of_not_cancelled services hc]
    exact hdrive

/-- The early runs of a repair are those of a recorded one. -/
theorem Early.exists_recorded {setup : Setup σ} {services : σ} {clock : Clock} {run : Run σ}
    (h : setup.Early services clock run) :
    ∃ recorded, setup.recorded.Early (services, []) clock recorded ∧ recorded.forget = run := by
  cases h with
  | initial => exact ⟨_, .initial, rfl⟩
  | cleaned => exact ⟨_, .cleaned, Run.forget_clean _⟩
  | prepared => exact ⟨_, .prepared, setup.forget_prepare _⟩

/-- **The log of a sitting is true.** A sitting with a record of its calls comes to the end of the
plain sitting, with the same log, and the calls in this log are those of the record. -/
theorem sit_recorded (opening : Opening) (services : σ) (clock : Clock) :
    let recorded := setup.recorded.sit opening (services, []) clock
    recorded.1 = (setup.sit opening services clock).1 ∧
      recorded.2.forget = (setup.sit opening services clock).2 ∧
      recorded.2.Told fun limits _ => limits = setup.limits := by
  cases opening with
  | start =>
    obtain ⟨houtcome, hrun⟩ := setup.forget_start services clock
    exact ⟨houtcome, hrun, (Recorded.start setup services clock rfl).told⟩
  | resume suspension =>
    let resumed : Setup σ := { setup with job := suspension.job }
    let opened := setup.recorded.opened (.resume suspension) (services, []) clock
    have hopened : opened.Told fun limits _ => limits = resumed.limits := .nil
    obtain ⟨houtcome, hrun⟩ := resumed.forget_drive opened .submitting
    exact ⟨houtcome, hrun, hopened.drive rfl .submitting⟩

end Setup

/-- **Every repair can be recorded.** Each end of a repair is the end of a recorded one. -/
theorem Ending.exists_recorded {outcome : Outcome} {run : Run σ} (h : Ending kind outcome run) :
    ∃ recorded, Recorded kind outcome recorded ∧ recorded.forget = run := by
  induction h with
  | start setup services clock hk =>
    obtain ⟨houtcome, hrun⟩ := setup.forget_start services clock
    rw [← houtcome, ← hrun]
    exact ⟨_, .start setup services clock hk, rfl⟩
  | cancelledEarly setup hearly hk =>
    obtain ⟨recorded, hrecorded, rfl⟩ := hearly.exists_recorded
    exact ⟨_, .cancelledEarly setup hrecorded hk, rfl⟩
  | @resume setup services clock suspension run _ hk ih =>
    obtain ⟨recorded, hrecorded, rfl⟩ := ih
    obtain ⟨houtcome, hrun⟩ := { setup with job := suspension.job }.forget_drive
      (suspension.reopen recorded (services, recorded.services.2) clock) .submitting
    have hresume : setup.resume suspension { recorded.forget with services, clock } =
        { setup with job := suspension.job }.drive .submitting
          (suspension.reopen recorded (services, recorded.services.2) clock).forget := rfl
    rw [hresume, ← houtcome, ← hrun]
    exact ⟨_, .resume setup services clock hrecorded hk, rfl⟩

end DialogTable.Repair
