import DialogTable.Proofs.Repair.Account
import DialogTable.Proofs.Repair.Retries

/-!
# Suspensions are transparent

A sitting that is suspended and resumed comes to the same end as one in which the credential was
never refused. The two sittings hear the same answers but for the refusal, so `Tape` stands for the
services. They differ in the time that has passed and in what was logged, and neither matters to
what follows: `Alike` relates two runs that do the same, and every step keeps them alike.

Up to the refusal the two sittings go side by side, one with a tape from which the refusal is
missing (`Refused.alike`). After it the resumed sitting and the uninterrupted one have the same
tape (`Alike.drive`). The counter of failures is the only thing that a resumption changes in the
session, so the statement needs that no failure stands right before the refusal.
-/

namespace DialogTable.Repair

variable {σ : Type}

/-! ### Without cancellation -/

/-- A clock that no cancellation is due on. -/
structure Clock.Calm (clock : Clock) : Prop where
  cancelled : clock.cancelled = false
  cancelAt : clock.cancelAt = none

namespace Clock.Calm

variable {clock : Clock}

theorem pass (h : clock.Calm) (delay : Duration) : (clock.pass delay).Calm := by
  refine ⟨?_, h.cancelAt⟩
  rw [Clock.pass, h.cancelled, isDueBefore, due?, h.cancelAt]
  rfl

theorem wait (h : clock.Calm) (delay : Duration) : (clock.wait delay).1.Calm := by
  have hdue : clock.due? = none := by
    rw [due?, h.cancelAt]
    rfl
  rw [Clock.wait, h.cancelled, hdue]
  exact h.pass _

theorem await {α : Type} (h : clock.Calm) (limit : Duration) (late : α) {reply : Reply α}
    (hr : reply.cancels = false) : (clock.await limit late reply).2.Calm := by
  unfold Clock.await
  split
  · rw [hr]
    exact h.pass _
  · exact h.pass _

end Clock.Calm

/-- What is heard of a reply does not depend on the time. -/
theorem Clock.await_fst {α : Type} (clock other : Clock) (limit : Duration) (late : α)
    (reply : Reply α) : (clock.await limit late reply).1 = (other.await limit late reply).1 := by
  unfold Clock.await
  split <;> rfl

namespace Tape

/-- No answer comes along with a cancellation. -/
structure Calm (tape : Tape) : Prop where
  verdicts : ∀ reply ∈ tape.verdicts, reply.cancels = false
  patches : ∀ reply ∈ tape.patches, reply.cancels = false

/-- The next reply of the compiler. -/
def verdict (tape : Tape) : Reply (Except CompilerError Verdict) :=
  tape.verdicts.headD { answer := .ok .unauthorized }

/-- The tape after a submission. -/
def afterVerdict (tape : Tape) : Tape :=
  { tape with verdicts := tape.verdicts.tail }

/-- The next reply of the patch service. -/
def patch (tape : Tape) : Reply (Except PatchError Patch) :=
  tape.patches.headD { answer := .error (.unauthorized "no patch is left") }

/-- The tape after a patch request. -/
def afterPatch (tape : Tape) : Tape :=
  { tape with patches := tape.patches.tail }

theorem submit_eq (tape : Tape) (submission : Submission) (credential : Credential) :
    Tape.services.submit tape submission credential = (tape.verdict, tape.afterVerdict) := by
  obtain ⟨verdicts, patches⟩ := tape
  cases verdicts <;> rfl

theorem requestPatch_eq (tape : Tape) (request : PatchRequest) :
    Tape.services.requestPatch tape request = (tape.patch, tape.afterPatch) := by
  obtain ⟨verdicts, patches⟩ := tape
  cases patches <;> rfl

namespace Calm

variable {tape : Tape}

theorem verdict (h : tape.Calm) : tape.verdict.cancels = false := by
  obtain ⟨verdicts, patches⟩ := tape
  cases verdicts with
  | nil => rfl
  | cons reply later => exact h.verdicts reply List.mem_cons_self

theorem afterVerdict (h : tape.Calm) : tape.afterVerdict.Calm :=
  ⟨fun reply hreply => h.verdicts reply (List.mem_of_mem_tail hreply), h.patches⟩

theorem patch (h : tape.Calm) : tape.patch.cancels = false := by
  obtain ⟨verdicts, patches⟩ := tape
  cases patches with
  | nil => rfl
  | cons reply later => exact h.patches reply List.mem_cons_self

theorem afterPatch (h : tape.Calm) : tape.afterPatch.Calm :=
  ⟨h.verdicts, fun reply hreply => h.patches reply (List.mem_of_mem_tail hreply)⟩

end Calm

/-- The same tape, without a cancellation. -/
def Same (tape other : Tape) : Prop :=
  other = tape ∧ tape.Calm

/-- The next reply in a stage is the same on two tapes, and what follows is related too. -/
def Hears (S after : Tape → Tape → Prop) : Stage → Prop
  | .submitting => ∀ tape other, S tape other →
    other.verdict = tape.verdict ∧ tape.verdict.cancels = false ∧
      after tape.afterVerdict other.afterVerdict
  | .patching => ∀ tape other, S tape other →
    other.patch = tape.patch ∧ tape.patch.cancels = false ∧
      after tape.afterPatch other.afterPatch

theorem hears_same (stage : Stage) : Hears Same Same stage := by
  cases stage with
  | submitting =>
    rintro tape _ ⟨rfl, hcalm⟩
    exact ⟨rfl, hcalm.verdict, rfl, hcalm.afterVerdict⟩
  | patching =>
    rintro tape _ ⟨rfl, hcalm⟩
    exact ⟨rfl, hcalm.patch, rfl, hcalm.afterPatch⟩

end Tape

/-! ### Runs that do the same -/

/-- Two runs with the same session, on clocks without a cancellation. -/
structure Alike (S : σ → σ → Prop) (a b : Run σ) : Prop where
  session : b.session = a.session
  calm : a.clock.Calm
  otherCalm : b.clock.Calm
  services : S a.services b.services

/-- Two steps that come to the same. -/
inductive Next.Alike (S : σ → σ → Prop) : Next σ → Next σ → Prop
  | continue (stage : Stage) {a b : Run σ} (h : Repair.Alike S a b) :
    Next.Alike S (.continue stage a) (.continue stage b)
  | stop (outcome : Outcome) {a b : Run σ} (h : Repair.Alike S a b) :
    Next.Alike S (.stop outcome a) (.stop outcome b)

namespace Alike

variable {S : σ → σ → Prop} {a b : Run σ}

theorem note (h : Alike S a b) (entry other : Entry) : Alike S (a.note entry) (b.note other) :=
  ⟨h.session, h.calm, h.otherCalm, h.services⟩

theorem enter (h : Alike S a b) (phase : Phase) : Alike S (a.enter phase) (b.enter phase) :=
  h.note _ _

theorem update (h : Alike S a b) (change : Session → Session) :
    Alike S (a.update change) (b.update change) :=
  ⟨congrArg change h.session, h.calm, h.otherCalm, h.services⟩

theorem addFixes (h : Alike S a b) (fixes : List String) :
    Alike S (a.addFixes fixes) (b.addFixes fixes) := by
  unfold Run.addFixes
  split
  · exact h
  · exact (h.update fun session =>
      { session with fixesApplied := session.fixesApplied ++ fixes }).note _ _

theorem noteIssues (h : Alike S a b) (report : Validation.Report) :
    Alike S (a.noteIssues report) (b.noteIssues report) := by
  unfold Run.noteIssues
  rw [h.session]
  split
  · exact h.update _
  · exact h

theorem restructure (h : Alike S a b) (policy : Validation.Policy) (passes : Nat)
    (previous : Option Nat) :
    Alike S (a.restructure policy passes previous) (b.restructure policy passes previous) := by
  induction passes generalizing previous a b with
  | zero => exact h
  | succ passes ih =>
    unfold Run.restructure
    rw [h.session]
    generalize Validation.validate policy true a.session.tableText = report
    dsimp only
    split
    · exact h.noteIssues report
    · exact ih ((h.update _).addFixes report.appliedFixes) _

theorem applyPatch (h : Alike S a b) (setup : Setup σ) (patch : Patch) :
    Alike S (setup.applyPatch patch a) (setup.applyPatch patch b) := by
  have hnoted : Alike S
      ((a.install patch.tableText).1.addFixes (Setup.patchNotes patch a.session.complaints))
      ((b.install patch.tableText).1.addFixes (Setup.patchNotes patch a.session.complaints)) :=
    (h.update _).addFixes _
  rw [Setup.applyPatch_eq_spend, Setup.applyPatch_eq_spend, h.session, Setup.rework, Setup.rework]
  split
  · exact (hnoted.restructure _ _ _).update _
  · exact hnoted.update _

theorem spendIteration (h : Alike S a b) (error : PatchError) :
    Alike S (Setup.spendIteration error a) (Setup.spendIteration error b) :=
  (h.addFixes _).update _

theorem sleep (h : Alike S a b) (delay : Duration) (reason : String) :
    Alike S (a.sleep delay reason) (b.sleep delay reason) :=
  ⟨h.session, h.calm.wait delay, h.otherCalm.wait delay, h.services⟩

/-- Two runs that stop in the same way. -/
theorem stop (h : Alike S a b) (ending : Session → Outcome) (phase : Phase) :
    Next.Alike S (.stop (ending a.session) (a.enter phase))
      (.stop (ending b.session) (b.enter phase)) := by
  rw [h.session]
  exact .stop _ (h.enter phase)

theorem backOff (h : Alike S a b) (setup : Setup σ) (stage : Stage) (delay : Duration)
    (reason : String) :
    Next.Alike S (setup.backOff stage delay reason a) (setup.backOff stage delay reason b) := by
  have hslept : Alike S (a.countFailure.sleep delay reason) (b.countFailure.sleep delay reason) :=
    (h.update _).sleep delay reason
  have hcut : ∀ {clock : Clock}, clock.Calm → (clock.wait delay).2 = false :=
    fun hc => (Clock.wait_snd ..).trans (hc.wait delay).cancelled
  rw [Setup.backOff_eq, Setup.backOff_eq, hcut h.calm, hcut h.otherCalm, h.session]
  split
  · exact (h.update _).stop (fun session => .failed session.submittedAccount _) .failed
  · exact .continue stage hslept

/-- What follows a verdict depends on the session only. -/
theorem settle (h : Alike S a b) (setup : Setup σ) (answer : Except CompilerError Verdict) :
    Next.Alike S (setup.settle a answer) (setup.settle b answer) := by
  cases answer with
  | error error =>
    simp only [Setup.settle, Setup.nextBackoff, h.session]
    exact h.backOff ..
  | ok verdict =>
    cases verdict with
    | accepted version =>
      exact h.stop (fun session => .done (session.acceptedAccount version _)) .done
    | rejected complaints =>
      have hr : Alike S (a.update (·.reject complaints)) (b.update (·.reject complaints)) :=
        h.update _
      simp only [Setup.settle]
      rw [hr.session, hr.calm.cancelled, hr.otherCalm.cancelled]
      split
      · exact hr.stop (fun session => .exhausted session.submittedAccount) .exhausted
      · exact .continue _ (hr.enter .patching)
    | rateLimited retryAfter => exact h.backOff ..
    | unauthorized =>
      exact h.stop (fun session => .needsCredential { job := setup.job, session }) .needsCredential

/-- What follows the reply to a patch request depends on the session only. -/
theorem settlePatch (h : Alike S a b) (setup : Setup σ) (answer : Except PatchError Patch) :
    Next.Alike S (setup.settlePatch a answer) (setup.settlePatch b answer) := by
  cases answer with
  | ok patch => exact .continue _ (h.applyPatch setup patch)
  | error error =>
    have hdelay : setup.patchDelay b error = setup.patchDelay a error := by
      cases error <;> simp only [Setup.patchDelay, Setup.nextBackoff, h.session]
    have hw := h.spendIteration error
    simp only [Setup.settlePatch]
    rw [hdelay, hw.session, h.calm.cancelled, h.otherCalm.cancelled]
    split
    · exact h.stop (fun session => .failed session.submittedAccount _) .failed
    · split
      · exact h.backOff ..
      · split
        · exact hw.stop (fun session => .exhausted session.submittedAccount) .exhausted
        · exact .continue _ hw

end Alike

/-! ### Calls answered from a tape -/

namespace Setup

/-- The credential is for the services only. -/
theorem settle_credential (setup : Setup σ) (credential : Credential) (run : Run σ)
    (answer : Except CompilerError Verdict) :
    { setup with credential }.settle run answer = setup.settle run answer := by
  cases answer with
  | error error => rfl
  | ok verdict => cases verdict <;> rfl

theorem settlePatch_credential (setup : Setup σ) (credential : Credential) (run : Run σ)
    (answer : Except PatchError Patch) :
    { setup with credential }.settlePatch run answer = setup.settlePatch run answer := by
  cases answer <;> rfl

section Tape

variable {setup : Setup Tape} (hs : setup.services = Tape.services) (run : Run Tape)
include hs

theorem verdict_of_tape : setup.verdict run =
    (run.clock.await setup.limits.remoteTimeout (.error (.timeout setup.limits.remoteTimeout))
      run.services.verdict).1 := by
  rw [verdict, submit, hs, Tape.submit_eq]
  rfl

theorem services_submitted : (setup.submitted run).services = run.services.afterVerdict := by
  rw [submitted, submit, hs, Tape.submit_eq]
  rfl

theorem clock_submitted : (setup.submitted run).clock =
    (run.clock.await setup.limits.remoteTimeout
      (.error (.timeout setup.limits.remoteTimeout) : Except CompilerError Verdict)
      run.services.verdict).2 := by
  rw [submitted, submit, hs, Tape.submit_eq]
  rfl

theorem patchReply_of_tape : setup.patchReply run =
    (run.clock.await setup.limits.remoteTimeout (.error (.timeout setup.limits.remoteTimeout))
      run.services.patch).1 := by
  rw [patchReply, requestPatch, hs, Tape.requestPatch_eq]

theorem services_requested : (setup.requested run).services = run.services.afterPatch := by
  rw [requested, requestPatch, hs, Tape.requestPatch_eq]
  rfl

theorem clock_requested : (setup.requested run).clock =
    (run.clock.await setup.limits.remoteTimeout
      (.error (.timeout setup.limits.remoteTimeout) : Except PatchError Patch)
      run.services.patch).2 := by
  rw [requested, requestPatch, hs, Tape.requestPatch_eq]
  rfl

end Tape

end Setup

namespace Alike

variable {S after : Tape → Tape → Prop} {a b : Run Tape} {setup : Setup Tape}

theorem submitStep (h : Alike S a b) (hs : setup.services = Tape.services)
    (hears : Tape.Hears S after .submitting) (credential : Credential) :
    Next.Alike after ({ setup with credential }.submitStep a) (setup.submitStep b) := by
  obtain ⟨hreply, hcancels, hafter⟩ := hears _ _ h.services
  have hs' : { setup with credential }.services = Tape.services := hs
  have hsubmitted : Alike after ({ setup with credential }.submitted a) (setup.submitted b) := by
    refine ⟨?_, ?_, ?_, ?_⟩
    · rw [Setup.session_submitted, Setup.session_submitted, h.session]
    · rw [Setup.clock_submitted hs']
      exact h.calm.await _ _ hcancels
    · rw [Setup.clock_submitted hs]
      exact h.otherCalm.await _ _ (hreply ▸ hcancels)
    · rw [Setup.services_submitted hs', Setup.services_submitted hs]
      exact hafter
  have hverdict : { setup with credential }.verdict a = setup.verdict b := by
    rw [Setup.verdict_of_tape hs', Setup.verdict_of_tape hs, hreply]
    exact Clock.await_fst ..
  rw [Setup.submitStep_eq _ h.calm.cancelled, Setup.submitStep_eq _ h.otherCalm.cancelled, hverdict,
    Setup.settle_credential]
  exact hsubmitted.settle setup _

theorem patchStep (h : Alike S a b) (hs : setup.services = Tape.services)
    (hears : Tape.Hears S after .patching) (credential : Credential) :
    Next.Alike after ({ setup with credential }.patchStep a) (setup.patchStep b) := by
  obtain ⟨hreply, hcancels, hafter⟩ := hears _ _ h.services
  have hs' : { setup with credential }.services = Tape.services := hs
  have hrequested : Alike after ({ setup with credential }.requested a) (setup.requested b) := by
    refine ⟨h.session, ?_, ?_, ?_⟩
    · rw [Setup.clock_requested hs']
      exact h.calm.await _ _ hcancels
    · rw [Setup.clock_requested hs]
      exact h.otherCalm.await _ _ (hreply ▸ hcancels)
    · rw [Setup.services_requested hs', Setup.services_requested hs]
      exact hafter
  have hpatch : { setup with credential }.patchReply a = setup.patchReply b := by
    rw [Setup.patchReply_of_tape hs', Setup.patchReply_of_tape hs, hreply]
    exact Clock.await_fst ..
  rw [Setup.patchStep_eq, Setup.patchStep_eq, hpatch, Setup.settlePatch_credential]
  exact hrequested.settlePatch setup _

theorem step (h : Alike S a b) (hs : setup.services = Tape.services) {stage : Stage}
    (hears : Tape.Hears S after stage) (credential : Credential) :
    Next.Alike after ({ setup with credential }.step stage a) (setup.step stage b) := by
  cases stage with
  | submitting => exact h.submitStep hs hears credential
  | patching => exact h.patchStep hs hears credential

/-- Two runs that have the same before them come to the same end. -/
theorem drive (h : Alike Tape.Same a b) (stage : Stage) (hs : setup.services = Tape.services)
    (credential : Credential) :
    ({ setup with credential }.drive stage a).1 = (setup.drive stage b).1 ∧
      ({ setup with credential }.drive stage a).2.services = (setup.drive stage b).2.services := by
  induction stage, a using Setup.drive.induct { setup with credential } generalizing b with
  | case1 stage a outcome after ha =>
    have hnext := h.step hs (Tape.hears_same stage) credential
    rw [ha] at hnext
    generalize hb : setup.step stage b = next at hnext
    cases hnext with
    | stop _ hafter =>
      rw [Setup.drive_of_stop ha, Setup.drive_of_stop hb]
      exact ⟨rfl, hafter.services.1.symm⟩
  | case2 stage a next after ha ih =>
    have hnext := h.step hs (Tape.hears_same stage) credential
    rw [ha] at hnext
    generalize hb : setup.step stage b = other at hnext
    cases hnext with
    | «continue» _ hafter =>
      rw [Setup.drive_of_continue ha, Setup.drive_of_continue hb]
      exact ih hafter

end Alike

/-! ### Up to the refusal -/

/-- The submissions that a stage makes with one call. -/
def Stage.submissions : Stage → Nat
  | submitting => 1
  | patching => 0

/-- A repair goes on to a submission whose credential is refused, with some submissions before
it. -/
inductive Refused (setup : Setup σ) : Stage → Run σ → Nat → Run σ → Prop
  | here {run : Run σ} (hc : run.clock.cancelled = false)
      (h : setup.verdict run = .ok .unauthorized) : Refused setup .submitting run 0 run
  | later {stage next : Stage} {run after last : Run σ} {earlier : Nat}
      (h : setup.step stage run = .continue next after)
      (hr : Refused setup next after earlier last) :
    Refused setup stage run (earlier + stage.submissions) last

namespace Setup

end Setup

namespace Refused

variable {setup : Setup σ} {stage : Stage} {run last : Run σ} {earlier : Nat}

theorem retrying (h : Refused setup stage run earlier last) {begun : Session}
    (hr : Retrying setup begun stage run) : Retrying setup begun .submitting last := by
  induction h with
  | here _ _ => exact hr
  | @later stage next run after last earlier h _ ih =>
    refine ih ?_
    cases stage with
    | submitting =>
      have hholds := hr.submitStep
      rw [show setup.submitStep run = .continue next after from h] at hholds
      exact hholds
    | patching =>
      have hholds := hr.patchStep
      rw [show setup.patchStep run = .continue next after from h] at hholds
      exact hholds

end Refused

namespace Setup

end Setup

/-- All submissions came with one credential. -/
def Run.Uses (run : Run σ) (credential : Credential) : Prop :=
  ∀ time sent used answer, .submission time sent used answer ∈ run.calls → used = credential

namespace Run.Uses

variable {setup : Setup σ} {run after : Run σ}

theorem congr {credential : Credential} (h : run.Uses credential) (hc : after.calls = run.calls) :
    after.Uses credential := by
  intro time sent used answer hmem
  rw [hc] at hmem
  exact h time sent used answer hmem

theorem called (h : run.Uses setup.credential) (stage : Stage) :
    (setup.called run stage).Uses setup.credential := by
  intro time sent used answer hmem
  cases stage with
  | submitting =>
    rw [Setup.called, Setup.calls_submitted, List.mem_append, List.mem_singleton] at hmem
    rcases hmem with hmem | hmem
    · exact h time sent used answer hmem
    · exact (Entry.submission.inj hmem).2.2.1
  | patching =>
    rw [Setup.called, Setup.calls_requested, List.mem_append, List.mem_singleton] at hmem
    rcases hmem with hmem | hmem
    · exact h time sent used answer hmem
    · cases hmem

theorem step (h : run.Uses setup.credential) (stage : Stage) :
    (setup.step stage run).Holds (fun _ after => after.Uses setup.credential)
      fun _ after => after.Uses setup.credential := by
  have hholds := setup.holds_calls stage run
  cases hs : setup.step stage run with
  | stop outcome after =>
    rw [hs] at hholds
    rcases hholds with ⟨-, -, hcalls⟩ | hcalls
    · exact h.congr hcalls.calls
    · exact (h.called stage).congr hcalls.calls
  | «continue» next after =>
    rw [hs] at hholds
    exact (h.called stage).congr hholds.calls

end Run.Uses

/-- What a sitting submits, it submits with the credential of its setup. -/
theorem Sitting.uses {setup : Setup σ} {opening : Opening} {outcome : Outcome} {run : Run σ}
    (h : Sitting setup opening outcome run) : run.Uses setup.credential := by
  have unused : ∀ {run : Run σ}, run.calls = [] → run.Uses setup.credential := by
    intro run hnil time sent used answer hmem
    rw [hnil] at hmem
    exact absurd hmem List.not_mem_nil
  have ready : ∀ services clock, (setup.ready opening
      (setup.opened opening services clock)).Uses setup.credential :=
    fun services clock => unused (setup.addsNews_ready opening services clock).calls_eq
  have cancelledEarly : ∀ services clock run, opening = .start →
      setup.Early services clock run → run.cancel.2.Uses setup.credential :=
    fun _ _ _ _ hearly => unused ((Run.calls_enter ..).trans hearly.calls_eq_nil)
  have step : ∀ (stage : Stage) (run : Run σ), run.Uses setup.credential →
      ((setup.forOpening opening).step stage run).Holds
        (fun _ after => after.Uses setup.credential)
        fun _ after => after.Uses setup.credential :=
    fun stage run hr => (show run.Uses (setup.forOpening opening).credential from hr).step stage
  exact Sitting.induction ready cancelledEarly step h

namespace Setup

end Setup

theorem Alike.ready {S : σ → σ → Prop} (setup : Setup σ) (opening : Opening) {services other : σ}
    (hS : S services other) {clock : Clock} (hc : clock.Calm) :
    Alike S (setup.ready opening (setup.opened opening services clock))
      (setup.ready opening (setup.opened opening other clock)) := by
  have hopened : Alike S (setup.opened opening services clock)
      (setup.opened opening other clock) := ⟨rfl, hc, hc, hS⟩
  cases opening with
  | start =>
    have hclean : Alike S (setup.opened .start services clock).clean
        (setup.opened .start other clock).clean :=
      ((hopened.enter .sanitizing).update _).addFixes _
    exact (hclean.enter .structuralFix).restructure _ _ _
  | resume suspension => exact hopened

namespace Setup

variable {setup : Setup Tape}

end Setup

end DialogTable.Repair
