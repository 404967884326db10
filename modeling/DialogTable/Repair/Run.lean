import DialogTable.Repair.Clock
import DialogTable.Repair.Limits
import DialogTable.Repair.Session
import DialogTable.Text.Clean
import DialogTable.Validation

/-!
# Running a repair

A repair cleans the table, applies structural fixes and submits it. A rejected table is patched and
submitted again, until the compiler accepts it or a budget is spent. Transient failures of either
service are waited out. A refused credential suspends the repair, and another one resumes it.

The compiler and the patch service are functions over a state of their own. Everything that happens
goes into a log: events, submissions and patch requests with the answers to them. `step` makes one
call and decides how to go on; `drive` repeats it, and ends because each step spends something of a
budget.
-/

namespace DialogTable.Repair

/-- The two services that a repair calls. -/
structure Services (σ : Type) where
  submit : σ → Submission → Credential → Reply (Except CompilerError Verdict) × σ
  requestPatch : σ → PatchRequest → Reply (Except PatchError Patch) × σ

/-- What a repair is run with. -/
structure Setup (σ : Type) where
  services : Services σ
  limits : Limits := {}
  policy : Validation.Policy := {}
  job : Job
  credential : Credential

/-- Something that happened. Calls stand with the time they were made at and the answer to them. -/
inductive Entry
  | event (event : Event)
  | submission (time : Duration) (submission : Submission) (credential : Credential)
      (answer : Except CompilerError Verdict)
  | patchRequest (time : Duration) (request : PatchRequest) (answer : Except PatchError Patch)

/-- A repair under way. -/
structure Run (σ : Type) where
  /-- The state of the services. -/
  services : σ
  clock : Clock := {}
  session : Session
  /-- In the order of time. -/
  log : List Entry := []

namespace Run

variable {σ : Type}

/-- Adds to the log. -/
def note (run : Run σ) (entry : Entry) : Run σ :=
  { run with log := run.log ++ [entry] }

/-- Begins a phase. -/
def enter (run : Run σ) (phase : Phase) : Run σ :=
  run.note (.event (.entered run.session.iteration phase run.session.remainingErrors))

/-- Adds to the log of fixes. -/
def addFixes (run : Run σ) (fixes : List String) : Run σ :=
  if fixes = [] then run
  else
    { run.note (.event (.fixesApplied run.session.iteration fixes)) with
      session := { run.session with fixesApplied := run.session.fixesApplied ++ fixes } }

/-- Changes the session. -/
def update (run : Run σ) (change : Session → Session) : Run σ :=
  { run with session := change run.session }

/-- Installs a text as the current table, clean, and returns what was cleaned. -/
def install (run : Run σ) (tableText : String) : Run σ × List String :=
  let cleaned := Text.clean tableText.toList
  (run.update fun session => { session with tableText := .ofList cleaned.text },
    cleaned.describe.toList)

/-- Cleans the current table. -/
def clean (run : Run σ) : Run σ :=
  let run := run.enter .sanitizing
  let (run, cleaning) := run.install run.session.tableText
  run.addFixes cleaning

/-- Whether a validation leaves nothing more to fix: no fix is left, none changed anything, or the
number of issues is no lower than in the pass before. -/
def isSettled (previous : Option Nat) (report : Validation.Report) : Bool :=
  report.fixableCount = 0 || report.appliedFixes.isEmpty || previous.any (· ≤ report.issues.length)

/-- Notes the issues that are left, unless the compiler has spoken. -/
def noteIssues (report : Validation.Report) (run : Run σ) : Run σ :=
  if run.session.complaints = [] then
    run.update fun session =>
      { session with remainingErrors := report.issues.map Validation.Issue.text }
  else run

/-- Installs the fixed table of a validation. -/
def installFixed (report : Validation.Report) (run : Run σ) : Run σ :=
  (run.update fun session =>
    { session with
      tableText := report.fixedText.getD session.tableText }).addFixes report.appliedFixes

/-- Applies structural fixes until nothing more is to be fixed or the passes are spent. `previous`
is the number of issues of the pass before. -/
def restructure (policy : Validation.Policy) : Nat → Option Nat → Run σ → Run σ
  | 0, _, run => run
  | passes + 1, previous, run =>
    let report := Validation.validate policy true run.session.tableText
    if isSettled previous report then run.noteIssues report
    else restructure policy passes (some report.issues.length) (run.installFixed report)

/-- Ends with the patches spent. -/
def exhaust (run : Run σ) : Outcome × Run σ :=
  (.exhausted run.session.submittedAccount, run.enter .exhausted)

/-- Ends cancelled. -/
def cancel (run : Run σ) : Outcome × Run σ :=
  (.cancelled run.session.submittedAccount, run.enter .cancelled)

/-- Ends with an error. -/
def fail (run : Run σ) (error : Error) : Outcome × Run σ :=
  (.failed run.session.submittedAccount error, run.enter .failed)

end Run

/-- The call that a repair makes next. -/
inductive Stage
  | submitting
  | patching
  deriving DecidableEq, Repr

/-- What follows a call. -/
inductive Next (σ : Type)
  | continue (stage : Stage) (run : Run σ)
  | stop (outcome : Outcome) (run : Run σ)

namespace Next

variable {σ : Type}

/-- Stops with an end. -/
def ofEnd (ending : Outcome × Run σ) : Next σ :=
  stop ending.1 ending.2

end Next

namespace Setup

variable {σ : Type}

/-- Waits after a transient failure and repeats the call, unless too many failed in a row. -/
def backOff (setup : Setup σ) (stage : Stage) (delay : Duration) (reason : String) (run : Run σ) :
    Next σ :=
  let attempt := run.session.transientFailures + 1
  let run := run.update fun session => { session with transientFailures := attempt }
  if setup.limits.maxTransientRetries < attempt then
    .ofEnd (run.fail (.retryBudgetExhausted attempt reason))
  else
    let run := run.note (.event (.waiting run.session.iteration attempt delay reason))
    let (clock, interrupted) := run.clock.wait delay
    let run := { run with clock }
    if interrupted then .ofEnd run.cancel else .continue stage run

/-- The wait after one more failure that names no time. -/
def nextBackoff (setup : Setup σ) (run : Run σ) : Duration :=
  setup.limits.backoff (run.session.transientFailures + 1)

/-- The submission of the current table. -/
def submission (setup : Setup σ) (run : Run σ) : Submission :=
  { botId := setup.job.botId, tableText := run.session.tableText, scripts := setup.job.scripts
    target := setup.job.target }

/-- Submits the current table. -/
def submit (setup : Setup σ) (run : Run σ) : Except CompilerError Verdict × Run σ :=
  let submission := setup.submission run
  let (reply, services) := setup.services.submit run.services submission setup.credential
  let limit := setup.limits.remoteTimeout
  let (answer, clock) := run.clock.await limit (.error (.timeout limit)) reply
  let session := { run.session with lastSubmitted := some submission.tableText }
  (answer, { run with services, clock, session }.note
    (.submission run.clock.now submission setup.credential answer))

/-- Submits the current table and acts on the verdict. -/
def submitStep (setup : Setup σ) (run : Run σ) : Next σ :=
  if run.clock.cancelled then .ofEnd run.cancel
  else
    let (answer, run) := setup.submit (run.enter .remoteValidating)
    match answer with
    | .ok (.accepted version) =>
      let scripts := setup.job.scripts.map ScriptSource.name
      .stop (.done (run.session.acceptedAccount version scripts)) (run.enter .done)
    | .ok (.rejected complaints) =>
      let run := run.update (·.reject complaints)
      if setup.limits.maxIterations ≤ run.session.iteration then .ofEnd run.exhaust
      else if run.clock.cancelled then .ofEnd run.cancel
      else .continue .patching (run.enter .patching)
    | .ok (.rateLimited retryAfter) =>
      setup.backOff .submitting (setup.limits.rateLimitDelay retryAfter) "rate limited" run
    | .ok .unauthorized =>
      .stop (.needsCredential { job := setup.job, session := run.session })
        (run.enter .needsCredential)
    | .error error => setup.backOff .submitting (setup.nextBackoff run) error.message run

/-- The request to patch the current table. -/
def patchRequest (setup : Setup σ) (run : Run σ) : PatchRequest :=
  { tableText := run.session.tableText, complaints := run.session.complaints
    context := setup.job.context }

/-- Requests a patch. -/
def requestPatch (setup : Setup σ) (run : Run σ) : Except PatchError Patch × Run σ :=
  let request := setup.patchRequest run
  let (reply, services) := setup.services.requestPatch run.services request
  let limit := setup.limits.remoteTimeout
  let (answer, clock) := run.clock.await limit (.error (.timeout limit)) reply
  (answer, { run with services, clock }.note (.patchRequest run.clock.now request answer))

/-- Installs a patch: the table is cleaned and, if the limits say so, structurally fixed. A patch
that names no fix is noted all the same. -/
def applyPatch (setup : Setup σ) (patch : Patch) (run : Run σ) : Run σ :=
  let (run, cleaning) := run.install patch.tableText
  let named :=
    if patch.fixes = [] then [s!"Patch addressed {run.session.complaints.length} compiler errors"]
    else patch.fixes
  let run := run.addFixes (named ++ cleaning)
  let run :=
    if setup.limits.restructureAfterPatch then
      run.restructure setup.policy setup.limits.maxStructuralPasses none
    else run
  run.update fun session =>
    { session with iteration := session.iteration + 1, transientFailures := 0 }

/-- The wait after a transient failure of the patch service. -/
def patchDelay (setup : Setup σ) (run : Run σ) : PatchError → Duration
  | .rateLimited retryAfter => setup.limits.rateLimitDelay retryAfter
  | _ => setup.nextBackoff run

/-- Notes a reply without a patch. It spends an iteration. -/
def spendIteration (error : PatchError) (run : Run σ) : Run σ :=
  (run.addFixes [s!"Patch attempt failed: {error.message}"]).update fun session =>
    { session with iteration := session.iteration + 1, transientFailures := 0 }

/-- Requests a patch and acts on the reply. -/
def patchStep (setup : Setup σ) (run : Run σ) : Next σ :=
  let (answer, run) := setup.requestPatch run
  match answer with
  | .ok patch => .continue .submitting (setup.applyPatch patch run)
  | .error error =>
    if let .unauthorized _ := error then .ofEnd (run.fail (.patch error))
    else if error.isTransient then
      setup.backOff .patching (setup.patchDelay run error) error.message run
    else
      let run := spendIteration error run
      if setup.limits.maxIterations ≤ run.session.iteration then .ofEnd run.exhaust
      else if run.clock.cancelled then .ofEnd run.cancel
      else .continue .patching run

/-- Makes one call. -/
def step (setup : Setup σ) : Stage → Run σ → Next σ
  | .submitting, run => setup.submitStep run
  | .patching, run => setup.patchStep run

/-! ### Budgets -/

/-- What is left of the patches, a submission counting half. -/
def callsLeft (setup : Setup σ) (stage : Stage) (run : Run σ) : Nat :=
  let left := setup.limits.maxIterations - run.session.iteration
  match stage with
  | .submitting => 2 * left
  | .patching => max 1 (2 * left - 1)

/-- What is left of the failures in a row. -/
def retriesLeft (setup : Setup σ) (run : Run σ) : Nat :=
  setup.limits.maxTransientRetries - run.session.transientFailures

theorem backOff_eq_continue {setup : Setup σ} {stage next : Stage} {delay : Duration}
    {reason : String} {run after : Run σ}
    (h : setup.backOff stage delay reason run = .continue next after) :
    next = stage ∧ after.session =
        { run.session with transientFailures := run.session.transientFailures + 1 } ∧
      run.session.transientFailures < setup.limits.maxTransientRetries := by
  simp only [backOff] at h
  split at h
  · exact nomatch h
  · next hle =>
    split at h
    · exact nomatch h
    · injection h with hs hr
      subst hs hr
      exact ⟨rfl, rfl, by omega⟩

theorem session_submit (setup : Setup σ) (run : Run σ) :
    (setup.submit run).2.session =
      { run.session with lastSubmitted := some run.session.tableText } := rfl

theorem session_requestPatch (setup : Setup σ) (run : Run σ) :
    (setup.requestPatch run).2.session = run.session := rfl

theorem iteration_addFixes (run : Run σ) (fixes : List String) :
    (run.addFixes fixes).session.iteration = run.session.iteration := by
  unfold Run.addFixes
  split <;> rfl

theorem iteration_noteIssues (run : Run σ) (report : Validation.Report) :
    (run.noteIssues report).session.iteration = run.session.iteration := by
  unfold Run.noteIssues
  split <;> rfl

theorem iteration_installFixed (run : Run σ) (report : Validation.Report) :
    (run.installFixed report).session.iteration = run.session.iteration := by
  rw [Run.installFixed, iteration_addFixes]
  rfl

theorem iteration_restructure (policy : Validation.Policy) (passes : Nat) (previous : Option Nat)
    (run : Run σ) :
    (run.restructure policy passes previous).session.iteration = run.session.iteration := by
  induction passes generalizing previous run with
  | zero => rfl
  | succ passes ih =>
    unfold Run.restructure
    generalize Validation.validate policy true run.session.tableText = report
    dsimp only
    split
    · exact iteration_noteIssues run report
    · rw [ih, iteration_installFixed]

theorem iteration_applyPatch (setup : Setup σ) (patch : Patch) (run : Run σ) :
    (setup.applyPatch patch run).session.iteration = run.session.iteration + 1 := by
  simp only [applyPatch, Run.update]
  split
  · rw [iteration_restructure, iteration_addFixes]
    rfl
  · rw [iteration_addFixes]
    rfl

theorem iteration_spendIteration (error : PatchError) (run : Run σ) :
    (spendIteration error run).session.iteration = run.session.iteration + 1 := by
  simp only [spendIteration, Run.update]
  rw [iteration_addFixes]

/-- A repeated call spends a retry and no patch. -/
theorem lex_of_backOff {setup : Setup σ} {stage next : Stage} {delay : Duration} {reason : String}
    {run after : Run σ} (h : setup.backOff stage delay reason run = .continue next after) :
    Prod.Lex (· < ·) (· < ·) (setup.callsLeft next after, setup.retriesLeft after)
      (setup.callsLeft stage run, setup.retriesLeft run) := by
  obtain ⟨rfl, hs, hlt⟩ := backOff_eq_continue h
  have hc : setup.callsLeft next after = setup.callsLeft next run := by
    simp only [callsLeft, hs]
  rw [hc]
  apply Prod.Lex.right
  simp only [retriesLeft, hs]
  omega

/-- A submission that is repeated spends a retry; one that leads on to a patch spends half of
one. -/
theorem lex_of_submitStep {setup : Setup σ} {next : Stage} {run after : Run σ}
    (h : setup.submitStep run = .continue next after) :
    Prod.Lex (· < ·) (· < ·) (setup.callsLeft next after, setup.retriesLeft after)
      (setup.callsLeft .submitting run, setup.retriesLeft run) := by
  unfold submitStep at h
  split at h
  · exact nomatch h
  · have hs := session_submit setup (run.enter .remoteValidating)
    revert h
    generalize setup.submit (run.enter .remoteValidating) = result at hs ⊢
    obtain ⟨answer, submitted⟩ := result
    intro h
    dsimp only at h hs
    have hc : setup.callsLeft .submitting submitted = setup.callsLeft .submitting run := by
      simp only [callsLeft, hs]
      rfl
    have hr : setup.retriesLeft submitted = setup.retriesLeft run := by
      simp only [retriesLeft, hs]
      rfl
    split at h
    · exact nomatch h
    · next complaints =>
      split at h
      · exact nomatch h
      · next hlt =>
        split at h
        · exact nomatch h
        · injection h with hn ha
          subst hn ha
          apply Prod.Lex.left
          rw [← hc]
          have hi : ((submitted.update (·.reject complaints)).enter .patching).session.iteration =
              submitted.session.iteration := rfl
          have hlt' : submitted.session.iteration < setup.limits.maxIterations :=
            Nat.lt_of_not_le hlt
          simp only [callsLeft, hi]
          omega
    · rw [← hc, ← hr]
      exact lex_of_backOff h
    · exact nomatch h
    · rw [← hc, ← hr]
      exact lex_of_backOff h

/-- A request that is repeated spends a retry; any other reply that goes on spends a patch. -/
theorem lex_of_patchStep {setup : Setup σ} {next : Stage} {run after : Run σ}
    (h : setup.patchStep run = .continue next after) :
    Prod.Lex (· < ·) (· < ·) (setup.callsLeft next after, setup.retriesLeft after)
      (setup.callsLeft .patching run, setup.retriesLeft run) := by
  unfold patchStep at h
  have hs := session_requestPatch setup run
  revert h
  generalize setup.requestPatch run = result at hs ⊢
  obtain ⟨answer, requested⟩ := result
  intro h
  dsimp only at h hs
  have hc : setup.callsLeft .patching requested = setup.callsLeft .patching run := by
    simp only [callsLeft, hs]
  have hr : setup.retriesLeft requested = setup.retriesLeft run := by
    simp only [retriesLeft, hs]
  split at h
  · next patch =>
    injection h with hn ha
    subst hn ha
    apply Prod.Lex.left
    rw [← hc]
    simp only [callsLeft, iteration_applyPatch]
    omega
  · next error =>
    split at h
    · exact nomatch h
    · split at h
      · rw [← hc, ← hr]
        exact lex_of_backOff h
      · split at h
        · exact nomatch h
        · next hlt =>
          split at h
          · exact nomatch h
          · injection h with hn ha
            subst hn ha
            apply Prod.Lex.left
            rw [← hc]
            simp only [callsLeft, iteration_spendIteration] at hlt ⊢
            omega

/-- Each step that goes on spends something of a budget. -/
theorem lex_of_step {setup : Setup σ} {stage next : Stage} {run after : Run σ}
    (h : setup.step stage run = .continue next after) :
    Prod.Lex (· < ·) (· < ·) (setup.callsLeft next after, setup.retriesLeft after)
      (setup.callsLeft stage run, setup.retriesLeft run) := by
  cases stage with
  | submitting => exact lex_of_submitStep h
  | patching => exact lex_of_patchStep h

/-! ### Whole runs -/

/-- Makes calls until the repair ends. -/
def drive (setup : Setup σ) (stage : Stage) (run : Run σ) : Outcome × Run σ :=
  match _h : setup.step stage run with
  | .stop outcome after => (outcome, after)
  | .continue next after => drive setup next after
termination_by (setup.callsLeft stage run, setup.retriesLeft run)
decreasing_by exact lex_of_step ‹_›

/-- The structural fixes before the first submission. -/
def fixStructure (setup : Setup σ) (run : Run σ) : Run σ :=
  (run.enter .structuralFix).restructure setup.policy setup.limits.maxStructuralPasses none

/-- The part of a repair before the first submission, if nobody cancels. -/
def prepare (setup : Setup σ) (run : Run σ) : Run σ :=
  setup.fixStructure run.clean

/-- Runs a repair from the start. It may be cancelled before the table is cleaned and before it is
structurally fixed. -/
def start (setup : Setup σ) (services : σ) (clock : Clock) : Outcome × Run σ :=
  let run : Run σ := { services, clock, session := { tableText := setup.job.tableText } }
  if run.clock.cancelled then run.cancel
  else
    let run := run.clean
    if run.clock.cancelled then run.cancel
    else setup.drive .submitting (setup.fixStructure run)

/-- Resumes a suspended repair with the credential of the setup. The count of failures starts again;
patches stay spent. -/
def resume (setup : Setup σ) (suspension : Suspension) (run : Run σ) : Outcome × Run σ :=
  { setup with job := suspension.job }.drive .submitting
    { run with session := { suspension.session with transientFailures := 0 } }

/-- Resumes with one credential after another as long as the repair is suspended. The suspensions
stand before the end. -/
def resumeWith (setup : Setup σ) :
    List Credential → Outcome × Run σ → List Suspension × (Outcome × Run σ)
  | [], (.needsCredential suspension, run) => ([suspension], (.needsCredential suspension, run))
  | credential :: later, (.needsCredential suspension, run) =>
    let rest := resumeWith setup later ({ setup with credential }.resume suspension run)
    (suspension :: rest.1, rest.2)
  | _, ending => ([], ending)

end Setup

end DialogTable.Repair
