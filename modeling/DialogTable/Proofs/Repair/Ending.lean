import DialogTable.Proofs.Repair.Steps

/-!
# The ends of a repair

A repair is run, and each time it is suspended it may be resumed. Between a suspension and its
resumption time passes and the services go on, and the setup may be another one. `Ending` collects
the ends that come about in this way, together with the run whose log tells the whole story.

A run looks at the cancellation whenever it has waited for someone. Before the first submission it
waits for nobody, but someone else may cancel it there too, so `Early` lists the runs between the
parts of the preparation.

The main statement is `Ending.induction`: what holds of the early runs, is preserved by each step
and survives a suspension, holds of all ends. Where it need not hold of the early runs, but only of
the prepared one, `Ending.induction_of_prepared` is at hand.
-/

namespace DialogTable.Repair

variable {σ : Type}

namespace Setup

/-- A repair that has not begun. -/
def initial (setup : Setup σ) (services : σ) (clock : Clock) : Run σ :=
  { services, clock, session := { tableText := setup.job.tableText } }

/-- The runs between the parts of the preparation. -/
inductive Early (setup : Setup σ) (services : σ) (clock : Clock) : Run σ → Prop
  | initial : Early setup services clock (setup.initial services clock)
  | cleaned : Early setup services clock (setup.initial services clock).clean
  | prepared : Early setup services clock (setup.prepare (setup.initial services clock))

theorem prepare_eq (setup : Setup σ) (run : Run σ) :
    setup.prepare run = (run.clean.enter .structuralFix).restructure setup.policy
      setup.limits.maxStructuralPasses none := rfl

theorem start_of_cancelled (setup : Setup σ) (services : σ) {clock : Clock}
    (h : clock.cancelled = true) :
    setup.start services clock = (setup.initial services clock).cancel :=
  if_pos h

theorem start_of_not_cancelled (setup : Setup σ) (services : σ) {clock : Clock}
    (h : clock.cancelled = false) :
    setup.start services clock =
      setup.drive .submitting (setup.prepare (setup.initial services clock)) := by
  have hinitial : (setup.initial services clock).clock.cancelled = false := h
  have hclean : (setup.initial services clock).clean.clock.cancelled = false := by
    rw [Run.clock_clean]
    exact h
  show (if (setup.initial services clock).clock.cancelled then _
    else if (setup.initial services clock).clean.clock.cancelled then _ else _) = _
  rw [hinitial, hclean]
  rfl

end Setup

/-- An end that hands back an account without success, and is no suspension. -/
inductive Outcome.GivesUp (account : Account) : Outcome → Prop
  | exhausted : GivesUp account (.exhausted account)
  | cancelled : GivesUp account (.cancelled account)
  | failed (error : Error) : GivesUp account (.failed account error)

namespace Outcome.GivesUp

variable {account : Account} {outcome : Outcome}

theorem account_eq (h : outcome.GivesUp account) : outcome.account = account := by
  cases h <;> rfl

theorem isDone_eq (h : outcome.GivesUp account) : outcome.isDone = false := by
  cases h <;> rfl

theorem ne_needsCredential (h : outcome.GivesUp account) (suspension : Suspension) :
    outcome ≠ .needsCredential suspension := by
  rintro rfl
  cases h

end Outcome.GivesUp

/-- A suspended run when it is resumed, with the services and the clock as they are then. -/
def Suspension.reopen (suspension : Suspension) (run : Run σ) (services : σ) (clock : Clock) :
    Run σ :=
  { run with
    services, clock, session := { suspension.session with transientFailures := 0 } }

/-- The ends that a repair comes to when it is run and then resumed any number of times, with setups
whose limits and policy are of some kind. -/
inductive Ending (kind : Limits → Validation.Policy → Prop) : Outcome → Run σ → Prop
  | start (setup : Setup σ) (services : σ) (clock : Clock)
      (hk : kind setup.limits setup.policy) :
    Ending kind (setup.start services clock).1 (setup.start services clock).2
  | cancelledEarly (setup : Setup σ) {services : σ} {clock : Clock} {run : Run σ}
      (h : setup.Early services clock run) (hk : kind setup.limits setup.policy) :
    Ending kind run.cancel.1 run.cancel.2
  | resume (setup : Setup σ) (services : σ) (clock : Clock) {suspension : Suspension}
      {run : Run σ} (h : Ending kind (.needsCredential suspension) run)
      (hk : kind setup.limits setup.policy) :
    Ending kind (setup.resume suspension { run with services, clock }).1
      (setup.resume suspension { run with services, clock }).2

/-! ### Before the first submission -/

namespace Setup.Early

variable {setup : Setup σ} {services : σ} {clock : Clock} {run : Run σ}

theorem calls_eq_nil (h : setup.Early services clock run) : run.calls = [] := by
  cases h with
  | initial => rfl
  | cleaned => exact Run.calls_clean _
  | prepared => exact calls_prepare ..

theorem services_eq (h : setup.Early services clock run) : run.services = services := by
  cases h with
  | initial => rfl
  | cleaned => exact Run.services_clean _
  | prepared => exact services_prepare ..

/-- Nothing is known of the compiler yet. -/
theorem session_eq (h : setup.Early services clock run) :
    run.session.lastSubmitted = none ∧ run.session.complaints = [] := by
  obtain ⟨cleanText, cleanFixes, hclean⟩ := (setup.initial services clock).session_clean
  cases h with
  | initial => exact ⟨rfl, rfl⟩
  | cleaned =>
    rw [hclean]
    exact ⟨rfl, rfl⟩
  | prepared =>
    obtain ⟨tableText, fixesApplied, remainingErrors, hs⟩ :=
      Run.session_restructure setup.policy setup.limits.maxStructuralPasses none
        ((setup.initial services clock).clean.enter .structuralFix)
    rw [prepare_eq, hs, Run.session_enter, hclean]
    exact ⟨rfl, rfl⟩

end Setup.Early

/-! ### Invariants -/

/-- What holds of a prepared run, is preserved by each step and comes through a suspension, holds of
all ends if it does of those that are cancelled before the first submission. -/
theorem Ending.induction_of_prepared {kind : Limits → Validation.Policy → Prop}
    {goesOn : Stage → Run σ → Prop} {ends : Outcome → Run σ → Prop}
    (prepared : ∀ (setup : Setup σ) services clock, kind setup.limits setup.policy →
      goesOn .submitting (setup.prepare (setup.initial services clock)))
    (cancelledEarly : ∀ (setup : Setup σ) services clock run, kind setup.limits setup.policy →
      setup.Early services clock run → ends run.cancel.1 run.cancel.2)
    (step : ∀ (setup : Setup σ) stage run, kind setup.limits setup.policy → goesOn stage run →
      (setup.step stage run).Holds goesOn ends)
    (reopen : ∀ (suspension : Suspension) run services clock,
      ends (.needsCredential suspension) run →
        goesOn .submitting (suspension.reopen run services clock))
    {outcome : Outcome} {run : Run σ} (h : Ending kind outcome run) : ends outcome run := by
  induction h with
  | start setup services clock hk =>
    cases hc : clock.cancelled with
    | true =>
      rw [setup.start_of_cancelled services hc]
      exact cancelledEarly setup services clock _ hk .initial
    | false =>
      rw [setup.start_of_not_cancelled services hc]
      exact Setup.drive_induction (fun stage run => step setup stage run hk)
        (prepared setup services clock hk)
  | cancelledEarly setup hearly hk => exact cancelledEarly setup _ _ _ hk hearly
  | @resume setup services clock suspension run _ hk ih =>
    have hdrive : setup.resume suspension { run with services, clock } =
        { setup with job := suspension.job }.drive .submitting
          (suspension.reopen run services clock) := rfl
    rw [hdrive]
    refine Setup.drive_induction (fun stage run => ?_) (reopen suspension run services clock ih)
    exact step { setup with job := suspension.job } stage run hk

/-- What holds before the first submission, is preserved by each step, holds of every run that is
cancelled in between and comes through a suspension, holds of all ends. -/
theorem Ending.induction {kind : Limits → Validation.Policy → Prop}
    {goesOn : Stage → Run σ → Prop} {ends : Outcome → Run σ → Prop}
    (early : ∀ (setup : Setup σ) services clock run, kind setup.limits setup.policy →
      setup.Early services clock run → goesOn .submitting run)
    (cancel : ∀ run, goesOn .submitting run → ends run.cancel.1 run.cancel.2)
    (step : ∀ (setup : Setup σ) stage run, kind setup.limits setup.policy → goesOn stage run →
      (setup.step stage run).Holds goesOn ends)
    (reopen : ∀ (suspension : Suspension) run services clock,
      ends (.needsCredential suspension) run →
        goesOn .submitting (suspension.reopen run services clock))
    {outcome : Outcome} {run : Run σ} (h : Ending kind outcome run) : ends outcome run :=
  h.induction_of_prepared (fun setup services clock hk => early setup services clock _ hk .prepared)
    (fun setup services clock run hk he => cancel run (early setup services clock run hk he))
    step reopen

/-! ### Repairs with few calls -/

namespace Setup

/-- The end of a repair that makes no more than some calls from here on. -/
def driveWithin (setup : Setup σ) : Nat → Stage → Run σ → Option (Outcome × Run σ)
  | 0, _, _ => none
  | calls + 1, stage, run =>
    match setup.step stage run with
    | .stop outcome after => some (outcome, after)
    | .continue next after => setup.driveWithin calls next after

/-- The end of a repair that makes no more than some calls from the start on. -/
def startWithin (setup : Setup σ) (calls : Nat) (services : σ) (clock : Clock) :
    Option (Outcome × Run σ) :=
  if clock.cancelled then some (setup.initial services clock).cancel
  else setup.driveWithin calls .submitting (setup.prepare (setup.initial services clock))

theorem drive_of_driveWithin {setup : Setup σ} {calls : Nat} {stage : Stage} {run : Run σ}
    {ending : Outcome × Run σ} (h : setup.driveWithin calls stage run = some ending) :
    setup.drive stage run = ending := by
  induction calls generalizing stage run with
  | zero => cases h
  | succ calls ih =>
    rw [driveWithin] at h
    split at h
    · next hs => rw [drive_of_stop hs, Option.some.inj h]
    · next hs => rw [drive_of_continue hs, ih h]

/-- A property of a repair may be computed. -/
theorem start_of_startWithin {setup : Setup σ} {services : σ} {clock : Clock}
    {p : Outcome × Run σ → Prop} (calls : Nat)
    (h : ∃ ending ∈ setup.startWithin calls services clock, p ending) :
    p (setup.start services clock) := by
  obtain ⟨ending, hending, hp⟩ := h
  have hstart : setup.start services clock = ending := by
    rw [startWithin] at hending
    split at hending
    · next hc => rw [start_of_cancelled setup services hc, Option.some.inj hending]
    · next hc =>
      rw [start_of_not_cancelled setup services (Bool.eq_false_iff.mpr hc)]
      exact drive_of_driveWithin hending
  rw [hstart]
  exact hp

end Setup

/-- Answers that two services will give, in their order. -/
structure Tape where
  verdicts : List (Reply (Except CompilerError Verdict)) := []
  patches : List (Reply (Except PatchError Patch)) := []

/-- Services that answer from a tape, and refuse every credential when it is used up. -/
def Tape.services : Services Tape where
  submit tape _ _ :=
    match tape.verdicts with
    | [] => ({ answer := .ok .unauthorized }, tape)
    | reply :: later => (reply, { tape with verdicts := later })
  requestPatch tape _ :=
    match tape.patches with
    | [] => ({ answer := .error (.unauthorized "no patch is left") }, tape)
    | reply :: later => (reply, { tape with patches := later })

/-- A repair of a table with services that answer from a tape. -/
def Tape.setup (tableText : String) : Setup Tape where
  services := Tape.services
  job := { botId := "bot", tableText }
  credential := { token := "token" }

end DialogTable.Repair
