import Mathlib.Data.List.Chain
import DialogTable.Proofs.Repair.Sitting

/-!
# The events tell the sitting

Whoever listens to the events of a repair learns the phases that it goes through, the patches that
it has spent and the fixes that it notes. The main statement `Sitting.events_tell` says that this
picture is complete: the phases follow one another as they may (`Phase.successors`), the last event
is the only one that ends the sitting and agrees with its outcome, and the fixes of the account are
those that were told.

The invariant is `Narrated`. The last phase told is kept apart from it, because what it has to be
depends on the call that comes next (`Stage.MayFollow`).
-/

namespace DialogTable.Repair

variable {σ : Type}

/-! ### Phases in order -/

namespace Phase

/-- The phases that may come next. -/
def successors : Phase → List Phase
  | sanitizing => [structuralFix, cancelled]
  | structuralFix => [remoteValidating, cancelled]
  | remoteValidating =>
    [remoteValidating, patching, done, exhausted, cancelled, failed, needsCredential]
  | patching => [remoteValidating, exhausted, cancelled, failed]
  | needsCredential | done | exhausted | cancelled | failed => []

/-- Whether a phase ends a sitting, for good or until the repair is resumed. -/
def endsSitting (phase : Phase) : Bool :=
  phase.isTerminal || phase = needsCredential

theorem endsSitting_eq_false {phase next : Phase} (h : next ∈ phase.successors) :
    phase.endsSitting = false := by
  cases phase with
  | needsCredential | done | exhausted | cancelled | failed => exact absurd h List.not_mem_nil
  | _ => rfl

/-- Phases that follow one another as they may. -/
def Legal (phases : List Phase) : Prop :=
  phases.IsChain fun phase next => next ∈ phase.successors

/-- A phase that has a successor ends nothing. -/
theorem Legal.endsSitting_eq_false {earlier : List Phase} {last : Phase}
    (h : Legal (earlier ++ [last])) : ∀ phase ∈ earlier, phase.endsSitting = false := by
  intro phase hphase
  obtain ⟨before, after, rfl⟩ := List.append_of_mem hphase
  rw [Legal, List.append_assoc, List.isChain_append] at h
  obtain ⟨-, hchain, -⟩ := h
  cases after with
  | nil => exact Phase.endsSitting_eq_false (List.isChain_cons_cons.mp hchain).1
  | cons next after => exact Phase.endsSitting_eq_false (List.isChain_cons_cons.mp hchain).1

theorem Legal.concat {earlier : List Phase} {next : Phase} (h : Legal earlier)
    (hnext : ∀ last ∈ earlier.getLast?, next ∈ last.successors) : Legal (earlier ++ [next]) := by
  rw [Legal, List.isChain_append]
  refine ⟨h, List.isChain_singleton next, ?_⟩
  intro last hlast following hfollowing
  rw [List.head?_singleton, Option.mem_some_iff] at hfollowing
  rw [← hfollowing]
  exact hnext last hlast

/-- Nothing comes after a phase without successors. -/
theorem Legal.eq_nil {first : Phase} {rest : List Phase} (h : Legal (first :: rest))
    (hend : first.successors = []) : rest = [] := by
  cases rest with
  | nil => rfl
  | cons next rest =>
    have hnext : next ∈ first.successors := (List.isChain_cons_cons.mp h).1
    rw [hend] at hnext
    exact absurd hnext List.not_mem_nil

end Phase

/-! ### Events in a log -/

namespace Event

/-- The phase that an event tells of. -/
def phase? : Event → Option Phase
  | entered _ phase _ => some phase
  | _ => none

/-- The number of patches that are spent when an event is told. -/
def iteration : Event → Nat
  | entered iteration _ _ | fixesApplied iteration _ | waiting iteration _ _ _ => iteration

/-- The fixes that an event tells of. -/
def fixes : Event → List String
  | fixesApplied _ fixes => fixes
  | _ => []

end Event

/-- The event that an entry tells of. -/
def Entry.event? : Entry → Option Event
  | .event told => some told
  | _ => none

/-- The events in a log, in order. -/
def events (log : List Entry) : List Event :=
  log.filterMap Entry.event?

/-- The phases in a log, in order. -/
def phases (log : List Entry) : List Phase :=
  (events log).filterMap Event.phase?

/-- The fixes that a log tells of, in order. -/
def loggedFixes (log : List Entry) : List String :=
  (events log).flatMap Event.fixes

theorem events_append (a b : List Entry) : events (a ++ b) = events a ++ events b :=
  List.filterMap_append

namespace Run

variable (run : Run σ)

@[simp]
theorem events_note_event (event : Event) :
    events (run.note (.event event)).log = events run.log ++ [event] :=
  events_append ..

@[simp]
theorem events_enter (phase : Phase) :
    events (run.enter phase).log = events run.log ++
      [.entered run.session.iteration phase run.session.remainingErrors] :=
  events_append ..

@[simp]
theorem events_sleep (delay : Duration) (reason : String) :
    events (run.sleep delay reason).log = events run.log ++
      [.waiting run.session.iteration run.session.transientFailures delay reason] :=
  events_append ..

theorem events_addFixes (fixes : List String) :
    events (run.addFixes fixes).log = events run.log ++
      if fixes = [] then [] else [.fixesApplied run.session.iteration fixes] := by
  unfold addFixes
  split
  · rw [List.append_nil]
  · exact events_note_event ..

@[simp]
theorem events_noteIssues (report : Validation.Report) :
    events (run.noteIssues report).log = events run.log := by
  unfold noteIssues
  split <;> rfl

end Run

namespace Setup

variable (setup : Setup σ) (run : Run σ)

/-- A call is no event. -/
@[simp]
theorem events_submitted :
    events (setup.submitted run).log = events (run.enter .remoteValidating).log := by
  rw [log_submitted, events_append]
  exact List.append_nil _

@[simp]
theorem events_requested : events (setup.requested run).log = events run.log := by
  rw [log_requested, events_append]
  exact List.append_nil _

end Setup

/-! ### The last phase in a log -/

/-- The last phase that a log tells of, if it tells of any. -/
def lastPhase (log : List Entry) : Option Phase :=
  (phases log).getLast?

theorem lastPhase_congr {log after : List Entry} (h : events after = events log) :
    lastPhase after = lastPhase log := by
  rw [lastPhase, phases, h, ← phases, ← lastPhase]

theorem lastPhase_tell {log after : List Entry} {event : Event} (hp : event.phase? = none)
    (he : events after = events log ++ [event]) : lastPhase after = lastPhase log := by
  rw [lastPhase, phases, he, List.filterMap_append, List.filterMap_cons_none hp,
    List.filterMap_nil, List.append_nil, ← phases, ← lastPhase]

namespace Run

variable (run : Run σ)

@[simp]
theorem lastPhase_enter (phase : Phase) : lastPhase (run.enter phase).log = some phase := by
  rw [lastPhase, phases, events_enter, List.filterMap_append]
  exact List.getLast?_concat

@[simp]
theorem lastPhase_sleep (delay : Duration) (reason : String) :
    lastPhase (run.sleep delay reason).log = lastPhase run.log :=
  lastPhase_tell rfl (events_sleep ..)

@[simp]
theorem lastPhase_addFixes (fixes : List String) :
    lastPhase (run.addFixes fixes).log = lastPhase run.log := by
  have he := run.events_addFixes fixes
  split at he
  · rw [List.append_nil] at he
    exact lastPhase_congr he
  · exact lastPhase_tell rfl he

@[simp]
theorem lastPhase_update (change : Session → Session) :
    lastPhase (run.update change).log = lastPhase run.log := rfl

@[simp]
theorem lastPhase_restructure (policy : Validation.Policy) (passes : Nat)
    (previous : Option Nat) :
    lastPhase (run.restructure policy passes previous).log = lastPhase run.log := by
  induction passes generalizing previous run with
  | zero => rfl
  | succ passes ih =>
    unfold restructure
    generalize Validation.validate policy true run.session.tableText = report
    dsimp only
    split
    · exact lastPhase_congr (events_noteIssues ..)
    · rw [ih, installFixed, lastPhase_addFixes, lastPhase_update]

end Run

namespace Setup

variable (setup : Setup σ) (run : Run σ)

@[simp]
theorem lastPhase_submitted :
    lastPhase (setup.submitted run).log = some .remoteValidating := by
  rw [lastPhase_congr (events_submitted ..), Run.lastPhase_enter]

@[simp]
theorem lastPhase_requested : lastPhase (setup.requested run).log = lastPhase run.log :=
  lastPhase_congr (events_requested ..)

@[simp]
theorem lastPhase_applyPatch (patch : Patch) :
    lastPhase (setup.applyPatch patch run).log = lastPhase run.log := by
  rw [applyPatch_eq_spend, Run.lastPhase_update, rework]
  split
  · rw [Run.lastPhase_restructure, Run.lastPhase_addFixes]
    rfl
  · rw [Run.lastPhase_addFixes]
    rfl

@[simp]
theorem lastPhase_wasted (error : PatchError) :
    lastPhase (setup.wasted error run).log = lastPhase run.log := by
  rw [wasted, spendIteration_eq_spend, Run.lastPhase_update, Run.lastPhase_addFixes,
    lastPhase_requested]

end Setup

/-! ### What has been told so far -/

namespace Opening

/-- The phase that a sitting begins with. -/
def phase : Opening → Phase
  | start => .sanitizing
  | resume _ => .remoteValidating

/-- Whether a phase may come next in a sitting. The first phase may be a cancellation. -/
def Allows (opening : Opening) : Option Phase → Phase → Prop
  | none, next => next = opening.phase ∨ next = .cancelled
  | some last, next => next ∈ last.successors

end Opening

/-- What holds after each event of a sitting. -/
structure Narrated (opening : Opening) (begun : Session) (run : Run σ) : Prop where
  first : ∀ phase ∈ (phases run.log).head?, phase = opening.phase ∨ phase = .cancelled
  legal : Phase.Legal (phases run.log)
  ordered : ((events run.log).map Event.iteration).Pairwise (· ≤ ·)
  reached : ∀ event ∈ events run.log, event.iteration ≤ run.session.iteration
  fixes : run.session.fixesApplied = begun.fixesApplied ++ loggedFixes run.log

/-- What holds at the end of a sitting: the last event agrees with the outcome. -/
structure Concluded (opening : Opening) (begun : Session) (outcome : Outcome) (run : Run σ) :
    Prop where
  narrated : Narrated opening begun run
  fixes : outcome.account.fixesApplied = run.session.fixesApplied
  last : ∃ earlier errors,
    events run.log = earlier ++ [.entered outcome.account.iterations outcome.phase errors] ∧
      (outcome.isDone = false → errors = outcome.account.remainingErrors)

/-- The phases that may have been told last when a call is made. -/
def Stage.MayFollow (opening : Opening) : Stage → Option Phase → Prop
  | .submitting, last => opening.Allows last .remoteValidating ∧ opening.Allows last .cancelled
  | .patching, last => last = some .patching

/-- What holds between two calls. -/
structure Narrating (opening : Opening) (begun : Session) (stage : Stage) (run : Run σ) :
    Prop where
  narrated : Narrated opening begun run
  last : stage.MayFollow opening (lastPhase run.log)

namespace Narrated

variable {opening : Opening} {begun : Session} {run after : Run σ}

/-- Only the events, the counter of patches and the fixes matter. -/
theorem congr (h : Narrated opening begun run) (he : events after.log = events run.log)
    (hi : run.session.iteration ≤ after.session.iteration)
    (hf : after.session.fixesApplied = run.session.fixesApplied) :
    Narrated opening begun after := by
  refine ⟨?_, ?_, ?_, ?_, ?_⟩
  · rw [phases, he]
    exact h.first
  · rw [phases, he]
    exact h.legal
  · rw [he]
    exact h.ordered
  · intro event hevent
    rw [he] at hevent
    exact Nat.le_trans (h.reached event hevent) hi
  · rw [hf, loggedFixes, he]
    exact h.fixes

/-- One more event that tells of no phase. -/
theorem tell (h : Narrated opening begun run) {event : Event}
    (he : events after.log = events run.log ++ [event])
    (hevent : event.iteration = run.session.iteration)
    (hi : after.session.iteration = run.session.iteration)
    (hf : after.session.fixesApplied = run.session.fixesApplied ++ event.fixes)
    (hp : ∀ phase ∈ event.phase?, opening.Allows (lastPhase run.log) phase) :
    Narrated opening begun after := by
  have hphases : phases after.log = phases run.log ++ event.phase?.toList := by
    rw [phases, he, List.filterMap_append, ← phases]
    cases event <;> rfl
  have hlast : ∀ phase ∈ event.phase?, ∀ last ∈ (phases run.log).getLast?,
      phase ∈ last.successors := by
    intro phase hphase last hlast
    have hallowed := hp phase hphase
    rw [lastPhase, Option.mem_def.mp hlast] at hallowed
    exact hallowed
  refine ⟨?_, ?_, ?_, ?_, ?_⟩
  · intro phase hphase
    rw [hphases] at hphase
    cases hcases : phases run.log with
    | nil =>
      rw [hcases, List.nil_append, Option.head?_toList] at hphase
      have hallowed := hp phase hphase
      rw [lastPhase, hcases] at hallowed
      exact hallowed
    | cons first rest =>
      rw [hcases] at hphase
      exact h.first phase (by rw [hcases]; exact hphase)
  · rw [hphases]
    cases hcases : event.phase? with
    | none =>
      rw [Option.toList_none, List.append_nil]
      exact h.legal
    | some phase => exact h.legal.concat (hlast phase hcases)
  · rw [he, List.map_append, List.pairwise_append]
    refine ⟨h.ordered, List.pairwise_singleton _ _, ?_⟩
    intro earlier hearlier later hlater
    obtain ⟨told, htold, rfl⟩ := List.mem_map.mp hearlier
    rw [List.map_singleton, List.mem_singleton] at hlater
    rw [hlater, hevent]
    exact h.reached told htold
  · intro told htold
    rw [he, List.mem_append, List.mem_singleton] at htold
    rw [hi]
    rcases htold with htold | rfl
    · exact h.reached told htold
    · exact Nat.le_of_eq hevent
  · have hlogged : loggedFixes after.log = loggedFixes run.log ++ event.fixes := by
      rw [loggedFixes, he, List.flatMap_append, List.flatMap_singleton, loggedFixes]
    rw [hf, h.fixes, hlogged, List.append_assoc]

/-- A phase that may come next. -/
theorem enter (h : Narrated opening begun run) {phase : Phase}
    (hp : opening.Allows (lastPhase run.log) phase) : Narrated opening begun (run.enter phase) := by
  refine h.tell (Run.events_enter ..) rfl rfl (List.append_nil _).symm ?_
  intro next hnext
  rw [← Option.some.inj hnext]
  exact hp

theorem sleep (h : Narrated opening begun run) (delay : Duration) (reason : String) :
    Narrated opening begun (run.sleep delay reason) :=
  h.tell (Run.events_sleep ..) rfl rfl (List.append_nil _).symm nofun

theorem addFixes (h : Narrated opening begun run) (fixes : List String) :
    Narrated opening begun (run.addFixes fixes) := by
  have he := run.events_addFixes fixes
  have hf := congrArg Session.fixesApplied (run.session_addFixes fixes)
  have hi := Setup.iteration_addFixes run fixes
  split at he
  · next hnil =>
    rw [List.append_nil] at he
    refine h.congr he (Nat.le_of_eq hi.symm) ?_
    rw [hf, hnil, List.append_nil]
  · exact h.tell he rfl hi hf nofun

theorem restructure (h : Narrated opening begun run) (policy : Validation.Policy) (passes : Nat)
    (previous : Option Nat) : Narrated opening begun (run.restructure policy passes previous) := by
  induction passes generalizing previous run with
  | zero => exact h
  | succ passes ih =>
    unfold Run.restructure
    generalize Validation.validate policy true run.session.tableText = report
    dsimp only
    split
    · refine h.congr (Run.events_noteIssues ..) ?_ ?_
      · rw [Setup.iteration_noteIssues]
      · unfold Run.noteIssues
        split <;> rfl
    · have hupdated : Narrated opening begun (run.update fun session =>
          { session with tableText := report.fixedText.getD session.tableText }) :=
        h.congr rfl (Nat.le_refl _) rfl
      exact ih (hupdated.addFixes report.appliedFixes) _

theorem applyPatch (h : Narrated opening begun run) (setup : Setup σ) (patch : Patch) :
    Narrated opening begun (setup.applyPatch patch run) := by
  have hinstalled : Narrated opening begun (run.install patch.tableText).1 :=
    h.congr rfl (Nat.le_refl _) rfl
  have hnoted := hinstalled.addFixes (Setup.patchNotes patch run.session.complaints)
  have hreworked : Narrated opening begun (setup.rework
      ((run.install patch.tableText).1.addFixes
        (Setup.patchNotes patch run.session.complaints))) := by
    unfold Setup.rework
    split
    · exact hnoted.restructure ..
    · exact hnoted
  rw [Setup.applyPatch_eq_spend]
  exact hreworked.congr rfl (Nat.le_succ _) rfl

theorem spendIteration (h : Narrated opening begun run) (error : PatchError) :
    Narrated opening begun (Setup.spendIteration error run) := by
  rw [Setup.spendIteration_eq_spend]
  exact (h.addFixes _).congr rfl (Nat.le_succ _) rfl

theorem submitted (h : Narrated opening begun run) (setup : Setup σ)
    (hp : opening.Allows (lastPhase run.log) .remoteValidating) :
    Narrated opening begun (setup.submitted run) :=
  (h.enter hp).congr (Setup.events_submitted ..) (Nat.le_refl _) rfl

theorem requested (h : Narrated opening begun run) (setup : Setup σ) :
    Narrated opening begun (setup.requested run) :=
  h.congr (Setup.events_requested ..) (Nat.le_refl _) rfl

/-- The sitting ends with the event of a phase that may come next. -/
theorem concluded (h : Narrated opening begun run) {outcome : Outcome}
    (hp : opening.Allows (lastPhase run.log) outcome.phase)
    (hi : outcome.account.iterations = run.session.iteration)
    (hf : outcome.account.fixesApplied = run.session.fixesApplied)
    (he : outcome.isDone = false →
      outcome.account.remainingErrors = run.session.remainingErrors) :
    Concluded opening begun outcome (run.enter outcome.phase) := by
  refine ⟨h.enter hp, hf, events run.log, run.session.remainingErrors, ?_, fun hd => (he hd).symm⟩
  rw [hi, Run.events_enter]

theorem exhausted (h : Narrated opening begun run)
    (hp : opening.Allows (lastPhase run.log) .exhausted) :
    Concluded opening begun run.exhaust.1 run.exhaust.2 :=
  h.concluded hp rfl rfl fun _ => rfl

theorem cancelled (h : Narrated opening begun run)
    (hp : opening.Allows (lastPhase run.log) .cancelled) :
    Concluded opening begun run.cancel.1 run.cancel.2 :=
  h.concluded hp rfl rfl fun _ => rfl

theorem failed (h : Narrated opening begun run) (error : Error)
    (hp : opening.Allows (lastPhase run.log) .failed) :
    Concluded opening begun (run.fail error).1 (run.fail error).2 :=
  h.concluded hp rfl rfl fun _ => rfl

/-- What follows a failure may follow in either stage. -/
theorem backOff {setup : Setup σ} {stage : Stage} {delay : Duration} {reason : String}
    {next : Next σ} (h : Narrated opening begun run)
    (hb : setup.BackOff stage delay reason run next) {phase : Phase}
    (hlast : lastPhase run.log = some phase) (hs : stage.MayFollow opening (some phase))
    (hfailed : .failed ∈ phase.successors) (hcancelled : .cancelled ∈ phase.successors) :
    next.Holds (Narrating opening begun) (Concluded opening begun) := by
  have hcounted : Narrated opening begun run.countFailure := h.congr rfl (Nat.le_refl _) rfl
  have hslept : Narrated opening begun (run.countFailure.sleep delay reason) :=
    hcounted.sleep delay reason
  have hl : lastPhase (run.countFailure.sleep delay reason).log = some phase := by
    rw [Run.lastPhase_sleep]
    exact hlast
  cases hb with
  | spent _ =>
    refine hcounted.failed _ ?_
    rw [show lastPhase run.countFailure.log = some phase from hlast]
    exact hfailed
  | interrupted _ _ =>
    refine hslept.cancelled ?_
    rw [hl]
    exact hcancelled
  | again _ _ =>
    refine ⟨hslept, ?_⟩
    rw [hl]
    exact hs

end Narrated

/-! ### Steps and sittings -/

section Steps

variable {setup : Setup σ} {opening : Opening} {begun : Session} {run : Run σ}

theorem Narrating.submitStep (h : Narrating opening begun .submitting run) :
    (setup.submitStep run).Holds (Narrating opening begun) (Concluded opening begun) := by
  obtain ⟨h, hvalidating, hcancelled⟩ := h
  have hs : Narrated opening begun (setup.submitted run) := h.submitted setup hvalidating
  have hl : lastPhase (setup.submitted run).log = some .remoteValidating :=
    setup.lastPhase_submitted run
  have hr : ∀ complaints, Narrated opening begun (setup.rejected complaints run) :=
    fun _ => hs.congr rfl (Nat.le_refl _) rfl
  have hlr : ∀ complaints,
      lastPhase (setup.rejected complaints run).log = some .remoteValidating := fun _ => hl
  -- Every phase but the first two may come after a submission.
  have hp : ∀ phase ∈ Phase.remoteValidating.successors,
      opening.Allows (some .remoteValidating) phase := fun _ => id
  refine Setup.holds_submitStep fun next hnext => ?_
  cases hnext with
  | cancelled _ => exact h.cancelled hcancelled
  | accepted version _ _ =>
    exact hs.concluded (hl ▸ hp .done (by decide)) rfl rfl nofun
  | exhausted complaints _ _ _ => exact (hr _).exhausted (hlr _ ▸ hp .exhausted (by decide))
  | cancelledMeanwhile complaints _ _ _ _ =>
    exact (hr _).cancelled (hlr _ ▸ hp .cancelled (by decide))
  | rejected complaints _ _ _ _ =>
    exact ⟨(hr _).enter (hlr _ ▸ hp .patching (by decide)), Run.lastPhase_enter ..⟩
  | unauthorized _ _ =>
    exact hs.concluded (hl ▸ hp .needsCredential (by decide)) rfl rfl fun _ => rfl
  | rateLimited retryAfter _ _ hb =>
    exact hs.backOff hb hl ⟨hp _ (by decide), hp _ (by decide)⟩ (by decide) (by decide)
  | failed error _ _ hb =>
    exact hs.backOff hb hl ⟨hp _ (by decide), hp _ (by decide)⟩ (by decide) (by decide)

theorem Narrating.patchStep (h : Narrating opening begun .patching run) :
    (setup.patchStep run).Holds (Narrating opening begun) (Concluded opening begun) := by
  obtain ⟨h, hlast⟩ := h
  have hq : Narrated opening begun (setup.requested run) := h.requested setup
  have hl : lastPhase (setup.requested run).log = some .patching :=
    (setup.lastPhase_requested run).trans hlast
  have hw : ∀ error, Narrated opening begun (setup.wasted error run) :=
    fun error => hq.spendIteration error
  have hlw : ∀ error, lastPhase (setup.wasted error run).log = some .patching :=
    fun error => (setup.lastPhase_wasted run error).trans hlast
  have hp : ∀ phase ∈ Phase.patching.successors,
      opening.Allows (some .patching) phase := fun _ => id
  refine Setup.holds_patchStep fun next hnext => ?_
  cases hnext with
  | patched patch _ =>
    refine ⟨hq.applyPatch setup patch, ?_⟩
    rw [Setup.lastPhase_applyPatch, hl]
    exact ⟨hp _ (by decide), hp _ (by decide)⟩
  | unauthorized message _ => exact hq.failed _ (hl ▸ hp .failed (by decide))
  | failed error _ _ hb => exact hq.backOff hb hl rfl (by decide) (by decide)
  | exhausted error _ _ _ => exact (hw _).exhausted (hlw _ ▸ hp .exhausted (by decide))
  | cancelled error _ _ _ _ => exact (hw _).cancelled (hlw _ ▸ hp .cancelled (by decide))
  | again error _ _ _ _ => exact ⟨hw _, hlw _⟩

end Steps

namespace Setup

variable (setup : Setup σ) (services : σ) (clock : Clock)

/-- Nothing has been told before a sitting begins. -/
theorem narrated_opened (opening : Opening) :
    Narrated opening (opening.session setup.job) (setup.opened opening services clock) :=
  ⟨nofun, .nil, .nil, nofun, (List.append_nil _).symm⟩

theorem narrated_clean :
    Narrated .start (Opening.session setup.job .start) (setup.initial services clock).clean ∧
      lastPhase (setup.initial services clock).clean.log = some .sanitizing := by
  have hinstalled : Narrated .start (Opening.session setup.job .start)
      (((setup.initial services clock).enter .sanitizing).install setup.job.tableText).1 :=
    ((setup.narrated_opened services clock .start).enter (.inl rfl)).congr rfl (Nat.le_refl _) rfl
  refine ⟨?_, ?_⟩
  · rw [Run.clean]
    exact hinstalled.addFixes _
  · rw [Run.clean, Run.lastPhase_addFixes]
    exact Run.lastPhase_enter ..

theorem narrating_prepare :
    Narrating .start (Opening.session setup.job .start) .submitting
      (setup.prepare (setup.initial services clock)) := by
  obtain ⟨hclean, hlast⟩ := setup.narrated_clean services clock
  have hallowed : Opening.start.Allows (lastPhase (setup.initial services clock).clean.log)
      .structuralFix := by
    rw [hlast]
    exact List.mem_cons_self
  rw [prepare_eq]
  refine ⟨(hclean.enter hallowed).restructure _ _ _, ?_⟩
  rw [Run.lastPhase_restructure, Run.lastPhase_enter]
  exact ⟨List.mem_cons_self, List.mem_cons_of_mem _ List.mem_cons_self⟩

theorem Early.concluded {setup : Setup σ} {services : σ} {clock : Clock} {run : Run σ}
    (h : setup.Early services clock run) :
    Concluded .start (Opening.session setup.job .start) run.cancel.1 run.cancel.2 := by
  cases h with
  | initial => exact (setup.narrated_opened services clock .start).cancelled (.inr rfl)
  | cleaned =>
    obtain ⟨hclean, hlast⟩ := setup.narrated_clean services clock
    refine hclean.cancelled ?_
    rw [hlast]
    exact List.mem_cons_of_mem _ List.mem_cons_self
  | prepared =>
    obtain ⟨hprepared, -, hcancelled⟩ := setup.narrating_prepare services clock
    exact hprepared.cancelled hcancelled

end Setup

theorem Sitting.concluded {setup : Setup σ} {opening : Opening} {outcome : Outcome} {run : Run σ}
    (h : Sitting setup opening outcome run) :
    Concluded opening (opening.session setup.job) outcome run := by
  have ready : ∀ services clock, Narrating opening (opening.session setup.job) .submitting
      (setup.ready opening (setup.opened opening services clock)) := by
    intro services clock
    cases opening with
    | start => exact setup.narrating_prepare services clock
    | resume suspension => exact ⟨setup.narrated_opened services clock _, .inl rfl, .inr rfl⟩
  refine Sitting.induction ready ?_ ?_ h
  · rintro services clock run rfl hearly
    exact hearly.concluded
  · intro stage run hr
    cases stage with
    | submitting => exact hr.submitStep
    | patching => exact hr.patchStep

/-- **The events tell the sitting.** Whatever the services answer and whenever someone cancels, in a
repair from the start and in a resumption: the phases begin with the first phase of the opening, or
there is nothing but a cancellation, and each may follow the one before. One event ends the sitting.
It is the last, its phase is that of the outcome, it has the iterations of the account, and its
errors are those of the account, unless the repair is done. The iterations of the events never
decrease. The fixes of the account are those that it began with and those of the events. -/
theorem Sitting.events_tell {setup : Setup σ} {opening : Opening} {outcome : Outcome} {run : Run σ}
    (h : Sitting setup opening outcome run) :
    (phases run.log = [.cancelled] ∨ (phases run.log).head? = some opening.phase) ∧
      Phase.Legal (phases run.log) ∧
      (∃ earlier errors,
        events run.log =
            earlier ++ [.entered outcome.account.iterations outcome.phase errors] ∧
          outcome.phase.endsSitting = true ∧
          (∀ event ∈ earlier, ∀ phase ∈ event.phase?, phase.endsSitting = false) ∧
          (outcome.isDone = false → errors = outcome.account.remainingErrors)) ∧
      ((events run.log).map Event.iteration).Pairwise (· ≤ ·) ∧
      outcome.account.fixesApplied =
        (opening.session setup.job).fixesApplied ++ loggedFixes run.log := by
  obtain ⟨hn, hfixes, earlier, errors, hevents, herrors⟩ := h.concluded
  have hphases : phases run.log = earlier.filterMap Event.phase? ++ [outcome.phase] := by
    rw [phases, hevents, List.filterMap_append]
    rfl
  have hlegal := hn.legal
  rw [hphases] at hlegal
  refine ⟨?_, hn.legal, ⟨earlier, errors, hevents, ?_, ?_, herrors⟩, hn.ordered, ?_⟩
  · cases hcases : phases run.log with
    | nil =>
      rw [hcases] at hphases
      exact absurd hphases.symm (List.append_ne_nil_of_right_ne_nil _ (List.cons_ne_nil _ _))
    | cons first rest =>
      rcases hn.first first (by rw [hcases]; exact rfl) with rfl | rfl
      · exact .inr rfl
      · have hrest := (hcases ▸ hn.legal).eq_nil rfl
        exact .inl (congrArg _ hrest)
  · cases outcome <;> rfl
  · intro event hevent phase hphase
    exact hlegal.endsSitting_eq_false phase (List.mem_filterMap.mpr ⟨event, hevent, hphase⟩)
  · rw [hfixes, hn.fixes]

/-- A submission that has to wait and is then rejected, a reply without a patch, a patch, and a
credential that is refused. -/
theorem events_tell_of_suspended :
    let setup := Tape.setup "h\n"
    let tape : Tape :=
      { verdicts := [
          { answer := .ok (.rateLimited none) },
          { answer := .ok (.rejected [{ node := some 1, message := "missing" }]) }]
        patches := [
          { answer := .error (.malformed "no table") },
          { answer := .ok { tableText := "k\n", fixes := ["Named the table"] } }] }
    let ending := setup.sit .start tape {}
    phases ending.2.log =
        [.sanitizing, .structuralFix, .remoteValidating, .remoteValidating, .patching,
          .remoteValidating, .needsCredential] ∧
      Phase.Legal (phases ending.2.log) ∧
      ending.1.account.fixesApplied = loggedFixes ending.2.log := by
  intro setup tape ending
  obtain ⟨-, hlegal, -, -, hfixes⟩ :=
    Sitting.events_tell (.whole .start tape {} : Sitting setup .start _ _)
  refine ⟨?_, hlegal, hfixes⟩
  exact Setup.start_of_startWithin (p := fun ending => phases ending.2.log = _) 6
    (by decide +kernel)

end DialogTable.Repair
