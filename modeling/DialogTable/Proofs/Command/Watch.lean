import DialogTable.Command.Memory
import DialogTable.Command.Repair
import DialogTable.Proofs.Repair.Ending

/-!
# What the repair command does, written down

The command is run here by a host that writes down what it does: it asks for lines, it opens a
sitting of the repair, and the compiler answers. What a sitting hears from the compiler is settled
by how it ends (`hears_start`, `hears_resume`): the token is refused once if the sitting is
suspended, and never else.
-/

namespace DialogTable

/-! ### Refusals -/

namespace Compiler.Http

/-- Whether the compiler refuses the token. -/
def refuses : DialogTable.Http.Answer → Bool
  | .reply status _ _ => status = 401 || status = 403
  | _ => false

theorem accepted_ne_unauthorized (body : String) : accepted body ≠ .ok .unauthorized := by
  unfold accepted
  split
  · exact nofun
  · split <;> exact nofun

/-- The refusals are the answers that suspend a repair. -/
theorem ofAnswer_eq_unauthorized_iff (seconds : Nat) (answer : DialogTable.Http.Answer) :
    ofAnswer seconds answer = .ok .unauthorized ↔ refuses answer = true := by
  cases answer with
  | reply status body retryAfter =>
    simp only [ofAnswer, ofReply, refuses, Bool.or_eq_true, decide_eq_true_eq]
    by_cases hr : status = 401 ∨ status = 403
    · rcases hr with rfl | rfl <;> simp [DialogTable.Http.isSuccess]
    · simp only [hr, if_false, iff_false]
      split
      · exact accepted_ne_unauthorized _
      · split
        · exact nofun
        · split
          · exact nofun
          · split <;> exact nofun
  | lost reason => exact ⟨nofun, nofun⟩
  | late => exact ⟨nofun, nofun⟩

end Compiler.Http

end DialogTable

namespace DialogTable.Command

open DialogTable.Repair (Clock Outcome Remote Run Setup Stage Suspension)
open Compiler.Http (refuses)

/-! ### What a command does -/

/-- Something that a command does. -/
inductive Act
  /-- A line was asked for; there is none at the end of the input. -/
  | asked (line : Option String)
  /-- A sitting of the repair was opened. -/
  | opened
  /-- The compiler answered. -/
  | answered (answer : Http.Answer)
  deriving DecidableEq, Repr

section Watch

variable {σ : Type}

/-- The network with a log of what the compiler answers. -/
def Network.watched (network : Network σ) : Network (σ × List Act) where
  compiler state request :=
    let (answer, next) := network.compiler state.1 request
    (answer, next, state.2 ++ [.answered answer])
  patch state request :=
    let (answer, next) := network.patch state.1 request
    (answer, next, state.2)

/-- Adds to the log. -/
def Memory.log (memory : Memory (σ × List Act)) (act : Act) : Memory (σ × List Act) :=
  { memory with network := (memory.network.1, memory.network.2 ++ [act]) }

/-- A part of a command with a log of what it does. -/
abbrev Watched (σ α : Type) : Type :=
  Part (StateM (Memory (σ × List Act))) α

/-- The host in memory with a log of what a command does. -/
def watchedHost (network : Network σ) : Host (σ × List Act) (StateM (Memory (σ × List Act))) :=
  { Memory.host network.watched with
    readLine := fun memory =>
      let (line, after) := memory.readLine
      (line, after.log (.asked line))
    withNetwork := fun run memory => (memory.log .opened).exchange run }

/-- A memory with an empty log. -/
def Memory.unwatched (memory : Memory σ) : Memory (σ × List Act) :=
  { memory with network := (memory.network, []) }

/-- What is done in a repair that asks for a number of other tokens at most. -/
def transcript (network : Network σ) (attempts : Nat) (settings : Settings)
    (options : RepairOptions) (memory : Memory σ) : List Act :=
  ((repairWithin attempts (watchedHost network) settings options).run.run
    memory.unwatched).2.network.2

end Watch

/-! ### Answers in a sitting -/

section Sitting

variable {σ : Type} {network : Network σ} {remote : Remote}

/-- The compiler gave more answers, and refused the token in a number of them. -/
def Hears (refused : Nat) (before after : σ × List Act) : Prop :=
  ∃ answers : List Http.Answer,
    after.2 = before.2 ++ answers.map .answered ∧ answers.countP refuses = refused

theorem hears_nothing {before after : σ × List Act} (h : after.2 = before.2) :
    Hears 0 before after :=
  ⟨[], by simp [h], rfl⟩

theorem Hears.trans {m n : Nat} {first second third : σ × List Act} (h : Hears m first second)
    (h' : Hears n second third) : Hears (m + n) first third := by
  obtain ⟨answers, hlog, hcount⟩ := h
  obtain ⟨answers', hlog', hcount'⟩ := h'
  refine ⟨answers ++ answers', ?_, ?_⟩
  · rw [hlog', hlog, List.map_append, List.append_assoc]
  · rw [List.countP_append, hcount, hcount']

/-- How often the token was refused in a sitting with some end. -/
def refusalsOf : Outcome → Nat
  | .needsCredential _ => 1
  | _ => 0

/-- Services over a watched network. -/
def watchedServices (remote : Remote) (network : Network σ) : Repair.Services (σ × List Act) :=
  remote.services network.watched.compiler network.watched.patch

/-- One submission hears one answer at most. It is a refusal if that is the verdict. -/
theorem hears_submit (submission : Submission) (credential : Credential) (state : σ × List Act) :
    ((remote.submit network.watched.compiler state submission credential).1 = .ok .unauthorized ∧
        Hears 1 state (remote.submit network.watched.compiler state submission credential).2) ∨
      ((remote.submit network.watched.compiler state submission credential).1 ≠
          .ok .unauthorized ∧
        Hears 0 state (remote.submit network.watched.compiler state submission credential).2) := by
  unfold Remote.submit
  split
  · exact .inr ⟨nofun, hears_nothing rfl⟩
  · next request _ =>
    have hiff := Compiler.Http.ofAnswer_eq_unauthorized_iff remote.compilerTimeoutSeconds
      (network.compiler state.1 request).1
    have hlog : (network.watched.compiler state request).2.2 =
        state.2 ++ [.answered (network.compiler state.1 request).1] := rfl
    cases hr : refuses (network.compiler state.1 request).1 with
    | true => exact .inl ⟨hiff.mpr hr, [_], hlog, by simp [hr]⟩
    | false => exact .inr ⟨fun h => by simp [hiff.mp h] at hr, [_], hlog, by simp [hr]⟩

theorem submit_watchedServices (state : σ × List Act) (submission : Submission)
    (credential : Credential) :
    (watchedServices remote network).submit state submission credential =
      ({ answer := (remote.submit network.watched.compiler state submission credential).1 },
        (remote.submit network.watched.compiler state submission credential).2) := rfl

/-- A reply that comes at once is not late. -/
theorem await_at_once {α : Type} (clock : Clock) (limit : Duration) (late answer : α) :
    (clock.await limit late { answer }).1 = answer := by
  have hzero : Clock.timer 0 = 0 := Clock.timer_eq_self (Nat.zero_le _)
  have hle : Clock.timer 0 ≤ Clock.timer limit := by
    rw [hzero]
    exact Nat.zero_le _
  rw [Clock.await, if_pos hle]

theorem hears_submitted {setup : Setup (σ × List Act)}
    (hs : setup.services = watchedServices remote network) (run : Run (σ × List Act)) :
    (setup.verdict run = .ok .unauthorized ∧
        Hears 1 run.services (setup.submitted run).services) ∨
      (setup.verdict run ≠ .ok .unauthorized ∧
        Hears 0 run.services (setup.submitted run).services) := by
  have hverdict : setup.verdict run =
      (run.clock.await setup.limits.remoteTimeout (.error (.timeout setup.limits.remoteTimeout))
        (setup.services.submit run.services (setup.submission run) setup.credential).1).1 := rfl
  have hservices : (setup.submitted run).services =
      (setup.services.submit run.services (setup.submission run) setup.credential).2 := rfl
  rw [hverdict, hservices, hs, submit_watchedServices, await_at_once]
  exact hears_submit (setup.submission run) setup.credential run.services

theorem hears_requested {setup : Setup (σ × List Act)}
    (hs : setup.services = watchedServices remote network) (run : Run (σ × List Act)) :
    Hears 0 run.services (setup.requested run).services := by
  have hservices : (setup.requested run).services =
      (setup.services.requestPatch run.services (setup.patchRequest run)).2 := rfl
  rw [hservices, hs]
  refine hears_nothing ?_
  show (remote.requestPatch network.watched.patch run.services (setup.patchRequest run)).2.2 = _
  unfold Remote.requestPatch
  split <;> rfl

/-- One step hears at most one refusal, and then it ends the sitting. -/
theorem hears_step {setup : Setup (σ × List Act)}
    (hs : setup.services = watchedServices remote network) {before : σ × List Act} (stage : Stage)
    {run : Run (σ × List Act)} (h : Hears 0 before run.services) :
    (setup.step stage run).Holds (fun _ after => Hears 0 before after.services)
      fun outcome after => Hears (refusalsOf outcome) before after.services := by
  have backOff : ∀ {repeated delay reason} {failed : Run (σ × List Act)}
      {next : Repair.Next (σ × List Act)}, Hears 0 before failed.services →
        setup.BackOff repeated delay reason failed next →
          next.Holds (fun _ after => Hears 0 before after.services)
            fun outcome after => Hears (refusalsOf outcome) before after.services := by
    intro repeated delay reason failed next hfailed hb
    cases hb with
    | spent _ => exact hfailed
    | interrupted _ _ => exact hfailed
    | again _ _ => exact hfailed
  cases stage with
  | submitting =>
    refine Setup.holds_submitStep fun next hnext => ?_
    have other : setup.verdict run ≠ .ok .unauthorized →
        Hears 0 before (setup.submitted run).services := fun hv =>
      h.trans ((hears_submitted hs run).resolve_left fun hr => hv hr.1).2
    cases hnext with
    | cancelled _ => exact h
    | accepted _ _ hv => exact other (by rw [hv]; exact nofun)
    | exhausted _ _ hv _ => exact other (by rw [hv]; exact nofun)
    | cancelledMeanwhile _ _ hv _ _ => exact other (by rw [hv]; exact nofun)
    | rejected _ _ hv _ _ => exact other (by rw [hv]; exact nofun)
    | unauthorized _ hv =>
      exact h.trans ((hears_submitted hs run).resolve_right fun hr => hr.1 hv).2
    | rateLimited _ _ hv hb => exact backOff (other (by rw [hv]; exact nofun)) hb
    | failed _ _ hv hb => exact backOff (other (by rw [hv]; exact nofun)) hb
  | patching =>
    refine Setup.holds_patchStep fun next hnext => ?_
    have hr : Hears 0 before (setup.requested run).services := h.trans (hears_requested hs run)
    have hw : ∀ error, Hears 0 before (setup.wasted error run).services := fun error => by
      rw [Setup.wasted, Setup.services_spendIteration]
      exact hr
    cases hnext with
    | patched patch _ =>
      show Hears 0 before (setup.applyPatch patch (setup.requested run)).services
      rw [Setup.services_applyPatch]
      exact hr
    | unauthorized _ _ => exact hr
    | failed _ _ _ hb => exact backOff hr hb
    | exhausted error _ _ _ => exact hw error
    | cancelled error _ _ _ _ => exact hw error
    | again error _ _ _ _ => exact hw error

/-- A sitting hears one refusal if it is suspended, and none else. -/
theorem hears_drive {setup : Setup (σ × List Act)}
    (hs : setup.services = watchedServices remote network) (run : Run (σ × List Act)) :
    Hears (refusalsOf (setup.drive .submitting run).1) run.services
      (setup.drive .submitting run).2.services := by
  have hstep : ∀ stage between, Hears 0 run.services between.services →
      (setup.step stage between).Holds (fun _ after => Hears 0 run.services after.services)
        fun outcome after => Hears (refusalsOf outcome) run.services after.services :=
    fun stage _ => hears_step hs stage
  exact Setup.drive_induction hstep (hears_nothing rfl)

theorem hears_start {setup : Setup (σ × List Act)}
    (hs : setup.services = watchedServices remote network) (state : σ × List Act) :
    Hears (refusalsOf (setup.start state {}).1) state (setup.start state {}).2.services := by
  have hstart : (setup.prepare (setup.initial state {})).services = state := by
    rw [Setup.services_prepare]
    rfl
  rw [setup.start_of_not_cancelled state rfl]
  have hdrive := hears_drive hs (setup.prepare (setup.initial state {}))
  rw [hstart] at hdrive
  exact hdrive

theorem hears_resume {setup : Setup (σ × List Act)}
    (hs : setup.services = watchedServices remote network) (suspension : Suspension)
    (run : Run (σ × List Act)) :
    Hears (refusalsOf (setup.resume suspension run).1) run.services
      (setup.resume suspension run).2.services := by
  let resumed : Setup (σ × List Act) := { setup with job := suspension.job }
  have hresumed : resumed.services = watchedServices remote network := hs
  exact hears_drive hresumed
    { run with session := { suspension.session with transientFailures := 0 } }

end Sitting

end DialogTable.Command
