import DialogTable.Duration

/-!
# Time and cancellation

Time passes while a repair waits for replies and after failures. A cancellation may be due at a
fixed time; it takes effect once that time is past. A call in flight is not cut off by a
cancellation, only by its time limit; a wait after a failure is cut off. All of this is timed by
timers, and a timer runs out after thirty years at the latest.
-/

namespace DialogTable.Repair

/-- The time since the start, and the state of the cancellation. -/
structure Clock where
  now : Duration := 0
  cancelAt : Option Duration := none
  cancelled : Bool := false
  deriving DecidableEq, Repr

/-- What a collaborator answers, after how long, and whether the repair is cancelled along with
it. -/
structure Reply (α : Type) where
  answer : α
  delay : Duration := 0
  cancels : Bool := false

namespace Clock

/-- How long a timer runs at most: thirty years of 365 days. -/
def longestTimer : Duration := .ofSeconds 946080000

/-- How long a timer that is set to a time runs. -/
def timer (time : Duration) : Duration :=
  if time ≤ longestTimer then time else longestTimer

/-- When the cancellation is due. -/
def due? (clock : Clock) : Option Duration :=
  clock.cancelAt.map timer

/-- Whether a cancellation is due before a time. -/
def isDueBefore (clock : Clock) (time : Duration) : Bool :=
  clock.due?.any fun due => due < time

/-- Cancels at once. -/
def cancel (clock : Clock) : Clock :=
  { clock with cancelled := true }

/-- Lets time pass. -/
def pass (clock : Clock) (delay : Duration) : Clock :=
  { clock with
    now := clock.now + delay
    cancelled := clock.cancelled || clock.isDueBefore (clock.now + delay) }

/-- Waits unless or until the repair is cancelled; the flag tells whether it was. -/
def wait (clock : Clock) (delay : Duration) : Clock × Bool :=
  if clock.cancelled then (clock, true)
  else
    let delay := timer delay
    match clock.due? with
    | none => (clock.pass delay, false)
    | some due =>
      if due < clock.now + delay then
        ({ clock with now := if clock.now < due then due else clock.now, cancelled := true }, true)
      else (clock.pass delay, false)

/-- Waits for a reply within a limit. A reply at the limit is in time; a later one is lost. -/
def await {α : Type} (clock : Clock) (limit : Duration) (late : α) (reply : Reply α) : α × Clock :=
  if timer reply.delay ≤ timer limit then
    let clock := clock.pass (timer reply.delay)
    (reply.answer, if reply.cancels then clock.cancel else clock)
  else (late, clock.pass (timer limit))

/-! ### Small facts -/

theorem timer_eq_self {time : Duration} (h : time ≤ longestTimer) : timer time = time := by
  simp [timer, h]

end Clock

end DialogTable.Repair
