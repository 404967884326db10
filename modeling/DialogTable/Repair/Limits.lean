import DialogTable.Duration
import DialogTable.Word

/-!
# Limits of a repair

A repair has two budgets, patches and failures in a row. After a failure it waits twice as long as
after the one before, up to a minute. The wait is computed in words, of 64 bits for the seconds and
of 32 bits for the failures.
-/

namespace DialogTable.Repair

/-- The budgets and waiting times of a repair. -/
structure Limits where
  /-- Patches before the repair gives up. -/
  maxIterations : Nat := 5
  /-- Transient failures in a row that are put up with. -/
  maxTransientRetries : Nat := 5
  /-- The wait after a rate limit that names no time. -/
  defaultRetryAfterSeconds : Nat := 30
  /-- How long a call may take. -/
  remoteTimeoutSeconds : Nat := 120
  /-- The wait after the first of some failures in a row. -/
  transientBackoffSeconds : Nat := 2
  maxStructuralPasses : Nat := 10
  /-- Whether patched tables get structural fixes too. -/
  restructureAfterPatch : Bool := true
  deriving DecidableEq, Repr

namespace Limits

/-- No wait after a failure is longer than this. -/
def longestBackoff : Duration := .ofSeconds 60

/-- The doubling stops after this many failures, when any wait of a second or more is past the
longest. -/
def mostDoublings : UInt32 := 16

/-- How often the first wait is doubled after some failures in a row. -/
def doublings (failures : UInt32) : UInt32 :=
  min (Word.saturatingSub failures 1) mostDoublings

/-- The seconds of the first wait, doubled for some failures in a row. -/
def doubledSeconds (first : UInt64) (failures : UInt32) : UInt64 :=
  Word.saturatingMul first (1 <<< (doublings failures).toUInt64)

/-- The wait after some failures in a row, where both numbers fit into their words. -/
def backoff (limits : Limits) (failures : Nat) : Duration :=
  let first := UInt64.ofNat limits.transientBackoffSeconds
  min (.ofSeconds (doubledSeconds first (.ofNat failures)).toNat) longestBackoff

/-- How long a call may take. -/
def remoteTimeout (limits : Limits) : Duration :=
  .ofSeconds limits.remoteTimeoutSeconds

/-- The wait after a rate limit. -/
def rateLimitDelay (limits : Limits) (retryAfter : Option Duration) : Duration :=
  retryAfter.getD (.ofSeconds limits.defaultRetryAfterSeconds)

end Limits

end DialogTable.Repair
