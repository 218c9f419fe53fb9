import TokenKeeper.Time.Basic

/-!
# When to refresh

How long the refresh loop waits after a cycle. A token with an expiry is replaced a margin before
it, one without is replaced after a margin, and a failed cycle is tried again after a fixed time.
No wait is shorter than a second, so that a token inside its margin does not make the loop spin.
-/

namespace TokenKeeper

/-- The times that the loop goes by. -/
structure RefreshPolicy where
  /-- How long before its expiry a token is replaced. -/
  margin : Span := .seconds 300
  /-- The wait after a cycle that failed. -/
  retryInterval : Span := .seconds 5
deriving DecidableEq, Repr

namespace RefreshPolicy

/-- The shortest wait. -/
def minDelay : Span := .seconds 1

/-- The time until a token with the given expiry is due, as seen at `now`. -/
def nextWake (p : RefreshPolicy) (expiry : Option Instant) (now : Instant) : Span :=
  match expiry with
  | none => p.margin
  | some expiry => expiry.since now - p.margin

/-- The wait for a time until the next cycle. -/
def sleepFor (_p : RefreshPolicy) (wake : Span) : Span :=
  wake.max minDelay

/-- No wait is shorter than a second, in whole milliseconds. -/
theorem one_second_le_sleepFor (p : RefreshPolicy) (wake : Span) :
    1000 ≤ (p.sleepFor wake).ceilMillis := by
  have h := Span.ceilMillis_mono (wake.le_max_right minDelay)
  rwa [minDelay, Span.ceilMillis_seconds] at h

end RefreshPolicy

end TokenKeeper
