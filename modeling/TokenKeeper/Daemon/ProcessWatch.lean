import TokenKeeper.Metrics.Registry
import TokenKeeper.Time.Basic

/-!
# Watching the process

The program takes samples of itself, the first when it starts and then one every five seconds. Of
what a sample holds only the times can be told without a machine.
-/

namespace TokenKeeper.ProcessWatch

/-- The milliseconds between two samples. -/
def interval : Nat := 5000

/-- The time of the last sample of a watch that is cancelled at a time. The first one is taken in
any case. -/
def lastSample (cancelAt : Nat) : Nat :=
  (cancelAt - 1) / interval * interval

/-- What is recorded of the times in a watch that starts at an instant and is cancelled after some
milliseconds. -/
def run (p : ProcessGauges) (startedAt : Instant) (cancelAt : Nat) : ProcessGauges :=
  let start := startedAt.unixSeconds
  { p with
    startTime := start
    uptime := (startedAt.after (.millis (lastSample cancelAt))).unixSeconds - start }

end TokenKeeper.ProcessWatch
