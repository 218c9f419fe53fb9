import TokenKeeper.Metrics.Registry
import TokenKeeper.Refresh.Policy
import TokenKeeper.Refresh.Sink

/-!
# The refresh loop

The loop keeps one sink supplied with a token. A cycle fetches a token, publishes it and tells how
long to wait; then the loop sleeps and starts over, until it is cancelled. Failures never end it.

Time is counted in milliseconds from the start of the loop, and the clock on the wall goes with
it. A `Source` says for every fetch how long it takes and what comes of it. `LoopSetup.cycle` is
one cycle, `LoopSetup.stateAt` the state before each cycle of a loop that is never cancelled, and
`LoopSetup.run` a loop that is cancelled at some time; at equal times the cancellation goes first.
-/

namespace TokenKeeper

/-- One fetch. -/
structure Attempt where
  /-- How many milliseconds it takes. -/
  latency : Nat := 0
  /-- What comes of it, given the instant at which it ends. -/
  result : Instant → Except Error Token

/-- What comes of each fetch, by its number. -/
abbrev Source := Nat → Attempt

/-- The source that goes through a list of attempts and then fails with the same error for ever. -/
def Source.ofList (attempts : List Attempt) (afterwards : Error) : Source := fun n =>
  attempts[n]?.getD { result := fun _ => .error afterwards }

/-- How a cycle ended. -/
inductive CycleOutcome where
  | fetchFailed (e : Error)
  | publishFailed (t : Token) (e : Error)
  | published (t : Token)
deriving DecidableEq, Repr

/-- A cycle. -/
structure Cycle where
  /-- When the fetch began, in milliseconds. -/
  start : Nat
  /-- When the fetch ended. The rest of a cycle takes no time. -/
  finish : Nat
  outcome : CycleOutcome
  /-- The time until the next cycle is due. -/
  wake : Span
deriving DecidableEq, Repr

/-- What a loop goes by. -/
structure LoopSetup where
  policy : RefreshPolicy := {}
  source : Source
  /-- Publishes that fail before they reach the sink, by their number. -/
  refusals : Nat → Option Error := fun _ => none
  /-- The clock on the wall when the loop starts. -/
  startedAt : Instant

/-- The state of a loop between two cycles. -/
structure LoopState where
  /-- Milliseconds since the start. -/
  time : Nat := 0
  fetches : Nat := 0
  publishes : Nat := 0
  sink : Sink
  metrics : Registry := {}
deriving DecidableEq, Repr

namespace LoopSetup

/-- The clock on the wall at a time of the loop. -/
def clockAt (l : LoopSetup) (time : Nat) : Instant :=
  l.startedAt.after (.millis time)

/-- Publish a token, unless that is refused. -/
def publish (l : LoopSetup) (s : LoopState) (t : Token) : Except Error Unit × Sink :=
  match l.refusals s.publishes with
  | some e => (.error e, s.sink)
  | none => s.sink.publish t

/-- One cycle, and the state after it. -/
def cycle (l : LoopSetup) (s : LoopState) : Cycle × LoopState :=
  let attempt := l.source s.fetches
  let start := s.time
  let finish := start + attempt.latency
  let now := l.clockAt finish
  let mode := s.sink.mode
  let s := { s with time := finish, fetches := s.fetches + 1 }
  match attempt.result now with
  | .error e =>
    ({ start, finish, outcome := .fetchFailed e, wake := l.policy.retryInterval },
      { s with metrics := s.metrics.recordFailure mode e.reason })
  | .ok token =>
    let (result, sink) := l.publish s token
    let s := { s with publishes := s.publishes + 1, sink }
    match result with
    | .error e =>
      ({ start, finish, outcome := .publishFailed token e, wake := l.policy.retryInterval },
        { s with metrics := s.metrics.recordFailure mode e.reason })
    | .ok () =>
      ({ start, finish, outcome := .published token, wake := l.policy.nextWake token.expiry now },
        { s with
          metrics := s.metrics.recordRefresh mode (token.expiry.map Instant.unixSeconds) })

/-- Cycles one after the other without sleep. -/
def cycles (l : LoopSetup) (s : LoopState) : Nat → List Cycle × LoopState
  | 0 => ([], s)
  | n + 1 =>
    let (c, s) := l.cycle s
    let (cs, s) := l.cycles s n
    (c :: cs, s)

/-- Sleep after a cycle. Sleep lasts whole milliseconds, rounded up. -/
def sleep (l : LoopSetup) (c : Cycle) (s : LoopState) : LoopState :=
  { s with time := s.time + (l.policy.sleepFor c.wake).ceilMillis }

/-- One cycle and the sleep after it. -/
def turn (l : LoopSetup) (s : LoopState) : Cycle × LoopState :=
  let (c, s) := l.cycle s
  (c, l.sleep c s)

/-- The state before the cycle with a number, in a loop that is never cancelled. -/
def stateAt (l : LoopSetup) (s : LoopState) : Nat → LoopState
  | 0 => s
  | n + 1 => (l.turn (l.stateAt s n)).2

/-- The cycle with a number, in a loop that is never cancelled. -/
def cycleAt (l : LoopSetup) (s : LoopState) (n : Nat) : Cycle :=
  (l.cycle (l.stateAt s n)).1

/-! ## Cancellation -/

/-- A loop that has been cancelled. -/
structure Run where
  /-- The cycles that were completed. -/
  cycles : List Cycle
  /-- When the fetch began that the cancellation cut off, if it did. -/
  cutOff : Option Nat
  /-- The state at the end. Its time is when the cycle began that was cut off, or when the next one
  would have begun. -/
  state : LoopState
deriving DecidableEq, Repr

/-- A run with a cycle before it. -/
def Run.cons (c : Cycle) (r : Run) : Run :=
  { r with cycles := c :: r.cycles }

/-- Only the fetch takes time in a cycle. -/
@[simp] theorem time_cycle (l : LoopSetup) (s : LoopState) :
    (l.cycle s).2.time = s.time + (l.source s.fetches).latency := by
  unfold cycle
  simp only
  split
  · rfl
  · split <;> rfl

/-- Every turn takes time, so a loop makes finitely many of them before it is cancelled. -/
theorem time_lt_turn (l : LoopSetup) (s : LoopState) : s.time < (l.turn s).2.time := by
  have h := l.policy.one_second_le_sleepFor (l.cycle s).1.wake
  simp only [turn, sleep, time_cycle]
  omega

/-- Go on from a state until a time at which the loop is cancelled. -/
def runFrom (l : LoopSetup) (cancelAt : Nat) (s : LoopState) : Run :=
  if cancelAt ≤ s.time then { cycles := [], cutOff := none, state := s }
  else if cancelAt ≤ s.time + (l.source s.fetches).latency then
    { cycles := [], cutOff := some s.time, state := { s with fetches := s.fetches + 1 } }
  else
    (l.runFrom cancelAt (l.turn s).2).cons (l.turn s).1
termination_by cancelAt - s.time
decreasing_by
  have := time_lt_turn l s
  omega

/-- Start with a sink and nothing recorded, and go on until a time. -/
def run (l : LoopSetup) (sink : Sink) (cancelAt : Nat) : Run :=
  l.runFrom cancelAt { sink }

end LoopSetup

/-! ## Events -/

/-- What can be seen of a loop from outside. -/
inductive LoopEvent where
  | fetch (time : Nat)
  | publish (time : Nat) (t : Token) (result : Except Error Unit)

/-- What is seen of a cycle. -/
def Cycle.events (c : Cycle) : List LoopEvent :=
  match c.outcome with
  | .fetchFailed _ => [.fetch c.start]
  | .publishFailed t e => [.fetch c.start, .publish c.finish t (.error e)]
  | .published t => [.fetch c.start, .publish c.finish t (.ok ())]

/-- What is seen of a run. -/
def LoopSetup.Run.events (r : LoopSetup.Run) : List LoopEvent :=
  r.cycles.flatMap Cycle.events ++ (r.cutOff.map LoopEvent.fetch).toList

end TokenKeeper
