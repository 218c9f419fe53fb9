import Mathlib.Algebra.BigOperators.Group.List.Basic
import Mathlib.Algebra.Ring.Nat
import TokenKeeper.Proofs.Refresh.Cancellation
import TokenKeeper.Proofs.Refresh.Delivery
import TokenKeeper.Proofs.Refresh.Recording

/-!
# The accounts of a refresh loop

At every moment of a loop, whatever comes of its fetches and publishes and whenever it is cancelled,
the metrics agree with what has happened: refreshes are the publishes that succeeded, failures for a
reason are the completed cycles that failed for it, and together they are all completed cycles. At
most one fetch more has begun (`accounts_balance`).

`LoopMoment.Accounts` is the invariant behind it: the metrics are what the completed cycles record,
and what has been seen are these cycles and at most a fetch that was cut off. One step keeps it
(`accounts_step`), and by induction so does a whole run (`accounts_after`).
-/

namespace TokenKeeper

/-- The reasons of all errors. -/
def Error.reasons : List String :=
  ["config", "provider", "fetch", "invalid", "publish", "upstream"]

/-! ## One cycle -/

namespace Cycle

/-- The reason for which a cycle failed. -/
def reason? (c : Cycle) : Option String :=
  c.outcome.failure?.map Error.reason

/-- One fetch is seen of a cycle. -/
theorem countP_fetchTime?_events (c : Cycle) : c.events.countP (·.fetchTime?.isSome) = 1 := by
  rw [events]
  cases c.outcome <;> rfl

/-- A publish is seen to succeed if a token was published. -/
theorem countP_accepted?_events (c : Cycle) :
    c.events.countP (·.accepted?.isSome) = if c.outcome.published?.isSome then 1 else 0 := by
  rw [events]
  cases c.outcome <;> rfl

/-- A cycle publishes a token, or else it fails for one of the reasons. -/
theorem published_add_failed (c : Cycle) :
    (if c.outcome.published?.isSome then 1 else 0) +
      (Error.reasons.map fun reason => if c.reason? = some reason then 1 else 0).sum = 1 := by
  have hfailed (e : Error) :
      (Error.reasons.map fun reason => if some e.reason = some reason then 1 else 0).sum = 1 := by
    cases e <;> rfl
  rw [reason?]
  cases c.outcome with
  | fetchFailed e => exact (Nat.zero_add _).trans (hfailed e)
  | publishFailed t e => exact (Nat.zero_add _).trans (hfailed e)
  | published t => rfl

end Cycle

/-! ## Many cycles -/

variable (cs : List Cycle)

theorem countP_fetchTime?_flatMap_events :
    (cs.flatMap Cycle.events).countP (·.fetchTime?.isSome) = cs.length := by
  induction cs with
  | nil => rfl
  | cons c cs ih =>
    rw [List.flatMap_cons, List.countP_append, ih, c.countP_fetchTime?_events, List.length_cons,
      Nat.add_comm]

theorem countP_accepted?_flatMap_events :
    (cs.flatMap Cycle.events).countP (·.accepted?.isSome) =
      cs.countP (·.outcome.published?.isSome) := by
  induction cs with
  | nil => rfl
  | cons c cs ih =>
    rw [List.flatMap_cons, List.countP_append, ih, c.countP_accepted?_events, List.countP_cons,
      Nat.add_comm]

/-- Every cycle publishes a token or fails for one of the reasons. -/
theorem countP_published_add_failed :
    cs.countP (·.outcome.published?.isSome) +
      (Error.reasons.map fun reason => cs.countP (·.reason? = some reason)).sum = cs.length := by
  induction cs with
  | nil => rfl
  | cons c cs ih =>
    have hc := c.published_add_failed
    simp only [List.countP_cons, decide_eq_true_eq, List.sum_map_add, List.length_cons]
    omega

/-! ## The balance -/

/-- The metrics of a mode agree with the cycles that have been completed and with what has been
seen. -/
structure Balances (mode : String) (r : Registry) (done : List Cycle) (seen : List LoopEvent) :
    Prop where
  refreshes : r.refreshes.count [mode] = seen.countP (·.accepted?.isSome)
  failures : ∀ reason,
    r.refreshFailures.count [mode, reason] = done.countP (·.reason? = some reason)
  total : r.refreshes.count [mode] +
    (Error.reasons.map fun reason => r.refreshFailures.count [mode, reason]).sum = done.length
  completed_le_begun : done.length ≤ seen.countP (·.fetchTime?.isSome)
  begun_le_completed_succ : seen.countP (·.fetchTime?.isSome) ≤ done.length + 1

/-- What cycles record balances with what is seen of them, and also when one more fetch is seen. -/
theorem balances_recordAll (mode : String) {seen : List LoopEvent}
    (hseen : seen = cs.flatMap Cycle.events ∨
      ∃ time, seen = cs.flatMap Cycle.events ++ [.fetch time]) :
    Balances mode (({} : Registry).recordAll mode (cs.map (·.outcome))) cs seen := by
  have hrefreshes := Registry.count_refreshes_recordAll mode {} (cs.map (·.outcome))
  have hfailures := Registry.count_refreshFailures_recordAll mode {} (cs.map (·.outcome))
  have haccepted : seen.countP (·.accepted?.isSome) = cs.countP (·.outcome.published?.isSome) := by
    rcases hseen with rfl | ⟨time, rfl⟩
    · rw [countP_accepted?_flatMap_events]
    · rw [List.countP_append, countP_accepted?_flatMap_events]
      rfl
  have hbegun : cs.length ≤ seen.countP (·.fetchTime?.isSome) ∧
      seen.countP (·.fetchTime?.isSome) ≤ cs.length + 1 := by
    rcases hseen with rfl | ⟨time, rfl⟩
    · rw [countP_fetchTime?_flatMap_events]
      exact ⟨Nat.le_refl _, Nat.le_succ _⟩
    · rw [List.countP_append, countP_fetchTime?_flatMap_events]
      exact ⟨Nat.le_succ _, Nat.le_refl _⟩
  -- nothing has been counted before the first cycle
  rw [List.countP_map] at hrefreshes
  simp only [List.countP_map] at hfailures
  replace hrefreshes := hrefreshes.trans (Nat.zero_add _)
  replace hfailures := fun reason => (hfailures reason).trans (Nat.zero_add _)
  refine ⟨hrefreshes.trans haccepted.symm, hfailures, ?_, hbegun.1, hbegun.2⟩
  rw [hrefreshes, List.map_congr_left fun reason _ => hfailures reason]
  exact countP_published_add_failed cs

/-! ## Moments -/

/-- What has happened in a loop that has completed some cycles. -/
structure LoopMoment.Accounts (sink : Sink) (m : LoopMoment) (done : List Cycle) : Prop where
  mode : m.state.sink.mode = sink.mode
  metrics : m.state.metrics = ({} : Registry).recordAll sink.mode (done.map (·.outcome))
  events : m.events = done.flatMap Cycle.events ∨
    (∃ result, m.phase = .returned result) ∧
      ∃ time, m.events = done.flatMap Cycle.events ++ [.fetch time]

/-- As long as a loop goes on no fetch has been cut off. -/
theorem LoopMoment.Accounts.events_of_fetching {sink : Sink} {m : LoopMoment} {done : List Cycle}
    (h : m.Accounts sink done) (hphase : m.phase = .fetching) :
    m.events = done.flatMap Cycle.events := by
  refine h.events.resolve_right fun ⟨⟨result, hreturned⟩, _⟩ => ?_
  rw [hphase] at hreturned
  cases hreturned

namespace LoopSetup

variable (l : LoopSetup) (cancelAt : Option Nat) (sink : Sink)

/-- The cycle that is completed by the next step: the one after which the loop is about to sleep. -/
def completed? (m : LoopMoment) : Option Cycle :=
  match m.phase, (l.step cancelAt m).phase with
  | .fetching, .sleeping c => some c
  | _, _ => none

/-- The cycles that are completed after some waits, in order. -/
def completed : Nat → List Cycle
  | 0 => []
  | waits + 1 =>
    completed waits ++ (l.completed? cancelAt (l.after cancelAt sink waits)).toList

/-- What is seen while the loop waits for what comes next: if it is about to fetch and has not been
cancelled, the fetch has begun by then. -/
def seenMeanwhile (m : LoopMoment) : List LoopEvent :=
  match m.phase, brokenOff? cancelAt m.state.time with
  | .fetching, none => m.events ++ [.fetch m.state.time]
  | _, _ => m.events

/-- What a step does to the accounts: it completes a cycle, or cuts a fetch off, or neither. -/
theorem step_cases (m : LoopMoment) :
    (m.phase = .fetching ∧ l.completed? cancelAt m = some (l.cycle m.state).1 ∧
      l.step cancelAt m =
        { phase := .sleeping (l.cycle m.state).1, state := (l.cycle m.state).2
          events := m.events ++ (l.cycle m.state).1.events }) ∨
    (m.phase = .fetching ∧ l.completed? cancelAt m = none ∧
      (l.step cancelAt m).phase = .returned (.ok ()) ∧
      (l.step cancelAt m).state.sink = m.state.sink ∧
      (l.step cancelAt m).state.metrics = m.state.metrics ∧
      (l.step cancelAt m).events = m.events ++ [.fetch m.state.time]) ∨
    (l.completed? cancelAt m = none ∧
      (l.step cancelAt m).state.sink = m.state.sink ∧
      (l.step cancelAt m).state.metrics = m.state.metrics ∧
      (l.step cancelAt m).events = m.events ∧
      ∀ result, m.phase = .returned result → (l.step cancelAt m).phase = .returned result) := by
  obtain ⟨phase, state, events⟩ := m
  rw [completed?, step]
  rcases phase with - | c | result
  · rcases hnow : brokenOff? cancelAt state.time with - | time
    · rcases hend : brokenOff? cancelAt (l.fetchEnd state) with - | time
      · simp
      · simp [LoopMoment.returnAt]
    · simp [LoopMoment.returnAt]
  · rcases hsleep : brokenOff? cancelAt (l.sleep c state).time with - | time
    · simp [hsleep]
    · simp [hsleep, LoopMoment.returnAt]
  · simp

variable {sink} in
/-- **A step keeps the accounts.** -/
theorem accounts_step {m : LoopMoment} {done : List Cycle} (h : m.Accounts sink done) :
    (l.step cancelAt m).Accounts sink (done ++ (l.completed? cancelAt m).toList) := by
  rcases l.step_cases cancelAt m with ⟨hphase, hdone, hstep⟩ |
    ⟨hphase, hdone, hreturned, hsink, hmetrics, hevents⟩ |
    ⟨hdone, hsink, hmetrics, hevents, hreturned⟩ <;> rw [hdone]
  · -- a cycle is completed
    rw [hstep]
    refine ⟨(l.mode_cycle m.state).trans h.mode, ?_, .inl ?_⟩
    · rw [metrics_cycle, Option.toList_some, List.map_append, List.map_singleton,
        Registry.recordAll_concat, ← h.metrics, h.mode]
    · simp only [Option.toList_some, List.flatMap_append, List.flatMap_singleton,
        h.events_of_fetching hphase]
  · -- a fetch is cut off
    rw [Option.toList_none, List.append_nil]
    refine ⟨hsink ▸ h.mode, hmetrics ▸ h.metrics, .inr ⟨⟨_, hreturned⟩, m.state.time, ?_⟩⟩
    rw [hevents, h.events_of_fetching hphase]
  · rw [Option.toList_none, List.append_nil]
    refine ⟨hsink ▸ h.mode, hmetrics ▸ h.metrics, ?_⟩
    rw [hevents]
    exact h.events.imp_right fun ⟨⟨result, hphase⟩, hcut⟩ => ⟨⟨result, hreturned _ hphase⟩, hcut⟩

/-- **At every moment the accounts are right.** -/
theorem accounts_after (waits : Nat) :
    (l.after cancelAt sink waits).Accounts sink (l.completed cancelAt sink waits) := by
  induction waits with
  | zero => exact ⟨rfl, rfl, .inl rfl⟩
  | succ waits ih =>
    rw [after_succ, completed]
    exact l.accounts_step cancelAt ih

/-- What is seen at a moment, or until the next one, are the completed cycles and at most the fetch
of one more. -/
theorem seen_of_accounts {m : LoopMoment} {done : List Cycle} (h : m.Accounts sink done)
    {seen : List LoopEvent} (hseen : seen ∈ [m.events, seenMeanwhile cancelAt m]) :
    seen = done.flatMap Cycle.events ∨
      ∃ time, seen = done.flatMap Cycle.events ++ [.fetch time] := by
  have hnow := h.events.imp_right And.right
  rcases List.mem_pair.mp hseen with rfl | rfl
  · exact hnow
  · rw [seenMeanwhile]
    split
    · rename_i hphase _
      rw [h.events_of_fetching hphase]
      exact .inr ⟨_, rfl⟩
    · exact hnow

/-- **The accounts balance.** Take a loop with any sink, whatever comes of its fetches and publishes
and however long they take, and a cancellation at any time or none at all. At every moment of it,
and while it waits for the next one, the refreshes that are counted under the mode of the sink are
the publishes that have been seen to succeed, and the failures for a reason are the completed cycles
that failed for this reason. Refreshes and failures for all reasons together are the completed
cycles, and at most one fetch more has begun. So it is at the end of a run, with the cycles that the
run has completed. -/
theorem accounts_balance :
    (∀ cancelAt waits, ∀ seen ∈ [(l.after cancelAt sink waits).events,
        seenMeanwhile cancelAt (l.after cancelAt sink waits)],
      Balances sink.mode (l.after cancelAt sink waits).state.metrics
        (l.completed cancelAt sink waits) seen) ∧
    ∀ cancelAt, Balances sink.mode (l.run sink cancelAt).state.metrics
      (l.run sink cancelAt).cycles (l.run sink cancelAt).events := by
  refine ⟨fun cancelAt waits seen hseen => ?_, fun cancelAt => ?_⟩
  · have h := l.accounts_after cancelAt sink waits
    rw [h.metrics]
    exact balances_recordAll _ _ (seen_of_accounts cancelAt sink h hseen)
  · rw [run, metrics_runFrom]
    refine balances_recordAll _ _ ?_
    rw [Run.events]
    rcases (l.runFrom cancelAt { sink }).cutOff with - | time
    · exact .inl (List.append_nil _)
    · exact .inr ⟨time, rfl⟩

end LoopSetup

end TokenKeeper
