import TokenKeeper.Proofs.Refresh.Timeline

/-!
# The cadence of the refresh loop

When a loop fetches again. What a cycle asks for is said in terms of its fetch and its publish alone
(`due`), and of that and one second the loop sleeps for the longer one. The timer counts whole
milliseconds, so the next fetch begins no earlier than that and less than a millisecond later
(`next_fetch_begins_when_due`). Whatever fails, and however short-lived the tokens are, two fetches
are a second apart (`start_add_le_start`), and so are those that are seen of a loop that is
cancelled (`pairwise_fetchTimes`).
-/

namespace TokenKeeper

/-- When a fetch is seen to begin. -/
def LoopEvent.fetchTime? : LoopEvent → Option Nat
  | fetch time => some time
  | publish .. => none

namespace LoopSetup

variable (l : LoopSetup) (s : LoopState)

/-! ## What a cycle asks for -/

/-- The time until the next fetch that the cycle from a state asks for: five seconds if its fetch or
its publish fails, the margin if the token that it publishes never expires, and otherwise what is
left at its end of the time until the margin before the expiry. -/
def due : Span :=
  match l.fetched s with
  | .error _ => .seconds 5
  | .ok t =>
    match (l.publish s t).1, t.expiry with
    | .error _, _ => .seconds 5
    | .ok (), none => l.policy.margin
    | .ok (), some e =>
      ⟨(e.nanos - (l.clockAt (l.fetchEnd s)).nanos - l.policy.margin.nanos).toNat⟩

/-- The instant before which the fetch that follows a cycle is not to begin: the cycle has asked for
it by then, and a second has passed. -/
def dueAt (n : Nat) : Instant :=
  (l.clockAt (l.cycleAt s n).finish).after ((l.due (l.stateAt s n)).max (.seconds 1))

variable {l} in
/-- A loop that retries every five seconds is woken when it asks to be. -/
theorem wake_eq_due (hretry : l.policy.retryInterval = .seconds 5) :
    (l.cycle s).1.wake = l.due s := by
  rcases l.cycle_cases s with ⟨e, hf, hc⟩ | ⟨t, e, hf, hp, hc⟩ | ⟨t, hf, hp, hc⟩
  · simp only [hc, fetchFailure, hretry, due, hf]
  · simp only [hc, publishFailure, hretry, due, hf, hp]
  · simp only [hc, publication, due, hf, hp, RefreshPolicy.nextWake]
    rcases t.expiry with - | e
    · rfl
    · refine congrArg Span.mk ?_
      simp only [Instant.since]
      omega

/-! ## When the next fetch begins -/

/-- The sleep after a cycle is long enough and not a millisecond too long. -/
theorem start_succ_between (n : Nat) :
    (l.clockAt (l.cycleAt s n).finish).after ((l.cycleAt s n).wake.max (.seconds 1)) ≤
        l.clockAt (l.cycleAt s (n + 1)).start ∧
      l.clockAt (l.cycleAt s (n + 1)).start <
        ((l.clockAt (l.cycleAt s n).finish).after
          ((l.cycleAt s n).wake.max (.seconds 1))).after (.millis 1) := by
  have hlower := ((l.cycleAt s n).wake.max (.seconds 1)).le_ceilMillis_mul
  have hupper := ((l.cycleAt s n).wake.max (.seconds 1)).ceilMillis_mul_lt
  rw [start_succ]
  simp only [RefreshPolicy.sleepFor, RefreshPolicy.minDelay, clockAt, Instant.le_iff,
    Instant.lt_iff, Instant.nanos_after, Span.nanos_millis, Nat.add_mul]
  omega

/-- The next fetch begins a second after the last one did, or later. -/
theorem start_add_le_start_succ (n : Nat) :
    (l.cycleAt s n).start + 1000 ≤ (l.cycleAt s (n + 1)).start := by
  have hfetch := l.start_le_finish s n
  have hsleep := l.policy.one_second_le_sleepFor (l.cycleAt s n).wake
  rw [start_succ]
  omega

/-- Any two fetches begin at least a second apart. -/
theorem start_add_le_start {i j : Nat} (hij : i < j) :
    (l.cycleAt s i).start + 1000 ≤ (l.cycleAt s j).start := by
  induction hij with
  | refl => exact l.start_add_le_start_succ s i
  | @step j hij ih =>
    have hnext : (l.cycleAt s j).start + 1000 ≤ (l.cycleAt s j.succ).start :=
      l.start_add_le_start_succ s j
    omega

/-- **The cadence.** Take a loop with any margin, whatever comes of its fetches and publishes and
however long they take. Each fetch after the first begins when the cycle before it has asked for it,
or after one second if that is later; the timer makes this later by less than a millisecond. After a
publish that failed it begins five seconds later, whatever the expiry of the token. Any two fetches
begin at least a second apart. -/
theorem next_fetch_begins_when_due (margin : Span) (source : Source)
    (refusals : Nat → Option Error) (startedAt : Instant) (s : LoopState) :
    let l : LoopSetup := { policy := { margin }, source, refusals, startedAt }
    (∀ n, l.dueAt s n ≤ l.clockAt (l.cycleAt s (n + 1)).start ∧
      l.clockAt (l.cycleAt s (n + 1)).start < (l.dueAt s n).after (.millis 1)) ∧
    (∀ n t e, l.fetched (l.stateAt s n) = .ok t → (l.publish (l.stateAt s n) t).1 = .error e →
      (l.cycleAt s (n + 1)).start = (l.cycleAt s n).finish + 5000) ∧
    ∀ i j, i < j → (l.cycleAt s i).start + 1000 ≤ (l.cycleAt s j).start := by
  intro l
  have hwake : ∀ n, (l.cycleAt s n).wake = l.due (l.stateAt s n) := fun n =>
    wake_eq_due (l.stateAt s n) rfl
  refine ⟨fun n => ?_, fun n t e hf hp => ?_, fun i j => l.start_add_le_start s⟩
  · rw [dueAt, ← hwake]
    exact l.start_succ_between s n
  · rw [start_succ, hwake, due, hf]
    simp only [hp]
    exact congrArg _ (Span.ceilMillis_seconds 5)

/-! ## What is seen of a run -/

/-- The fetches that are seen of a run are those of its cycles and the one that was cut off. -/
theorem fetchTimes_events (r : Run) :
    r.events.filterMap LoopEvent.fetchTime? = r.cycles.map Cycle.start ++ r.cutOff.toList := by
  have hcycle : ∀ c : Cycle, c.events.filterMap LoopEvent.fetchTime? = [c.start] := by
    intro c
    rw [Cycle.events]
    split <;> rfl
  rw [Run.events, List.filterMap_append, List.filterMap_flatMap]
  simp only [hcycle, ← List.map_eq_flatMap]
  rcases r.cutOff with - | time <;> rfl

/-- Also of a loop that is cancelled any two fetches are seen to begin at least a second apart. -/
theorem pairwise_fetchTimes (cancelAt : Nat) :
    ((l.runFrom cancelAt s).events.filterMap LoopEvent.fetchTime?).Pairwise
      fun time later => time + 1000 ≤ later := by
  obtain ⟨n, h⟩ := l.exists_endsAfter s cancelAt
  rw [fetchTimes_events, h.cycles, h.cutOff, List.map_map, List.pairwise_append, List.pairwise_map]
  refine ⟨List.pairwise_lt_range.imp fun hij => l.start_add_le_start s hij, ?_, ?_⟩
  · split
    · exact List.pairwise_singleton _ _
    · exact .nil
  · intro time htime later hlater
    obtain ⟨i, hi, rfl⟩ := List.mem_map.mp htime
    split at hlater
    · obtain rfl := List.mem_singleton.mp hlater
      exact l.start_add_le_start s (List.mem_range.mp hi)
    · cases hlater

end LoopSetup

end TokenKeeper
