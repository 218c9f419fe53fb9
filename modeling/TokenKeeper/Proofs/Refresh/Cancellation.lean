import Mathlib.Data.Nat.Find
import Mathlib.Logic.Function.Iterate
import TokenKeeper.Proofs.Refresh.Cadence

/-!
# The end of a refresh loop

A loop ends when it is cancelled, and not before. To say so the loop is looked at from one wait to
the next: `step` goes on from a `LoopMoment` to the next one, and waits on the way for the end of a
fetch or of a sleep, or for the cancellation if that comes first. Without a cancellation there is no
end to this, whatever fails (`after_none_mul_two`). With one, the loop goes the same way up to some
moment and has returned from then on, at the time of the cancellation and without an error, and what
it has done is what `LoopSetup.run` says (`returns_exactly_when_cancelled`).

How much it has done is told by the loop that is never cancelled: the cycles that end before the
cancellation (`EndsAfter.lt_iff`), and the fetch that begins before it, and so what is seen of it
(`mem_events_runFrom_iff`).
-/

namespace TokenKeeper

/-- What a loop does next. -/
inductive LoopPhase where
  /-- It fetches. -/
  | fetching
  /-- It sleeps after a cycle. -/
  | sleeping (c : Cycle)
  /-- Nothing, since it has returned. -/
  | returned (result : Except Error Unit)

/-- A loop between two of its waits. -/
structure LoopMoment where
  phase : LoopPhase
  state : LoopState
  /-- What has been seen of the loop. -/
  events : List LoopEvent

/-- The loop returns at a time. -/
def LoopMoment.returnAt (m : LoopMoment) (time : Nat) : LoopMoment :=
  { m with phase := .returned (.ok ()), state := { m.state with time } }

/-- When something is seen. -/
def LoopEvent.time : LoopEvent → Nat
  | fetch time => time
  | publish time _ _ => time

namespace LoopSetup

variable (l : LoopSetup) (s : LoopState)

/-! ## From one wait to the next -/

/-- When a wait until a time is broken off by the cancellation, if it is. At equal times the
cancellation goes first. -/
def brokenOff? (cancelAt : Option Nat) (waitsUntil : Nat) : Option Nat :=
  cancelAt.filter (· ≤ waitsUntil)

theorem brokenOff?_of_le {cancelAt waitsUntil : Nat} (h : cancelAt ≤ waitsUntil) :
    brokenOff? (some cancelAt) waitsUntil = some cancelAt := by
  rw [brokenOff?, Option.filter_some, if_pos (decide_eq_true h)]

theorem brokenOff?_of_not_le {cancelAt waitsUntil : Nat} (h : ¬ cancelAt ≤ waitsUntil) :
    brokenOff? (some cancelAt) waitsUntil = none := by
  rw [brokenOff?, Option.filter_some, if_neg (mt of_decide_eq_true h)]

/-- Go on to the next moment. The loop finds out about the cancellation when it is about to fetch,
while it fetches and while it sleeps. -/
def step (cancelAt : Option Nat) (m : LoopMoment) : LoopMoment :=
  match m.phase with
  | .fetching =>
    match brokenOff? cancelAt m.state.time with
    | some _ => m.returnAt m.state.time
    | none =>
      match brokenOff? cancelAt (l.fetchEnd m.state) with
      | some time =>
        { m with
          state := { m.state with fetches := m.state.fetches + 1 }
          events := m.events ++ [.fetch m.state.time] : LoopMoment }.returnAt time
      | none =>
        { phase := .sleeping (l.cycle m.state).1, state := (l.cycle m.state).2
          events := m.events ++ (l.cycle m.state).1.events }
  | .sleeping c =>
    match brokenOff? cancelAt (l.sleep c m.state).time with
    | some time => m.returnAt time
    | none => { m with phase := .fetching, state := l.sleep c m.state }
  | .returned _ => m

/-- A loop that has just been started. -/
def firstMoment (sink : Sink) : LoopMoment :=
  { phase := .fetching, state := { sink }, events := [] }

/-- A loop after some of its waits. -/
def after (cancelAt : Option Nat) (sink : Sink) (waits : Nat) : LoopMoment :=
  (l.step cancelAt)^[waits] (firstMoment sink)

theorem after_succ (cancelAt : Option Nat) (sink : Sink) (waits : Nat) :
    l.after cancelAt sink (waits + 1) = l.step cancelAt (l.after cancelAt sink waits) :=
  Function.iterate_succ_apply' _ _ _

/-- A loop that has returned does nothing any more. -/
theorem step_returned {cancelAt : Option Nat} {m : LoopMoment} {result : Except Error Unit}
    (h : m.phase = .returned result) : l.step cancelAt m = m := by
  rw [step, h]

theorem after_of_returned {cancelAt : Option Nat} {sink : Sink} {waits : Nat}
    {result : Except Error Unit} (h : (l.after cancelAt sink waits).phase = .returned result)
    {later : Nat} (hle : waits ≤ later) :
    l.after cancelAt sink later = l.after cancelAt sink waits := by
  induction hle with
  | refl => rfl
  | step _ ih => rw [after_succ, ih, l.step_returned h]

/-- Two waits of a loop that is not cancelled are a turn. -/
theorem step_step_none (events : List LoopEvent) :
    l.step none (l.step none { phase := .fetching, state := s, events }) =
      { phase := .fetching, state := (l.turn s).2, events := events ++ (l.turn s).1.events } := by
  rw [turn_eq]
  rfl

/-- **A loop that is not cancelled goes on for ever**, from cycle to cycle. -/
theorem after_none_mul_two (sink : Sink) (n : Nat) :
    l.after none sink (2 * n) =
      { phase := .fetching, state := l.stateAt { sink } n
        events := ((List.range n).map (l.cycleAt { sink })).flatMap Cycle.events } := by
  induction n with
  | zero => rfl
  | succ n ih =>
    have hcycle : (l.turn (l.stateAt { sink } n)).1 = l.cycleAt { sink } n := by
      rw [turn_eq, cycleAt]
    rw [Nat.mul_succ, after_succ, after_succ, ih, step_step_none, stateAt_succ, List.range_succ,
      List.map_append, List.flatMap_append, hcycle, List.map_singleton, List.flatMap_singleton]

theorem phase_after_none_ne (sink : Sink) (waits : Nat) (result : Except Error Unit) :
    (l.after none sink waits).phase ≠ .returned result := by
  intro h
  -- it would stay so, but after twice as many waits the loop is about to fetch
  have hlater := l.after_of_returned h (Nat.le_mul_of_pos_left waits Nat.two_pos)
  rw [after_none_mul_two] at hlater
  rw [← hlater] at h
  cases h

/-- A cancellation changes nothing until the loop returns because of it. -/
theorem step_some_cases (cancelAt : Nat) (m : LoopMoment) :
    l.step (some cancelAt) m = l.step none m ∨
      ∃ result, (l.step (some cancelAt) m).phase = .returned result := by
  unfold step
  rcases m.phase with - | c | result
  · rcases hnow : brokenOff? (some cancelAt) m.state.time with - | time
    · rcases hfetch : brokenOff? (some cancelAt) (l.fetchEnd m.state) with - | time
      · exact .inl rfl
      · exact .inr ⟨_, rfl⟩
    · exact .inr ⟨_, rfl⟩
  · rcases hsleep : brokenOff? (some cancelAt) (l.sleep c m.state).time with - | time <;>
      simp only [hsleep]
    · exact .inl rfl
    · exact .inr ⟨_, rfl⟩
  · exact .inl rfl

theorem after_some_eq_after_none {cancelAt : Nat} {sink : Sink} {waits : Nat}
    (h : ∀ result, (l.after (some cancelAt) sink waits).phase ≠ .returned result) :
    l.after (some cancelAt) sink waits = l.after none sink waits := by
  induction waits with
  | zero => rfl
  | succ waits ih =>
    have hbefore : ∀ result, (l.after (some cancelAt) sink waits).phase ≠ .returned result := by
      intro result hreturned
      refine h result ?_
      rw [after_succ, l.step_returned hreturned, hreturned]
    rw [after_succ] at h
    rw [after_succ, after_succ]
    rcases l.step_some_cases cancelAt (l.after (some cancelAt) sink waits) with hsame | ⟨result, hr⟩
    · rw [hsame, ih hbefore]
    · exact absurd hr (h result)

/-! ## How a cancelled loop ends -/

theorem runFrom_of_le {cancelAt : Nat} (h : cancelAt ≤ s.time) :
    l.runFrom cancelAt s = { cycles := [], cutOff := none, state := s } := by
  rw [runFrom, if_pos h]

/-- What is seen of a run with a cycle before it. -/
theorem Run.events_cons (c : Cycle) (r : Run) : (r.cons c).events = c.events ++ r.events := by
  simp only [Run.events, Run.cycles_cons, Run.cutOff_cons, List.flatMap_cons, List.append_assoc]

/-- The end of a loop that is cancelled at a time, before which `events` were seen, and then what is
seen of a run. -/
def Run.final (r : Run) (events : List LoopEvent) (time : Nat) : LoopMoment :=
  { phase := .returned (.ok ()), state := { r.state with time }, events := events ++ r.events }

/-- A cycle that ends before the cancellation is made as if there were none. -/
theorem step_fetching {cancelAt : Nat} (hstop : ¬ cancelAt ≤ s.time)
    (hend : ¬ cancelAt ≤ l.fetchEnd s) (events : List LoopEvent) :
    l.step (some cancelAt) { phase := .fetching, state := s, events } =
      { phase := .sleeping (l.cycle s).1, state := (l.cycle s).2
        events := events ++ (l.cycle s).1.events } := by
  rw [step]
  simp only [brokenOff?_of_not_le hstop, brokenOff?_of_not_le hend]

/-- So is a sleep that ends before it. -/
theorem step_sleeping {cancelAt : Nat} {c : Cycle} (hsleep : ¬ cancelAt ≤ (l.sleep c s).time)
    (events : List LoopEvent) :
    l.step (some cancelAt) { phase := .sleeping c, state := s, events } =
      { phase := .fetching, state := l.sleep c s, events } := by
  rw [step]
  simp only [brokenOff?_of_not_le hsleep]

/-- **A loop that is cancelled returns**, and by then has done what its run says. -/
theorem exists_iterate_step_eq_final (cancelAt : Nat) (events : List LoopEvent) :
    ∃ waits, (l.step (some cancelAt))^[waits] { phase := .fetching, state := s, events } =
      (l.runFrom cancelAt s).final events (max s.time cancelAt) := by
  fun_induction runFrom l cancelAt s generalizing events with
  | case1 s hstop =>
    refine ⟨1, ?_⟩
    rw [Function.iterate_one, step, Nat.max_eq_left hstop]
    simp only [brokenOff?_of_le hstop, Run.final, Run.events, LoopMoment.returnAt]
    simp
  | case2 s hstop hcut =>
    refine ⟨1, ?_⟩
    have hend : cancelAt ≤ l.fetchEnd s := hcut
    rw [Function.iterate_one, step, Nat.max_eq_right (by omega)]
    simp only [brokenOff?_of_not_le hstop, brokenOff?_of_le hend, Run.final, Run.events,
      LoopMoment.returnAt]
    simp
  | case3 s hstop hcut ih =>
    have hfirst := l.step_fetching s hstop hcut events
    simp only [turn_eq] at ih ⊢
    by_cases hsleep : cancelAt ≤ (l.sleep (l.cycle s).1 (l.cycle s).2).time
    · refine ⟨2, ?_⟩
      rw [Function.iterate_succ_apply, hfirst, l.runFrom_of_le _ hsleep,
        Nat.max_eq_right (by omega), Function.iterate_one, step]
      simp only [brokenOff?_of_le hsleep]
      simp [LoopMoment.returnAt, Run.final, Run.events, Run.cons, sleep]
    · obtain ⟨waits, hwaits⟩ := ih (events ++ (l.cycle s).1.events)
      refine ⟨waits + 2, ?_⟩
      rw [Function.iterate_add_apply, Function.iterate_succ_apply, Function.iterate_one, hfirst,
        l.step_sleeping _ hsleep, hwaits, Nat.max_eq_right (by omega),
        Nat.max_eq_right (by omega)]
      simp only [Run.final, Run.events_cons, Run.state_cons, List.append_assoc]

/-! ## How much a cancelled loop has done -/

/-- Cycles do not overlap. -/
theorem finish_lt_start {i j : Nat} (hij : i < j) :
    (l.cycleAt s i).finish < (l.cycleAt s j).start := by
  have hnext : (l.cycleAt s i).finish < (l.cycleAt s (i + 1)).start := by
    have hsleep := l.policy.one_second_le_sleepFor (l.cycleAt s i).wake
    rw [start_succ]
    omega
  rcases Nat.lt_or_eq_of_le (show i + 1 ≤ j from hij) with hlt | rfl
  · have hlater := l.start_add_le_start s hlt
    exact Nat.lt_trans hnext (by omega)
  · exact hnext

variable {l s} in
/-- The cycles behind a cancelled loop are those that end before the cancellation. -/
theorem EndsAfter.lt_iff {cancelAt n : Nat} {r : Run} (h : l.EndsAfter s cancelAt r n) (i : Nat) :
    i < n ↔ (l.cycleAt s i).finish < cancelAt := by
  refine ⟨h.finish_lt i, fun hfinish => Nat.lt_of_not_le fun hle => ?_⟩
  have hlate := h.le_finish
  rcases Nat.lt_or_eq_of_le hle with hlt | rfl
  · have hbefore := l.finish_lt_start s hlt
    have hfetch := l.start_le_finish s i
    omega
  · omega

/-- Of a cycle its fetch is seen when it starts, and its publish when it ends. -/
theorem time_of_mem_events {i : Nat} {e : LoopEvent} (h : e ∈ (l.cycleAt s i).events) :
    e = .fetch (l.cycleAt s i).start ∨ e.time = (l.cycleAt s i).finish := by
  rw [Cycle.events] at h
  split at h
  · exact .inl (List.mem_singleton.mp h)
  · rcases List.mem_cons.mp h with h | h
    · exact .inl h
    · exact .inr (by rw [List.mem_singleton.mp h]; rfl)
  · rcases List.mem_cons.mp h with h | h
    · exact .inl h
    · exact .inr (by rw [List.mem_singleton.mp h]; rfl)

theorem fetch_mem_events (i : Nat) : .fetch (l.cycleAt s i).start ∈ (l.cycleAt s i).events := by
  rw [Cycle.events]
  split <;> exact List.mem_cons_self

/-- **What is seen of a cancelled loop** is what is seen before that time of the loop that is never
cancelled. -/
theorem mem_events_runFrom_iff (cancelAt : Nat) (e : LoopEvent) :
    e ∈ (l.runFrom cancelAt s).events ↔
      e.time < cancelAt ∧ ∃ i, e ∈ (l.cycleAt s i).events := by
  obtain ⟨n, h⟩ := l.exists_endsAfter s cancelAt
  have hmem : e ∈ (l.runFrom cancelAt s).events ↔
      (∃ i < n, e ∈ (l.cycleAt s i).events) ∨
        (l.cycleAt s n).start < cancelAt ∧ e = .fetch (l.cycleAt s n).start := by
    rw [Run.events, h.cycles, h.cutOff, List.mem_append, List.flatMap_map, List.mem_flatMap]
    split <;> simp [*]
  rw [hmem]
  constructor
  · rintro (⟨i, hi, he⟩ | ⟨hstart, rfl⟩)
    · have hfinish := h.finish_lt i hi
      have hfetch := l.start_le_finish s i
      refine ⟨?_, i, he⟩
      rcases l.time_of_mem_events s he with rfl | htime
      · exact Nat.lt_of_le_of_lt hfetch hfinish
      · rwa [htime]
    · exact ⟨hstart, n, l.fetch_mem_events s n⟩
  · rintro ⟨htime, i, he⟩
    by_cases hi : i < n
    · exact .inl ⟨i, hi, he⟩
    · -- the cycle does not end in time, so its fetch is seen, and it is the next one
      have hlate := mt (h.lt_iff i).mpr hi
      rcases l.time_of_mem_events s he with rfl | hfinish
      · have hnext : i = n := by
          refine Nat.le_antisymm (Nat.le_of_not_lt fun hlt => ?_) (Nat.le_of_not_lt hi)
          have hbefore := l.finish_lt_start s hlt
          exact absurd h.le_finish (Nat.not_le_of_lt (Nat.lt_trans hbefore htime))
        rw [← hnext]
        exact .inr ⟨htime, rfl⟩
      · rw [hfinish] at htime
        exact absurd htime hlate

/-! ## The theorem -/

/-- **Cancellation is the only exit, and it is final.** Take a loop with any policy, whatever comes
of its fetches and publishes and however long they take. As long as nobody cancels it, it never
returns: it goes on from cycle to cycle for ever. If it is cancelled at some time, it does up to
some wait what it would have done anyway. From then on it has returned, at that time and without an
error, and nothing changes any more. By then the cycles that end before the cancellation are behind
it, and what is seen of it is all that happens before the cancellation, so no fetch and no publish
begins then or later. A loop that is cancelled before it starts does nothing at all. -/
theorem returns_exactly_when_cancelled (sink : Sink) :
    (∀ waits result, (l.after none sink waits).phase ≠ .returned result) ∧
    (∀ n, (l.after none sink (2 * n)).phase = .fetching ∧
      (l.after none sink (2 * n)).state = l.stateAt { sink } n) ∧
    (∀ cancelAt, ∃ returned,
      (∀ waits < returned, l.after (some cancelAt) sink waits = l.after none sink waits) ∧
      ∀ waits, returned ≤ waits → l.after (some cancelAt) sink waits =
        { phase := .returned (.ok ())
          state := { (l.run sink cancelAt).state with time := cancelAt }
          events := (l.run sink cancelAt).events }) ∧
    (∀ cancelAt, ∃ n, l.EndsAfter { sink } cancelAt (l.run sink cancelAt) n) ∧
    (∀ cancelAt e, e ∈ (l.run sink cancelAt).events ↔
      e.time < cancelAt ∧ ∃ i, e ∈ (l.cycleAt { sink } i).events) ∧
    l.run sink 0 = { cycles := [], cutOff := none, state := { sink } } := by
  refine ⟨l.phase_after_none_ne sink, fun n => ?_, fun cancelAt => ?_,
    l.exists_endsAfter { sink }, l.mem_events_runFrom_iff { sink },
    l.runFrom_of_le _ (Nat.zero_le _)⟩
  · rw [after_none_mul_two]
    exact ⟨rfl, rfl⟩
  · obtain ⟨last, hlast⟩ := l.exists_iterate_step_eq_final { sink } cancelAt []
    rw [Nat.zero_max] at hlast
    have hreturned : ∃ waits result,
        (l.after (some cancelAt) sink waits).phase = .returned result :=
      ⟨last, .ok (), congrArg LoopMoment.phase hlast⟩
    classical
    refine ⟨Nat.find hreturned, fun waits hlt => ?_, fun waits hle => ?_⟩
    · exact l.after_some_eq_after_none fun result h => Nat.find_min hreturned hlt ⟨result, h⟩
    · obtain ⟨result, hfirst⟩ := Nat.find_spec hreturned
      have hsame := l.after_of_returned hfirst (Nat.find_min' hreturned
        ⟨.ok (), congrArg LoopMoment.phase hlast⟩)
      rw [l.after_of_returned hfirst hle, ← hsame]
      exact hlast

end LoopSetup

end TokenKeeper
