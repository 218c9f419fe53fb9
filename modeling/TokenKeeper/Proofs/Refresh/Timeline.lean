import TokenKeeper.Refresh.Loop

/-!
# The time line of a refresh loop

What every proof about the loop starts from. `cycle_cases` says once what a cycle can do: its fetch
fails, or its publish fails, or a token is published; time, counters, sink and metrics after it are
read off the case. In a loop that is never cancelled cycles follow each other with sleep between
them, and `IsBetween` tells which state somebody finds who looks at an instant. A loop that is
cancelled has gone through the first of these cycles (`exists_endsAfter`), and what every turn
keeps holds at its end (`runFrom_induction`).
-/

namespace TokenKeeper.LoopSetup

variable (l : LoopSetup) (s : LoopState)

/-! ## One cycle -/

/-- When the fetch of the next cycle ends. -/
def fetchEnd : Nat :=
  s.time + (l.source s.fetches).latency

/-- What comes of the fetch of the next cycle. -/
def fetched : Except Error Token :=
  (l.source s.fetches).result (l.clockAt (l.fetchEnd s))

/-- A cycle whose fetch fails with an error, and the state after it. -/
def fetchFailure (e : Error) : Cycle × LoopState :=
  ({ start := s.time, finish := l.fetchEnd s, outcome := .fetchFailed e
     wake := l.policy.retryInterval },
    { s with
      time := l.fetchEnd s, fetches := s.fetches + 1
      metrics := s.metrics.recordFailure s.sink.mode e.reason })

/-- A cycle in which publishing a token fails with an error, and the state after it. -/
def publishFailure (t : Token) (e : Error) : Cycle × LoopState :=
  ({ start := s.time, finish := l.fetchEnd s, outcome := .publishFailed t e
     wake := l.policy.retryInterval },
    { time := l.fetchEnd s, fetches := s.fetches + 1, publishes := s.publishes + 1
      sink := (l.publish s t).2
      metrics := s.metrics.recordFailure s.sink.mode e.reason })

/-- A cycle in which a token is published, and the state after it. -/
def publication (t : Token) : Cycle × LoopState :=
  ({ start := s.time, finish := l.fetchEnd s, outcome := .published t
     wake := l.policy.nextWake t.expiry (l.clockAt (l.fetchEnd s)) },
    { time := l.fetchEnd s, fetches := s.fetches + 1, publishes := s.publishes + 1
      sink := (l.publish s t).2
      metrics := s.metrics.recordRefresh s.sink.mode (t.expiry.map Instant.unixSeconds) })

/-- **The cases of a cycle.** All that a cycle does follows from what comes of its fetch and of its
publish. -/
theorem cycle_cases :
    (∃ e, l.fetched s = .error e ∧ l.cycle s = l.fetchFailure s e) ∨
    (∃ t e, l.fetched s = .ok t ∧ (l.publish s t).1 = .error e ∧
      l.cycle s = l.publishFailure s t e) ∨
    (∃ t, l.fetched s = .ok t ∧ (l.publish s t).1 = .ok () ∧ l.cycle s = l.publication s t) := by
  rcases hf : l.fetched s with e | t
  · refine .inl ⟨e, rfl, ?_⟩
    simp only [fetched, fetchEnd] at hf
    simp only [cycle, hf, fetchFailure, fetchEnd]
  · refine .inr ?_
    simp only [fetched, fetchEnd] at hf
    -- the cycle publishes in a state that differs from `s` only where publishing does not look
    rcases hp : (l.publish s t).1 with e | u
    · refine .inl ⟨t, e, rfl, hp, ?_⟩
      simp only [publish] at hp
      simp only [cycle, hf, publish, hp, publishFailure, fetchEnd]
    · refine .inr ⟨t, rfl, hp, ?_⟩
      simp only [publish] at hp
      simp only [cycle, hf, publish, hp, publication, fetchEnd]

@[simp] theorem start_cycle : (l.cycle s).1.start = s.time := by
  rcases l.cycle_cases s with ⟨e, -, h⟩ | ⟨t, e, -, -, h⟩ | ⟨t, -, -, h⟩ <;> rw [h] <;> rfl

@[simp] theorem finish_cycle : (l.cycle s).1.finish = l.fetchEnd s := by
  rcases l.cycle_cases s with ⟨e, -, h⟩ | ⟨t, e, -, -, h⟩ | ⟨t, -, -, h⟩ <;> rw [h] <;> rfl

/-- A cycle that published a token is the one that does so. -/
theorem cycle_of_published {t : Token} (h : (l.cycle s).1.outcome = .published t) :
    l.fetched s = .ok t ∧ (l.publish s t).1 = .ok () ∧ l.cycle s = l.publication s t := by
  rcases l.cycle_cases s with ⟨e, -, hc⟩ | ⟨t', e, -, -, hc⟩ | ⟨t', hf, hp, hc⟩ <;> rw [hc] at h
  · cases h
  · cases h
  · obtain rfl : t' = t := CycleOutcome.published.inj h
    exact ⟨hf, hp, hc⟩

/-- Publishing does not make another sink of a sink. -/
theorem mode_publish (t : Token) : (l.publish s t).2.mode = s.sink.mode := by
  rw [publish]
  cases l.refusals s.publishes with
  | none => exact Sink.mode_publish t s.sink
  | some e => rfl

theorem mode_cycle : (l.cycle s).2.sink.mode = s.sink.mode := by
  rcases l.cycle_cases s with ⟨e, -, hc⟩ | ⟨t, e, -, -, hc⟩ | ⟨t, -, -, hc⟩ <;> rw [hc]
  · rfl
  · exact l.mode_publish s t
  · exact l.mode_publish s t

/-! ## One cycle after the other -/

theorem stateAt_zero : l.stateAt s 0 = s := rfl

theorem stateAt_succ (n : Nat) : l.stateAt s (n + 1) = (l.turn (l.stateAt s n)).2 := rfl

/-- The fetch of a cycle takes its time. -/
theorem start_le_finish (n : Nat) : (l.cycleAt s n).start ≤ (l.cycleAt s n).finish := by
  simp only [cycleAt, start_cycle, finish_cycle, fetchEnd]
  omega

/-- After a cycle the loop sleeps for the wait, in whole milliseconds, and starts over. -/
theorem start_succ (n : Nat) :
    (l.cycleAt s (n + 1)).start =
      (l.cycleAt s n).finish + (l.policy.sleepFor (l.cycleAt s n).wake).ceilMillis := by
  simp only [cycleAt, start_cycle, finish_cycle, stateAt, turn, sleep, time_cycle, fetchEnd]

/-- Sleeping changes nothing but the time. -/
@[simp] theorem sink_sleep (c : Cycle) : (l.sleep c s).sink = s.sink := by
  -- a state that is taken apart is compared by its sink alone, and not by its times
  cases s
  rfl

@[simp] theorem metrics_sleep (c : Cycle) : (l.sleep c s).metrics = s.metrics := by
  cases s
  rfl

theorem turn_eq : l.turn s = ((l.cycle s).1, l.sleep (l.cycle s).1 (l.cycle s).2) := by
  unfold turn
  rcases l.cycle s with ⟨c, s'⟩
  rfl

@[simp] theorem sink_stateAt_succ (n : Nat) :
    (l.stateAt s (n + 1)).sink = (l.cycle (l.stateAt s n)).2.sink := by
  simp only [stateAt, turn_eq, sink_sleep]

/-! ## Instants -/

/-- Whether an instant lies between the end of the cycle before the one with a number and the end
of that one. At such an instant the sink is as the state before the cycle has it. An instant at
which a cycle ends belongs to both sides, since somebody may look just before it or just after. -/
def IsBetween (n : Nat) (now : Instant) : Prop :=
  (∀ m, n = m + 1 → l.clockAt (l.cycleAt s m).finish ≤ now) ∧
    now ≤ l.clockAt (l.cycleAt s n).finish

/-- No instant is left out: each one from the end of a cycle to the end of a later one lies between
two cycles there. -/
theorem exists_isBetween {i j : Nat} (hij : i < j) {now : Instant}
    (hfrom : l.clockAt (l.cycleAt s i).finish ≤ now)
    (hto : now ≤ l.clockAt (l.cycleAt s j).finish) :
    ∃ k, i < k ∧ k ≤ j ∧ l.IsBetween s k now := by
  induction hij with
  | refl =>
    refine ⟨i + 1, Nat.lt_succ_self i, Nat.le_refl _, fun m hm => ?_, hto⟩
    obtain rfl : i = m := Nat.succ.inj hm
    exact hfrom
  | @step j hij ih =>
    by_cases h : now ≤ l.clockAt (l.cycleAt s j).finish
    · obtain ⟨k, hik, hkj, hk⟩ := ih h
      exact ⟨k, hik, Nat.le_succ_of_le hkj, hk⟩
    · refine ⟨j + 1, Nat.lt_succ_of_lt hij, Nat.le_refl _, fun m hm => ?_, hto⟩
      obtain rfl : j = m := Nat.succ.inj hm
      simp only [Instant.le_iff] at h ⊢
      omega

/-! ## Runs -/

theorem Run.cycles_cons (c : Cycle) (r : Run) : (r.cons c).cycles = c :: r.cycles := rfl

theorem Run.cutOff_cons (c : Cycle) (r : Run) : (r.cons c).cutOff = r.cutOff := by
  cases r
  rfl

theorem Run.state_cons (c : Cycle) (r : Run) : (r.cons c).state = r.state := by
  cases r
  rfl

/-- A loop that has made a turn goes on as it would have done anyway. -/
theorem stateAt_turn (n : Nat) : l.stateAt (l.turn s).2 n = l.stateAt s (n + 1) := by
  induction n with
  | zero => rfl
  | succ n ih => rw [stateAt_succ, ih, stateAt_succ l s (n + 1)]

theorem cycleAt_turn (n : Nat) : l.cycleAt (l.turn s).2 n = l.cycleAt s (n + 1) := by
  rw [cycleAt, stateAt_turn, cycleAt]

/-- Whether a run is what the loop that is never cancelled does in `n` cycles, and those are the
ones that end before a time. -/
structure EndsAfter (cancelAt : Nat) (r : Run) (n : Nat) : Prop where
  cycles : r.cycles = (List.range n).map (l.cycleAt s)
  finish_lt : ∀ i < n, (l.cycleAt s i).finish < cancelAt
  le_finish : cancelAt ≤ (l.cycleAt s n).finish
  /-- The fetch that was cut off is the next one, if there was one. -/
  cutOff : r.cutOff =
    if (l.cycleAt s n).start < cancelAt then some (l.cycleAt s n).start else none
  sink : r.state.sink = (l.stateAt s n).sink
  metrics : r.state.metrics = (l.stateAt s n).metrics

/-- **What a cancelled loop has done** is what the loop that is never cancelled does by then. -/
theorem exists_endsAfter (cancelAt : Nat) :
    ∃ n, l.EndsAfter s cancelAt (l.runFrom cancelAt s) n := by
  have hstart : ∀ s : LoopState, (l.cycleAt s 0).start = s.time := by
    intro s
    rw [cycleAt, start_cycle, stateAt_zero]
  have hfinish : ∀ s : LoopState, (l.cycleAt s 0).finish = l.fetchEnd s := by
    intro s
    rw [cycleAt, finish_cycle, stateAt_zero]
  fun_induction runFrom l cancelAt s with
  | case1 s hstop =>
    refine ⟨0, rfl, fun i hi => absurd hi i.not_lt_zero, ?_, ?_, rfl, rfl⟩
    · rw [hfinish]
      exact Nat.le_add_right_of_le hstop
    · rw [hstart, if_neg (by omega)]
  | case2 s hstop hcut =>
    refine ⟨0, rfl, fun i hi => absurd hi i.not_lt_zero, ?_, ?_, rfl, rfl⟩
    · rw [hfinish]
      exact hcut
    · rw [hstart, if_pos (by omega)]
  | case3 s hstop hcut ih =>
    obtain ⟨n, h⟩ := ih
    have hfirst : (l.turn s).1 = l.cycleAt s 0 := by
      rw [turn_eq, cycleAt, stateAt_zero]
    have hrest : l.cycleAt (l.turn s).2 = l.cycleAt s ∘ Nat.succ := funext (l.cycleAt_turn s)
    refine ⟨n + 1, ?_, fun i hi => ?_, ?_, ?_, ?_, ?_⟩
    · rw [Run.cycles_cons, h.cycles, hfirst, hrest, List.range_succ_eq_map, List.map_cons,
        List.map_map]
    · rcases i with - | i
      · rw [hfinish]
        exact Nat.lt_of_not_le hcut
      · rw [← cycleAt_turn]
        exact h.finish_lt i (Nat.lt_of_succ_lt_succ hi)
    · rw [← cycleAt_turn]
      exact h.le_finish
    · rw [Run.cutOff_cons, h.cutOff, cycleAt_turn]
    · rw [Run.state_cons, h.sink, stateAt_turn]
    · rw [Run.state_cons, h.metrics, stateAt_turn]

/-- Every cycle of a run is a cycle from some state. -/
theorem exists_of_mem_cycles (cancelAt : Nat) {c : Cycle}
    (h : c ∈ (l.runFrom cancelAt s).cycles) : ∃ s', c = (l.cycle s').1 := by
  obtain ⟨n, hends⟩ := l.exists_endsAfter s cancelAt
  rw [hends.cycles] at h
  obtain ⟨i, -, rfl⟩ := List.mem_map.mp h
  exact ⟨l.stateAt s i, rfl⟩

/-- What holds at the start of a run and is kept by every turn, and by a fetch that is cut off,
holds at its end. -/
theorem runFrom_induction {P : LoopState → Prop} (hturn : ∀ s, P s → P (l.turn s).2)
    (hcut : ∀ s, P s → P { s with fetches := s.fetches + 1 }) (cancelAt : Nat) (h : P s) :
    P (l.runFrom cancelAt s).state := by
  fun_induction runFrom l cancelAt s with
  | case1 s hstop => exact h
  | case2 s hstop hcutOff => exact hcut s h
  | case3 s hstop hcutOff ih =>
    rw [Run.state_cons]
    exact ih (hturn s h)

end TokenKeeper.LoopSetup
