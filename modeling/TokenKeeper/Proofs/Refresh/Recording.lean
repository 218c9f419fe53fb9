import TokenKeeper.Proofs.Refresh.Timeline

/-!
# What a refresh loop records

A cycle records how it ended, under the mode of the sink, and nothing else (`metrics_cycle`). So
the metrics after some cycles are told by their outcomes alone, whether the cycles follow each other
without sleep (`metrics_cycles`) or are those of a run (`metrics_runFrom`): the refreshes count the
tokens that were published, and the failures for a reason the cycles that failed for it.
-/

namespace TokenKeeper

namespace CycleOutcome

/-- The error with which a cycle failed. -/
def failure? : CycleOutcome → Option Error
  | fetchFailed e => some e
  | publishFailed _ e => some e
  | published _ => none

/-- The token that a cycle published. -/
def published? : CycleOutcome → Option Token
  | published t => some t
  | _ => none

end CycleOutcome

namespace Registry

variable (mode : String) (r : Registry)

/-- What is recorded of a cycle. -/
def record : CycleOutcome → Registry
  | .fetchFailed e => r.recordFailure mode e.reason
  | .publishFailed _ e => r.recordFailure mode e.reason
  | .published t => r.recordRefresh mode (t.expiry.map Instant.unixSeconds)

/-- What is recorded of cycles one after the other. -/
def recordAll (outcomes : List CycleOutcome) : Registry :=
  outcomes.foldl (record mode) r

theorem recordAll_concat (outcomes : List CycleOutcome) (o : CycleOutcome) :
    r.recordAll mode (outcomes ++ [o]) = (r.recordAll mode outcomes).record mode o := by
  rw [recordAll, recordAll, List.foldl_append, List.foldl_cons, List.foldl_nil]

/-! ## One cycle -/

theorem count_refreshes_record (o : CycleOutcome) :
    (r.record mode o).refreshes.count [mode] =
      r.refreshes.count [mode] + if o.published?.isSome then 1 else 0 := by
  have hadd := Counters.count_add r.refreshes [mode] 1 [mode]
  rw [if_pos rfl] at hadd
  rcases o with e | ⟨t, e⟩ | ⟨access, type, expiry | expiry⟩
  · rfl
  · rfl
  · exact hadd
  · exact hadd

theorem count_refreshFailures_record (reason : String) (o : CycleOutcome) :
    (r.record mode o).refreshFailures.count [mode, reason] =
      r.refreshFailures.count [mode, reason] +
        if o.failure?.map Error.reason = some reason then 1 else 0 := by
  have hadd (e : Error) : (r.recordFailure mode e.reason).refreshFailures.count [mode, reason] =
      r.refreshFailures.count [mode, reason] + if some e.reason = some reason then 1 else 0 := by
    have hlabels : [mode, e.reason] = [mode, reason] ↔ some e.reason = some reason := by simp
    rw [recordFailure, Counters.count_add]
    simp only [hlabels]
  rcases o with e | ⟨t, e⟩ | ⟨access, type, expiry | expiry⟩
  · exact hadd e
  · exact hadd e
  · rfl
  · rfl

theorem expiries_record (o : CycleOutcome) :
    (r.record mode o).expiries =
      match (o.published?.bind Token.expiry).map Instant.unixSeconds with
      | some seconds => r.expiries.update [mode] 0 fun _ => seconds
      | none => r.expiries := by
  rcases o with e | ⟨t, e⟩ | ⟨access, type, expiry | expiry⟩ <;> rfl

/-! ## Many cycles -/

variable (outcomes : List CycleOutcome)

theorem count_refreshes_recordAll :
    (r.recordAll mode outcomes).refreshes.count [mode] =
      r.refreshes.count [mode] + outcomes.countP (·.published?.isSome) := by
  induction outcomes generalizing r with
  | nil => rfl
  | cons o outcomes ih =>
    rw [recordAll, List.foldl_cons, ← recordAll, ih, count_refreshes_record, List.countP_cons]
    omega

theorem count_refreshFailures_recordAll (reason : String) :
    (r.recordAll mode outcomes).refreshFailures.count [mode, reason] =
      r.refreshFailures.count [mode, reason] +
        outcomes.countP (·.failure?.map Error.reason = some reason) := by
  induction outcomes generalizing r with
  | nil => rfl
  | cons o outcomes ih =>
    rw [recordAll, List.foldl_cons, ← recordAll, ih, count_refreshFailures_record,
      List.countP_cons]
    simp only [decide_eq_true_eq]
    omega

end Registry

namespace LoopSetup

variable (l : LoopSetup) (s : LoopState)

/-- **A cycle records its outcome** and nothing else. -/
theorem metrics_cycle :
    (l.cycle s).2.metrics = s.metrics.record s.sink.mode (l.cycle s).1.outcome := by
  rcases l.cycle_cases s with ⟨e, -, h⟩ | ⟨t, e, -, -, h⟩ | ⟨t, -, -, h⟩ <;> rw [h] <;> rfl

theorem metrics_cycles (n : Nat) :
    (l.cycles s n).2.metrics =
      s.metrics.recordAll s.sink.mode ((l.cycles s n).1.map (·.outcome)) := by
  induction n generalizing s with
  | zero => rfl
  | succ n ih =>
    rw [cycles]
    simp only [ih, mode_cycle, metrics_cycle, List.map_cons]
    rfl

theorem mode_stateAt (n : Nat) : (l.stateAt s n).sink.mode = s.sink.mode := by
  induction n with
  | zero => rfl
  | succ n ih => rw [sink_stateAt_succ, mode_cycle, ih]

theorem metrics_stateAt (n : Nat) :
    (l.stateAt s n).metrics =
      s.metrics.recordAll s.sink.mode (((List.range n).map (l.cycleAt s)).map (·.outcome)) := by
  induction n with
  | zero => rfl
  | succ n ih =>
    rw [stateAt_succ, turn_eq, metrics_sleep, metrics_cycle, mode_stateAt, ih, List.range_succ,
      List.map_append, List.map_append, List.map_singleton, List.map_singleton,
      Registry.recordAll_concat, cycleAt]

/-- What is recorded in a run are the outcomes of its cycles. -/
theorem metrics_runFrom (cancelAt : Nat) :
    (l.runFrom cancelAt s).state.metrics =
      s.metrics.recordAll s.sink.mode ((l.runFrom cancelAt s).cycles.map (·.outcome)) := by
  obtain ⟨n, h⟩ := l.exists_endsAfter s cancelAt
  rw [h.metrics, h.cycles, metrics_stateAt]

end LoopSetup

end TokenKeeper
