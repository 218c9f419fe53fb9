import Mathlib.Data.List.Basic
import TokenKeeper.Proofs.Files.Publish
import TokenKeeper.Proofs.Refresh.Timeline

/-!
# What reaches the sink

A sink follows the fetches: it accepts the tokens that are fetched and published well, each once and
in the order of the fetches, and whoever uses it finds the one that it accepted last
(`sink_follows_fetches`). A cycle that fails leaves what is found there as it was.

What is found in a sink is its `Sink.shown`, whatever kind of sink it is: the current token of a
channel, what the path of a token file leads to, or all tokens of a list. One cycle adds to it the
token that it delivers, if there is one (`shown_cycle`), and by induction so do many
(`shown_cycles`).
-/

namespace TokenKeeper

/-! ## What a sink shows -/

/-- What those who use a sink find in it. -/
inductive Shown where
  /-- The current token of a channel, for all of its readers. -/
  | live (t : Option Token)
  /-- What the path of a token file leads to. -/
  | atPath (f : TokenFile) (node : Option FileNode)
  /-- All the tokens of a list. -/
  | listed (name : String) (tokens : List Token)

/-- What is found in a sink. -/
def Sink.shown : Sink → Shown
  | channel c => .live c.current
  | file f tree => .atPath f (tree.nodeAt? f.path)
  | list name tokens => .listed name tokens

/-- What is found after some tokens have been accepted: the last of them, or in a list all. -/
def Shown.after (tokens : List Token) : Shown → Shown
  | live t => .live (tokens.getLast?.or t)
  | atPath f node =>
    .atPath f ((tokens.getLast?.map fun t => .file (TokenFile.contents t)).or node)
  | listed name before => .listed name (before ++ tokens)

@[simp] theorem Shown.after_nil (x : Shown) : x.after [] = x := by
  cases x <;> simp [after]

theorem Shown.after_append (x : Shown) (tokens more : List Token) :
    x.after (tokens ++ more) = (x.after tokens).after more := by
  rcases hmore : more.getLast? with - | t <;> cases x <;>
    simp [after, List.getLast?_append, hmore]

/-- What a publish that succeeds puts into a sink is found there, and one that fails changes nothing
of what is found. -/
theorem Sink.shown_publish (t : Token) (s : Sink) :
    (s.publish t).2.shown =
      match (s.publish t).1 with
      | .ok () => s.shown.after [t]
      | .error _ => s.shown := by
  cases s with
  | channel c => rfl
  | file f tree =>
    have hpath := f.nodeAt?_path_publish t tree
    simp only [publish, shown, hpath]
    rcases (f.publish t tree).1 with e | u
    · rfl
    · rfl
  | list name tokens => rfl

/-- How a sink is found after it has accepted some tokens. Any number of readers of a channel see
the last token, and are handed it out while it is valid; whoever reads a token file finds its bytes,
and a list has them all. Without any token everything is as before. -/
def Sink.HasAccepted (before : Sink) (tokens : List Token) (after : Sink) : Prop :=
  match before, after with
  | channel c, channel c' =>
    ∀ readers reader, reader < readers →
      { c' with readers }.latest? reader = some (tokens.getLast?.or c.current) ∧
        ∀ now, { c' with readers }.get? reader now =
          some ((tokens.getLast?.or c.current).filter (·.isValidAt now))
  | file f tree, file f' tree' =>
    f' = f ∧ (∀ t, tokens.getLast? = some t → tree'.read f.path = .ok (TokenFile.contents t)) ∧
      (tokens = [] → tree'.nodeAt? f.path = tree.nodeAt? f.path)
  | list name kept, list name' kept' => name' = name ∧ kept' = kept ++ tokens
  | _, _ => False

/-- It is enough to compare what the sinks show. -/
theorem Sink.hasAccepted_of_shown {before after : Sink} {tokens : List Token}
    (h : after.shown = before.shown.after tokens) : before.HasAccepted tokens after := by
  cases before with
  | channel c =>
    cases after with
    | channel c' =>
      intro readers reader hreader
      have hlatest : { c' with readers }.latest? reader =
          some (tokens.getLast?.or c.current) := by
        rw [Channel.latest?, if_pos hreader]
        exact congrArg some (Shown.live.inj h)
      refine ⟨hlatest, fun now => ?_⟩
      rw [Channel.get?, hlatest, Option.map_some]
    | file | list => cases h
  | file f tree =>
    cases after with
    | file f' tree' =>
      obtain ⟨rfl, hnode⟩ := Shown.atPath.inj h
      refine ⟨rfl, fun t ht => ?_, fun hnone => ?_⟩
      · rw [FileTree.read_eq_ok_iff, hnode, ht]
        rfl
      · rw [hnode, hnone]
        rfl
    | channel | list => cases h
  | list name kept =>
    cases after with
    | list name' kept' => exact Shown.listed.inj h
    | channel | file => cases h

/-- The token that is seen to be accepted in an event. -/
def LoopEvent.accepted? : LoopEvent → Option Token
  | publish _ t (.ok ()) => some t
  | _ => none

namespace LoopSetup

variable (l : LoopSetup) (s : LoopState)

/-! ## One cycle -/

/-- The token that the sink accepts in the cycle from a state: the one that is fetched, unless its
publish fails. -/
def accepted? : Option Token :=
  match l.fetched s with
  | .error _ => none
  | .ok t =>
    match (l.publish s t).1 with
    | .ok () => some t
    | .error _ => none

/-- Publishing shows the token, or else what was shown before. -/
theorem shown_publish (t : Token) :
    (l.publish s t).2.shown =
      match (l.publish s t).1 with
      | .ok () => s.sink.shown.after [t]
      | .error _ => s.sink.shown := by
  rw [publish]
  rcases l.refusals s.publishes with - | e
  · exact s.sink.shown_publish t
  · rfl

/-- **A cycle delivers** the token that it has fetched and published well, and otherwise nothing. -/
theorem shown_cycle :
    (l.cycle s).2.sink.shown = s.sink.shown.after (l.accepted? s).toList := by
  rcases l.cycle_cases s with ⟨e, hf, hc⟩ | ⟨t, e, hf, hp, hc⟩ | ⟨t, hf, hp, hc⟩
  · rw [hc, accepted?, hf]
    exact (s.sink.shown.after_nil).symm
  · have hshown := l.shown_publish s t
    rw [hp] at hshown
    rw [hc, accepted?, hf]
    simp only [hp]
    exact hshown.trans (s.sink.shown.after_nil).symm
  · have hshown := l.shown_publish s t
    rw [hp] at hshown
    rw [hc, accepted?, hf]
    simp only [hp]
    exact hshown

/-- What is seen of a cycle: its fetch, and then a publish if and only if a token has come of it. -/
theorem events_cycle :
    (l.cycle s).1.events =
      .fetch s.time ::
        match l.fetched s with
        | .error _ => []
        | .ok t => [.publish (l.fetchEnd s) t (l.publish s t).1] := by
  rcases l.cycle_cases s with ⟨e, hf, hc⟩ | ⟨t, e, hf, hp, hc⟩ | ⟨t, hf, hp, hc⟩ <;>
    simp only [hc, hf]
  · rfl
  · rw [hp]
    rfl
  · rw [hp]
    rfl

/-- The token that the sink accepts is the one that is seen to be published well. -/
theorem filterMap_events_cycle :
    (l.cycle s).1.events.filterMap LoopEvent.accepted? = (l.accepted? s).toList := by
  rw [events_cycle, accepted?]
  rcases l.fetched s with e | t
  · rfl
  · rcases hp : (l.publish s t).1 with e | u <;> simp only [hp] <;> rfl

/-- Every cycle takes the next fetch. -/
theorem fetches_cycle : (l.cycle s).2.fetches = s.fetches + 1 := by
  rcases l.cycle_cases s with ⟨e, -, hc⟩ | ⟨t, e, -, -, hc⟩ | ⟨t, -, -, hc⟩ <;> rw [hc] <;> rfl

/-! ## Many cycles -/

/-- The state after some cycles that follow each other without sleep. -/
def stateAfter (n : Nat) : LoopState :=
  (l.cycles s n).2

/-- The tokens that the sink accepts in the first cycles from a state, in order. -/
def accepted (n : Nat) : List Token :=
  (List.range n).filterMap fun i => l.accepted? (l.stateAfter s i)

theorem cycles_succ (n : Nat) :
    l.cycles s (n + 1) =
      ((l.cycles s n).1 ++ [(l.cycle (l.stateAfter s n)).1], (l.cycle (l.stateAfter s n)).2) := by
  induction n generalizing s with
  | zero => rfl
  | succ n ih =>
    have hfirst : ∀ n, l.cycles s (n + 1) =
        ((l.cycle s).1 :: (l.cycles (l.cycle s).2 n).1, (l.cycles (l.cycle s).2 n).2) := by
      intro n
      rw [cycles]
    have hstate : l.stateAfter s (n + 1) = l.stateAfter (l.cycle s).2 n := by
      rw [stateAfter, hfirst]
      rfl
    rw [hfirst, ih, hfirst n, hstate]
    rfl

theorem stateAfter_succ (n : Nat) :
    l.stateAfter s (n + 1) = (l.cycle (l.stateAfter s n)).2 := by
  rw [stateAfter, cycles_succ]

theorem accepted_succ (n : Nat) :
    l.accepted s (n + 1) = l.accepted s n ++ (l.accepted? (l.stateAfter s n)).toList := by
  rw [accepted, List.range_succ, List.filterMap_append]
  rcases hlast : l.accepted? (l.stateAfter s n) with - | t <;> simp [accepted, hlast]

/-- The cycles are those from the states after each other. -/
theorem fst_cycles (n : Nat) :
    (l.cycles s n).1 = (List.range n).map fun i => (l.cycle (l.stateAfter s i)).1 := by
  induction n with
  | zero => rfl
  | succ n ih => rw [cycles_succ, ih, List.range_succ, List.map_append, List.map_singleton]

theorem fetches_stateAfter (n : Nat) : (l.stateAfter s n).fetches = s.fetches + n := by
  induction n with
  | zero => rfl
  | succ n ih => rw [stateAfter_succ, fetches_cycle, ih, Nat.add_assoc]

theorem filterMap_events_cycles (n : Nat) :
    ((l.cycles s n).1.flatMap Cycle.events).filterMap LoopEvent.accepted? = l.accepted s n := by
  induction n with
  | zero => rfl
  | succ n ih =>
    rw [cycles_succ, List.flatMap_append, List.filterMap_append, ih, List.flatMap_singleton,
      filterMap_events_cycle, accepted_succ]

/-- **Many cycles deliver** what each of them does. -/
theorem shown_cycles (n : Nat) :
    (l.stateAfter s n).sink.shown = s.sink.shown.after (l.accepted s n) := by
  induction n with
  | zero => exact (s.sink.shown.after_nil).symm
  | succ n ih => rw [stateAfter_succ, shown_cycle, ih, accepted_succ, Shown.after_append]

/-- **The sink follows the fetches.** In any number of cycles from any state, whatever the fetches
and publishes come to:

* every cycle makes the next fetch, and publishes what it has fetched, if it has, and nothing else;
* the tokens that are seen to be published well are those of the cycles that fetch and publish
  well, one for each of these cycles, in their order;
* the sink is found as one that has accepted just these tokens, after every cycle; and a cycle that
  fails leaves what is found as it was. -/
theorem sink_follows_fetches (n : Nat) :
    (∀ i < n,
      (l.stateAfter s i).fetches = s.fetches + i ∧
      (l.cycles s n).1[i]? = some (l.cycle (l.stateAfter s i)).1 ∧
      (l.cycle (l.stateAfter s i)).1.events =
        .fetch (l.stateAfter s i).time ::
          match l.fetched (l.stateAfter s i) with
          | .error _ => []
          | .ok t =>
            [.publish (l.fetchEnd (l.stateAfter s i)) t (l.publish (l.stateAfter s i) t).1]) ∧
    ((l.cycles s n).1.flatMap Cycle.events).filterMap LoopEvent.accepted? =
      ((List.range n).filterMap fun i => l.accepted? (l.stateAfter s i)) ∧
    (∀ i ≤ n, s.sink.HasAccepted (l.accepted s i) (l.stateAfter s i).sink) ∧
    ∀ i < n, l.accepted? (l.stateAfter s i) = none →
      (l.stateAfter s i).sink.HasAccepted [] (l.stateAfter s (i + 1)).sink := by
  refine ⟨fun i hi => ⟨l.fetches_stateAfter s i, ?_, l.events_cycle _⟩,
    l.filterMap_events_cycles s n, fun i _ => Sink.hasAccepted_of_shown (l.shown_cycles s i),
    fun i _ hfails => ?_⟩
  · rw [fst_cycles, List.getElem?_map, List.getElem?_range hi]
    rfl
  · apply Sink.hasAccepted_of_shown
    rw [stateAfter_succ, shown_cycle, hfails]
    rfl

end LoopSetup

end TokenKeeper
