import TokenKeeper.Proofs.Refresh.Timeline

/-!
# No lapse

A refresh loop that publishes into a channel keeps the token there alive: between two publishes
that follow each other, readers are never without a token, provided that the first token lasts
longer than the margin and that the second comes early enough after the first attempt to get it.

Two facts meet here. Only a publish changes what readers see (`current_of_published` and
`current_of_not_published`), so all that time it is the first token. And the loop wakes early enough
(`start_succ_lt_expiry`): the first attempt begins so long before the expiry that the margin, less
two seconds for the shortest sleep and for rounding, is still there.
-/

namespace TokenKeeper

/-! ## What readers see -/

namespace Channel

/-- Every reader is handed out the current token while it is valid. -/
theorem get?_of_current {c : Channel} {t : Token} {reader : Nat} {now : Instant}
    (hc : c.current = some t) (hr : reader < c.readers) (hv : t.isValidAt now) :
    c.get? reader now = some (some t) := by
  simp only [get?, latest?, if_pos hr, hc, Option.map_some, Option.filter_some, hv, if_true]

end Channel

namespace LoopSetup

variable {l : LoopSetup} {s : LoopState}

/-- Publishing into a channel writes the token, or else leaves the channel as it was. -/
theorem publish_channel {c : Channel} (hs : s.sink = .channel c) (t : Token) :
    l.publish s t = (.ok (), .channel (c.write t)) ∨
      ∃ e, l.publish s t = (.error e, .channel c) := by
  rw [publish]
  cases l.refusals s.publishes with
  | none => exact .inl (by rw [hs]; rfl)
  | some e => exact .inr ⟨e, by rw [hs]⟩

/-- A cycle that publishes a token makes it the current one. -/
theorem current_of_published {c : Channel} (hs : s.sink = .channel c) {t : Token}
    (h : (l.cycle s).1.outcome = .published t) :
    (l.cycle s).2.sink = .channel (c.write t) := by
  obtain ⟨-, hp, hc⟩ := l.cycle_of_published s h
  rw [hc]
  rcases publish_channel hs t with hw | ⟨e, hw⟩
  · exact congrArg Prod.snd hw
  · rw [hw] at hp
    cases hp

/-- A cycle that publishes nothing leaves the channel as it was. -/
theorem current_of_not_published {c : Channel} (hs : s.sink = .channel c)
    (h : ∀ t, (l.cycle s).1.outcome ≠ .published t) : (l.cycle s).2.sink = .channel c := by
  rcases l.cycle_cases s with ⟨e, -, hc⟩ | ⟨t, e, -, hp, hc⟩ | ⟨t, -, -, hc⟩
  · rw [hc]
    exact hs
  · rw [hc]
    rcases publish_channel hs t with hw | ⟨e', hw⟩
    · rw [hw] at hp
      cases hp
    · exact congrArg Prod.snd hw
  · exact absurd (by rw [hc]; rfl) (h t)

/-- A loop that publishes into a channel does so for ever. -/
theorem exists_channel {c : Channel} (hs : s.sink = .channel c) (n : Nat) :
    ∃ c', (l.stateAt s n).sink = .channel c' := by
  induction n with
  | zero => exact ⟨c, hs⟩
  | succ n ih =>
    obtain ⟨c', hc'⟩ := ih
    rw [sink_stateAt_succ]
    by_cases h : ∃ t, (l.cycle (l.stateAt s n)).1.outcome = .published t
    · obtain ⟨t, ht⟩ := h
      exact ⟨_, current_of_published hc' ht⟩
    · exact ⟨_, current_of_not_published hc' fun t ht => h ⟨t, ht⟩⟩

/-- Two publishes that follow each other: one of a token in cycle `i`, the next one in cycle `j`.
What fails in between is left open. -/
structure NextPublish (l : LoopSetup) (s : LoopState) (i j : Nat) (tok : Token) : Prop where
  lt : i < j
  first : (l.cycleAt s i).outcome = .published tok
  second : ∃ tok', (l.cycleAt s j).outcome = .published tok'
  quiet : ∀ k t, i < k → k < j → (l.cycleAt s k).outcome ≠ .published t

/-- From a publish up to the next one the channel holds the token that was published. -/
theorem NextPublish.current {i j : Nat} {tok : Token} (h : l.NextPublish s i j tok) {c : Channel}
    (hs : s.sink = .channel c) {k : Nat} (hik : i < k) (hkj : k ≤ j) :
    ∃ c', (l.stateAt s k).sink = .channel c' ∧ c'.current = some tok := by
  induction hik with
  | refl =>
    obtain ⟨c', hc'⟩ := exists_channel (l := l) hs i
    refine ⟨c'.write tok, ?_, rfl⟩
    rw [sink_stateAt_succ]
    exact current_of_published hc' h.first
  | @step k hik ih =>
    obtain ⟨c', hc', hcur⟩ := ih (Nat.le_of_succ_le hkj)
    refine ⟨c', ?_, hcur⟩
    rw [sink_stateAt_succ]
    exact current_of_not_published hc' fun t => h.quiet k t hik hkj

/-! ## When the loop wakes -/

/-- The first attempt after a publish begins early: what is then left of the margin, less two
seconds, ends before the token does. Either the loop sleeps until the margin begins, or the margin
is near and the shortest sleep is more than covered. -/
theorem start_succ_lt_expiry {n : Nat} {tok : Token} {e : Instant}
    (hmargin : Span.seconds 2 ≤ l.policy.margin)
    (hpub : (l.cycleAt s n).outcome = .published tok) (he : tok.expiry = some e)
    (hlong : (l.clockAt (l.cycleAt s n).finish).after l.policy.margin < e) :
    (l.clockAt (l.cycleAt s (n + 1)).start).after (l.policy.margin - .seconds 2) < e := by
  have hwake : (l.cycleAt s n).wake =
      e.since (l.clockAt (l.cycleAt s n).finish) - l.policy.margin := by
    obtain ⟨-, -, hc⟩ := l.cycle_of_published _ hpub
    simp only [cycleAt, hc, publication, he, RefreshPolicy.nextWake]
  have hround := (l.policy.sleepFor (l.cycleAt s n).wake).ceilMillis_mul_lt
  rw [start_succ]
  simp only [hwake, RefreshPolicy.sleepFor, RefreshPolicy.minDelay, clockAt, Instant.since,
    Instant.lt_iff, Instant.nanos_after, Span.le_iff, Span.nanos_max, Span.nanos_sub,
    Span.nanos_seconds, Span.nanos_millis, Nat.add_mul] at hround hlong hmargin ⊢
  have hsecond : nanosPerSecond = 1000000000 := rfl
  have hmilli : nanosPerMilli = 1000000 := rfl
  omega

/-! ## The theorem -/

/-- **No lapse.** Take a loop that publishes into a channel, and two of its publishes that follow
each other, in cycles `i` and `j`. If the first token is not empty and has no expiry or one that is
more than the margin ahead, and if the second publish comes no later than the margin, less two
seconds, after the first attempt that follows the first publish, then at every instant from the
first publish up to the second every reader, however many there are by then, is handed out the first
token. -/
theorem get?_eq_some_between_publishes {l : LoopSetup} {s : LoopState} {c : Channel}
    (hs : s.sink = .channel c) (hmargin : Span.seconds 2 ≤ l.policy.margin) {i j : Nat}
    {tok : Token} (hnext : l.NextPublish s i j tok) (hne : tok.accessToken ≠ "")
    (hlong : ∀ e, tok.expiry = some e →
      (l.clockAt (l.cycleAt s i).finish).after l.policy.margin < e)
    (hsoon : l.clockAt (l.cycleAt s j).finish ≤
      (l.clockAt (l.cycleAt s (i + 1)).start).after (l.policy.margin - .seconds 2))
    {now : Instant} (hfrom : l.clockAt (l.cycleAt s i).finish ≤ now)
    (hto : now ≤ l.clockAt (l.cycleAt s j).finish) :
    (∃ k, i < k ∧ k ≤ j ∧ l.IsBetween s k now) ∧
      ∀ k, i < k → k ≤ j → l.IsBetween s k now →
        ∃ c', (l.stateAt s k).sink = .channel c' ∧
          ∀ readers reader, reader < readers →
            ({ c' with readers } : Channel).get? reader now = some (some tok) := by
  refine ⟨l.exists_isBetween s hnext.lt hfrom hto, fun k hik hkj _ => ?_⟩
  obtain ⟨c', hc', hcur⟩ := hnext.current hs hik hkj
  have hvalid : tok.isValidAt now := by
    refine (Token.isValidAt_iff tok now).mpr ⟨hne, fun e he => ?_⟩
    have hwake := start_succ_lt_expiry hmargin hnext.first he (hlong e he)
    simp only [Instant.le_iff, Instant.lt_iff] at hto hsoon hwake ⊢
    omega
  exact ⟨c', hc', fun readers reader hr => Channel.get?_of_current hcur hr hvalid⟩

/-- A loop with a margin of a minute whose first token lasts half a second longer than that. The
second fetch fails, and the third takes as long as is allowed. -/
def lateRecovery : LoopSetup :=
  { policy := { margin := .seconds 60 }
    source := .ofList
      [ { latency := 100
          result := fun now => .ok { accessToken := "a", expiry := now.after (.millis 60500) } },
        { latency := 2000, result := fun _ => .error (.fetch .unreadable) },
        { latency := 51000, result := fun _ => .ok { accessToken := "b" } } ]
      (.fetch .unreadable)
    startedAt := ⟨0⟩ }

/-- At the very end of the time that is allowed readers still find the first token. -/
theorem lateRecovery_get?_eq_some :
    lateRecovery.NextPublish { sink := .channel {} } 0 2
      { accessToken := "a", expiry := (⟨0⟩ : Instant).after (.millis 60600) } ∧
    ∃ c', (lateRecovery.stateAt { sink := .channel {} } 2).sink = .channel c' ∧
      ({ c' with readers := 3 } : Channel).get? 2 ((⟨0⟩ : Instant).after (.millis 59100)) =
        some (some
          { accessToken := "a", expiry := (⟨0⟩ : Instant).after (.millis 60600) }) := by
  have hnext : lateRecovery.NextPublish { sink := .channel {} } 0 2
      { accessToken := "a", expiry := (⟨0⟩ : Instant).after (.millis 60600) } := by
    refine ⟨by decide, by decide, ⟨{ accessToken := "b" }, by decide⟩, fun k t hk hk' => ?_⟩
    obtain rfl : k = 1 := by omega
    rintro ⟨⟩
  have hto : (⟨0⟩ : Instant).after (.millis 59100) ≤
      lateRecovery.clockAt (lateRecovery.cycleAt { sink := .channel {} } 2).finish := by
    decide
  obtain ⟨-, hget⟩ := get?_eq_some_between_publishes rfl (by decide) hnext (by decide)
    (fun e he => by obtain rfl := Option.some.inj he; decide) (by decide) (by decide) hto
  obtain ⟨c', hc', hr⟩ := hget 2 (by decide) (by decide)
    ⟨fun m hm => by obtain rfl : 1 = m := Nat.succ.inj hm; decide, hto⟩
  exact ⟨hnext, c', hc', hr 3 2 (by decide)⟩

end LoopSetup

end TokenKeeper
