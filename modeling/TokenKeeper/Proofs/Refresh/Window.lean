import TokenKeeper.Proofs.Time.Words
import TokenKeeper.Refresh.Policy

/-!
# The refresh window

How long the loop waits for a token with an expiry, to the nanosecond: what is left of the time
until a margin before the expiry, or nothing (`nanos_nextWake`). A token that lasts longer is
replaced no sooner, and one that is looked at later, or with a wider margin, no later
(`nextWake_mono`).

The sleep is never shorter than a second, so it may end after the margin has begun. It does so
exactly if less than a second was left until then (`expiry_lt_wakeUp_after_margin_iff`), and a token
that lasts for more than a second is still good at its end (`wakeUp_lt_expiry`).

A machine comes to the same wait, with a difference of instants that has a sign, spans that have
none and the minimum delay in words (`exists_nextWakeInWords?`).
-/

namespace TokenKeeper

namespace RefreshPolicy

variable {p q : RefreshPolicy} {expiry expiry' now now' : Instant}

/-! ## To the nanosecond -/

/-- The instant at which the sleep ends for a token with an expiry. -/
def wakeUp (p : RefreshPolicy) (expiry now : Instant) : Instant :=
  now.after (p.sleepFor (p.nextWake (some expiry) now))

/-- What is left until the margin before the expiry, or nothing. -/
theorem nanos_nextWake (p : RefreshPolicy) (expiry now : Instant) :
    ((p.nextWake (some expiry) now).nanos : Int) =
      max 0 (expiry.nanos - now.nanos - p.margin.nanos) := by
  simp only [nextWake, Instant.since, Span.nanos_sub]
  omega

/-- The sleep is over when the margin begins, or after a second if that is later. -/
theorem nanos_wakeUp (p : RefreshPolicy) (expiry now : Instant) :
    (p.wakeUp expiry now).nanos =
      max (now.nanos + nanosPerSecond) (expiry.nanos - p.margin.nanos) := by
  have hwake := p.nanos_nextWake expiry now
  have hsecond : (nanosPerSecond : Int) = 1000000000 := rfl
  have hmin : minDelay.nanos = 1000000000 := rfl
  rw [wakeUp, Instant.nanos_after, sleepFor, Span.nanos_max, hmin, hsecond]
  omega

/-- A token that lasts longer is replaced no sooner, and one looked at later, or with a wider
margin, no later. -/
theorem nextWake_mono (hexpiry : expiry ≤ expiry') (hnow : now' ≤ now)
    (hmargin : q.margin ≤ p.margin) :
    p.nextWake (some expiry) now ≤ q.nextWake (some expiry') now' := by
  have hp := p.nanos_nextWake expiry now
  have hq := q.nanos_nextWake expiry' now'
  rw [Instant.le_iff] at hexpiry hnow
  rw [Span.le_iff] at hmargin ⊢
  omega

/-- The sleep ends before the expiry of a token that lasts for more than a second. -/
theorem wakeUp_lt_expiry (hlasts : now.after (.seconds 1) < expiry) (hmargin : ⟨0⟩ < p.margin) :
    p.wakeUp expiry now < expiry := by
  have hpositive : 0 < p.margin.nanos := hmargin
  rw [Instant.lt_iff, Instant.nanos_after, Span.nanos_seconds] at hlasts
  rw [Instant.lt_iff, nanos_wakeUp]
  omega

/-- The sleep ends after the margin has begun exactly if less than a second was left until then. -/
theorem expiry_lt_wakeUp_after_margin_iff (p : RefreshPolicy) (expiry now : Instant) :
    expiry < (p.wakeUp expiry now).after p.margin ↔ p.nextWake (some expiry) now < minDelay := by
  have hwake := p.nanos_nextWake expiry now
  have hsecond : (nanosPerSecond : Int) = 1000000000 := rfl
  have hmin : minDelay.nanos = 1000000000 := rfl
  show _ ↔ (p.nextWake (some expiry) now).nanos < minDelay.nanos
  rw [Instant.lt_iff, Instant.nanos_after, nanos_wakeUp, hmin, hsecond]
  omega

/-! ## In words -/

/-- The time until a token is due in words, unless it is too far from now to its expiry. -/
def nextWakeInWords? (margin : SpanWords) (expiry now : Instant) : Option SpanWords :=
  (expiry.minus? now).map fun d =>
    match d.toSpan? with
    | some remaining => remaining.saturatingSub margin
    | none => .zero

/-- The sleep for a time until the next cycle, in words. -/
def sleepInWords (wake : SpanWords) : SpanWords :=
  wake.max .second

theorem toSpan_sleepInWords (p : RefreshPolicy) (wake : SpanWords) :
    (sleepInWords wake).toSpan = p.sleepFor wake.toSpan :=
  wake.toSpan_max .second

/-- Between instants of the calendar nothing overflows: the words stand for the time until a token
is due. -/
theorem exists_nextWakeInWords? {margin : SpanWords} (hmargin : margin.toSpan = p.margin)
    (hexpiry : expiry.IsInCalendar) (hnow : now.IsInCalendar) :
    ∃ wake, nextWakeInWords? margin expiry now = some wake ∧
      wake.toSpan = p.nextWake (some expiry) now := by
  obtain ⟨d, hd, hlasts⟩ := Instant.exists_minus? hexpiry hnow
  have hwake := p.nanos_nextWake expiry now
  rw [nextWakeInWords?, hd, Option.map_some]
  rcases d.toSpan?_cases with ⟨remaining, hremaining, hnanos⟩ | ⟨hnone, hneg⟩
  · have hleft : (remaining.toSpan - margin.toSpan).nanos =
        (p.nextWake (some expiry) now).nanos := by
      rw [Span.nanos_sub, hmargin]
      omega
    rw [hremaining]
    exact ⟨_, rfl, (remaining.toSpan_saturatingSub margin).trans (congrArg Span.mk hleft)⟩
  · have hleft : 0 = (p.nextWake (some expiry) now).nanos := by
      omega
    rw [hnone]
    exact ⟨_, rfl, SpanWords.toSpan_zero.trans (congrArg Span.mk hleft)⟩

/-- **The refresh window.** Take a token with an expiry and a margin in words, and let the expiry
and now be instants of the calendar. Nothing overflows in words, and they stand for the time until
the token is due: what is left to the nanosecond until the margin before the expiry, or nothing. It
is no shorter if the token expires later, if it is looked at earlier, or if the margin is narrower.

If the token lasts for more than a second and there is a margin, then the sleep ends before the
expiry. It ends after the margin has begun only if less than the shortest wait was left. -/
theorem refresh_window {margin : SpanWords} (hmargin : margin.toSpan = p.margin)
    (hexpiry : expiry.IsInCalendar) (hnow : now.IsInCalendar) :
    (∃ wake, nextWakeInWords? margin expiry now = some wake ∧
      wake.toSpan = p.nextWake (some expiry) now ∧
      (sleepInWords wake).toSpan = p.sleepFor (p.nextWake (some expiry) now)) ∧
    ((p.nextWake (some expiry) now).nanos : Int) =
      max 0 (expiry.nanos - now.nanos - p.margin.nanos) ∧
    (∀ (q : RefreshPolicy) (expiry' now' : Instant), expiry ≤ expiry' → now' ≤ now →
      q.margin ≤ p.margin → p.nextWake (some expiry) now ≤ q.nextWake (some expiry') now') ∧
    (now.after (.seconds 1) < expiry → ⟨0⟩ < p.margin → p.wakeUp expiry now < expiry) ∧
    (expiry < (p.wakeUp expiry now).after p.margin → p.nextWake (some expiry) now < minDelay) := by
  obtain ⟨wake, hwake, hspan⟩ := exists_nextWakeInWords? hmargin hexpiry hnow
  have hsleep : (sleepInWords wake).toSpan = p.sleepFor (p.nextWake (some expiry) now) := by
    rw [← hspan]
    exact p.toSpan_sleepInWords wake
  refine ⟨⟨wake, hwake, hspan, hsleep⟩, p.nanos_nextWake expiry now, ?_, wakeUp_lt_expiry, ?_⟩
  · intro q expiry' now' hlater hearlier hnarrower
    exact nextWake_mono hlater hearlier hnarrower
  · exact (p.expiry_lt_wakeUp_after_margin_iff expiry now).mp

/-- Half a second before 1970, a token of a second and a nanosecond is given a margin of a
nanosecond. It is due when one nanosecond is left, which is one second later. -/
theorem refresh_window_before_1970 :
    let p : RefreshPolicy := { margin := ⟨1⟩ }
    let now : Instant := ⟨-500000000⟩
    let expiry : Instant := ⟨500000001⟩
    (∃ wake, nextWakeInWords? ⟨0, 1, by decide⟩ expiry now = some wake ∧
      wake.toSpan = .seconds 1) ∧ p.wakeUp expiry now < expiry ∧
      (p.wakeUp expiry now).nanos = 500000000 := by
  intro p now expiry
  have hexpiry : expiry.IsInCalendar := ⟨by decide, by decide⟩
  have hnow : now.IsInCalendar := ⟨by decide, by decide⟩
  have hmargin : SpanWords.toSpan ⟨0, 1, by decide⟩ = p.margin := rfl
  obtain ⟨⟨wake, hwake, hspan, -⟩, -, -, hbefore, -⟩ := refresh_window hmargin hexpiry hnow
  have hsecond : p.nextWake (some expiry) now = .seconds 1 := by decide
  refine ⟨⟨wake, hwake, hspan.trans hsecond⟩, hbefore (by decide) (by decide), ?_⟩
  rw [nanos_wakeUp]
  decide

end RefreshPolicy

end TokenKeeper
