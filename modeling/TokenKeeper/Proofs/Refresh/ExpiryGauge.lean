import Mathlib.Data.List.Induction
import TokenKeeper.Metrics.Exposition
import TokenKeeper.Proofs.Refresh.Recording

/-!
# The gauge of the expiry

The gauge shows the expiry of the last published token that has one. A token without expiry leaves
it as it is, so after such a token it tells of an earlier one, or of none: runs that end with the
same token may show different gauges. `expiryGauge_eq_iff` says exactly when they agree.
-/

namespace TokenKeeper

/-- The tokens that cycles have published, in order. -/
def publishedTokens (cs : List Cycle) : List Token :=
  cs.filterMap (·.outcome.published?)

theorem publishedTokens_concat (cs : List Cycle) (c : Cycle) :
    publishedTokens (cs ++ [c]) = publishedTokens cs ++ c.outcome.published?.toList := by
  rw [publishedTokens, List.filterMap_append, ← publishedTokens]
  rcases ht : c.outcome.published? with - | t <;> simp [ht]

/-- The last expiry that any of the tokens has, in seconds. -/
def lastExpiry? (tokens : List Token) : Option Int :=
  (tokens.filterMap Token.expiry).getLast?.map Instant.unixSeconds

theorem lastExpiry?_concat (tokens : List Token) (t : Token) :
    lastExpiry? (tokens ++ [t]) = (t.expiry.map Instant.unixSeconds).or (lastExpiry? tokens) := by
  rw [lastExpiry?, List.filterMap_append]
  rcases he : t.expiry with - | e <;> simp [lastExpiry?, he]

theorem lastExpiry?_of_getLast? {tokens : List Token} {t : Token} (h : tokens.getLast? = some t) :
    lastExpiry? tokens = (t.expiry.map Instant.unixSeconds).or (lastExpiry? tokens.dropLast) := by
  obtain ⟨front, rfl⟩ := List.getLast?_eq_some_iff.mp h
  rw [lastExpiry?_concat, List.dropLast_concat]

namespace Registry

/-- The value of the gauge for a mode. -/
def expiryGauge (r : Registry) (mode : String) : Option Int :=
  r.expiries.get? [mode]

/-- What is shown of the gauge. -/
def expirySamples (r : Registry) : List Exposition.Sample :=
  Exposition.numberSamples Exposition.wholeText expiriesFamily r.expiries

/-- **The gauge has the last expiry** of all published tokens, and no other mode has a value. -/
theorem expiries_recordAll (mode : String) (cs : List Cycle) :
    (({} : Registry).recordAll mode (cs.map (·.outcome))).expiries =
      ((lastExpiry? (publishedTokens cs)).map fun secs => ([mode], secs)).toList := by
  induction cs using List.reverseRecOn with
  | nil => rfl
  | append_singleton cs c ih =>
    have hset (secs : Int) (x : Option Int) :
        Series.update [mode] 0 (fun _ => secs) (x.map fun secs => ([mode], secs)).toList =
          [([mode], secs)] := by
      cases x <;> simp [Series.update]
    rw [List.map_append, List.map_singleton, recordAll_concat, expiries_record, ih,
      publishedTokens_concat]
    rcases c.outcome.published? with - | t
    · simp
    · rw [Option.toList_some, lastExpiry?_concat]
      rcases he : t.expiry with - | e <;> simp [he, hset]

end Registry

namespace LoopSetup

variable (l : LoopSetup) (sink : Sink) (n : Nat)

/-- What is shown after some cycles. -/
theorem expirySamples_cycles :
    (l.cycles { sink } n).2.metrics.expirySamples =
      ((lastExpiry? (publishedTokens (l.cycles { sink } n).1)).map fun secs =>
        ⟨"token_expiry_timestamp_seconds", [("mode", sink.mode)],
          Exposition.wholeText secs⟩).toList := by
  rw [Registry.expirySamples, metrics_cycles, Registry.expiries_recordAll]
  cases lastExpiry? (publishedTokens (l.cycles { sink } n).1) <;>
    simp [Exposition.numberSamples, Exposition.sortedSeries, Exposition.sortedLabels,
      Registry.expiriesFamily]

theorem expiryGauge_cycles :
    (l.cycles { sink } n).2.metrics.expiryGauge sink.mode =
      lastExpiry? (publishedTokens (l.cycles { sink } n).1) := by
  rw [Registry.expiryGauge, metrics_cycles, Registry.expiries_recordAll]
  cases lastExpiry? (publishedTokens (l.cycles { sink } n).1) with
  | none => rfl
  | some secs => exact List.lookup_cons_self

/-- **When the gauge tells of the last token alone.** Take two runs of cycles with sinks of one
mode, nothing recorded before, that publish the same token last, whatever they fetch and whatever
fails in between. The gauge has the expiry of this token, or if it has none the last expiry of a
token before it. So both show the same if the token has an expiry, and otherwise if and only if the
tokens before it come to the same. -/
theorem expiryGauge_eq_iff (l₁ l₂ : LoopSetup) {sink₁ sink₂ : Sink} (n₁ n₂ : Nat) {t : Token}
    (hmode : sink₁.mode = sink₂.mode)
    (h₁ : (publishedTokens (l₁.cycles { sink := sink₁ } n₁).1).getLast? = some t)
    (h₂ : (publishedTokens (l₂.cycles { sink := sink₂ } n₂).1).getLast? = some t) :
    let before₁ := (publishedTokens (l₁.cycles { sink := sink₁ } n₁).1).dropLast
    let before₂ := (publishedTokens (l₂.cycles { sink := sink₂ } n₂).1).dropLast
    let r₁ := (l₁.cycles { sink := sink₁ } n₁).2.metrics
    let r₂ := (l₂.cycles { sink := sink₂ } n₂).2.metrics
    r₁.expiryGauge sink₁.mode = (t.expiry.map Instant.unixSeconds).or (lastExpiry? before₁) ∧
    (r₁.expiryGauge sink₁.mode = r₂.expiryGauge sink₁.mode ↔
      t.expiry.isSome ∨ lastExpiry? before₁ = lastExpiry? before₂) ∧
    (r₁.expiryGauge sink₁.mode = r₂.expiryGauge sink₁.mode →
      r₁.expirySamples = r₂.expirySamples) := by
  intro before₁ before₂ r₁ r₂
  have hgauge₁ : r₁.expiryGauge sink₁.mode =
      (t.expiry.map Instant.unixSeconds).or (lastExpiry? before₁) := by
    rw [l₁.expiryGauge_cycles, lastExpiry?_of_getLast? h₁]
  have hgauge₂ : r₂.expiryGauge sink₁.mode =
      (t.expiry.map Instant.unixSeconds).or (lastExpiry? before₂) := by
    rw [hmode, l₂.expiryGauge_cycles, lastExpiry?_of_getLast? h₂]
  refine ⟨hgauge₁, ?_, fun hsame => ?_⟩
  · rw [hgauge₁, hgauge₂]
    cases t.expiry <;> simp
  · rw [hmode, l₂.expiryGauge_cycles, ← hmode, l₁.expiryGauge_cycles] at hsame
    rw [l₁.expirySamples_cycles, l₂.expirySamples_cycles, hsame, hmode]

/-- A loop that fetches some tokens at once. -/
def fetchingAll (tokens : List Token) : LoopSetup :=
  { source := .ofList (tokens.map fun t => { result := fun _ => .ok t }) (.fetch .unreadable)
    startedAt := ⟨0⟩ }

/-- A token without expiry is shown with the expiry of the token before it, or with none. -/
theorem expiryGauge_of_earlier_token :
    let last : Token := { accessToken := "last" }
    let first : Token := { accessToken := "first", expiry := some ⟨900000000000⟩ }
    let sink : Sink := .list "test" []
    let both := (fetchingAll [first, last]).cycles { sink } 2
    let one := (fetchingAll [last]).cycles { sink } 1
    (publishedTokens both.1).getLast? = some last ∧ (publishedTokens one.1).getLast? = some last ∧
      both.2.metrics.expiryGauge "test" = some 900 ∧
      both.2.metrics.expiryGauge "test" ≠ one.2.metrics.expiryGauge "test" ∧
      both.2.metrics.expirySamples =
        [⟨"token_expiry_timestamp_seconds", [("mode", "test")], "900"⟩] ∧
      one.2.metrics.expirySamples = [] := by
  intro last first sink both one
  have hboth : (publishedTokens both.1).getLast? = some last := by decide
  have hone : (publishedTokens one.1).getLast? = some last := by decide
  obtain ⟨hgauge, hiff, -⟩ :=
    expiryGauge_eq_iff (fetchingAll [first, last]) (fetchingAll [last]) 2 1 rfl hboth hone
  refine ⟨hboth, hone, hgauge.trans (by decide), fun hsame => ?_, ?_, ?_⟩
  · exact absurd (hiff.mp hsame) (by decide)
  · rw [expirySamples_cycles]
    decide +kernel
  · rw [expirySamples_cycles]
    decide +kernel

end LoopSetup

end TokenKeeper
