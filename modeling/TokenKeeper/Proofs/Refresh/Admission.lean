import TokenKeeper.Proofs.Issuer.Request
import TokenKeeper.Proofs.Refresh.Timeline

/-!
# Only valid tokens are published

A refresh loop whose tokens come from an issuer hands a token to its sink exactly if the issuer's
answer grants it (`TokenSource.Grants`): the answer has a status of success, and the token in it is
not empty and has not expired when the fetch ends. Whatever else an issuer sends, and whatever
happens to the connection, becomes a failed fetch, which waits for the retry interval and does not
touch the sink. An issuer that never says anything makes no fetch fail: the fetch goes on until the
loop is cancelled, so in a loop it is one that takes longer than that (`AnsweredExchange`).

The loop itself never looks at a token before publishing it, so all of this rests on
`TokenSource.fetch`, for which `fetch_eq_ok_iff` and `fetch_eq_error` say what comes of an answer.
-/

namespace TokenKeeper

open Http

/-! ## What comes of a fetch -/

namespace TokenSource

variable (src : TokenSource) (x : Exchange) (now : Instant)

/-- The answer to a request for a token. The outer `none` means that there never is one. -/
def response : Option (Except FetchFault Response) :=
  match src.request with
  | .error fault => some (.error (.unsendable fault))
  | .ok request => (x.send request).1.map (·.mapError .unanswered)

/-- Whether the answer to a request grants a token at an instant. -/
def Grants (t : Token) : Prop :=
  ∃ r body, src.response x = some (.ok r) ∧ 200 ≤ r.status.code ∧ r.status.code < 300 ∧
    r.body.whole? = some body ∧ Token.ofResponse (contentType r) body now = .ok t ∧
    t.accessToken ≠ "" ∧ ∀ e, t.expiry = some e → now < e

/-- What is made of an answer. -/
def tokenOfAnswer : Except FetchFault Response → Except Error Token
  | .error fault => .error (.fetch fault)
  | .ok r => tokenOf r now

theorem fetch_eq : (src.fetch x now).1 = (src.response x).map (tokenOfAnswer now) := by
  unfold fetch response
  rcases src.request with fault | request
  · rfl
  · rcases hsend : x.send request with ⟨- | (fault | r), x'⟩ <;> simp only [hsend] <;> rfl

/-- Something comes of a fetch if there is an answer. -/
theorem isSome_fetch : (src.fetch x now).1.isSome = (src.response x).isSome := by
  rw [fetch_eq, Option.isSome_map]

/-- Nothing comes of a fetch exactly if the server that is asked last keeps silent. -/
theorem fetch_eq_none_iff :
    (src.fetch x now).1 = none ↔ x.network.EndsInSilence (src.fetch x now).2.network := by
  rw [network_fetch, fetch_eq, Option.map_eq_none_iff, response]
  rcases hr : src.request with fault | r
  · exact iff_of_false (Option.some_ne_none _) (Network.not_endsInSilence rfl)
  · rw [Option.map_eq_none_iff]
    exact x.network.fst_sendFollowing_eq_none_iff (src.isWhole_of_request hr)

/-- A response gives a token exactly if its status and the token are as they should be. -/
theorem tokenOf_eq_ok_iff (r : Response) (t : Token) :
    tokenOf r now = .ok t ↔
      ∃ body, r.body.whole? = some body ∧ r.status.isSuccess ∧
        Token.ofResponse (contentType r) body now = .ok t ∧ t.isValidAt now := by
  constructor
  · intro h
    rw [tokenOf] at h
    split at h
    · cases h
    rename_i body hbody
    split at h
    · rename_i hstatus
      split at h
      · rename_i t' hread
        split at h
        · rename_i hvalid
          obtain rfl := Except.ok.inj h
          exact ⟨body, hbody, hstatus, hread, hvalid⟩
        · cases h
      · cases h
    · cases h
  · rintro ⟨body, hbody, hstatus, hread, hvalid⟩
    simp only [tokenOf, hbody, hstatus, hread, hvalid, if_true]

/-- An answer is read as a token exactly if it grants one. -/
theorem fetch_eq_ok_iff (t : Token) : (src.fetch x now).1 = some (.ok t) ↔ src.Grants x now t := by
  rw [fetch_eq]
  rcases hr : src.response x with - | (fault | r)
  · simp [Grants, hr]
  · simp [Grants, hr, tokenOfAnswer]
  · simp only [Option.map_some, Option.some.injEq, tokenOfAnswer, tokenOf_eq_ok_iff, Grants, hr,
      Token.isValidAt_iff, Status.isSuccess, Bool.and_eq_true, decide_eq_true_eq]
    grind

/-- All that can be wrong with an answer is that there is no token in it, or a useless one. -/
theorem fetch_eq_error {e : Error} (h : (src.fetch x now).1 = some (.error e)) :
    (∃ fault, e = .fetch fault) ∨ ∃ expiry, e = .invalidToken expiry := by
  rw [fetch_eq, Option.map_eq_some_iff] at h
  obtain ⟨fault | r, -, h⟩ := h
  · cases h
    exact .inl ⟨_, rfl⟩
  rw [tokenOfAnswer, tokenOf] at h
  split at h
  · cases h
    exact .inl ⟨_, rfl⟩
  split at h
  · split at h
    · split at h
      · cases h
      · cases h
        exact .inr ⟨_, rfl⟩
    · rename_i hread
      cases h
      exact .inl (Token.exists_of_ofResponse_eq_error hread)
  · cases h
    exact .inl ⟨_, rfl⟩

/-- What is outside when a source asks for a token and there is an answer, or a fault of the
connection. -/
structure AnsweredExchange (src : TokenSource) extends Exchange where
  answered : (src.response toExchange).isSome

variable {src} in
/-- What comes of a fetch then. -/
def AnsweredExchange.fetch (x : AnsweredExchange src) (now : Instant) : Except Error Token :=
  (src.fetch x.toExchange now).1.get (by rw [isSome_fetch, x.answered])

variable {src} in
theorem AnsweredExchange.fetch_eq_iff (x : AnsweredExchange src) (now : Instant)
    (result : Except Error Token) :
    x.fetch now = result ↔ (src.fetch x.toExchange now).1 = some result := by
  constructor
  · rintro rfl
    exact (Option.some_get _).symm
  · exact Option.get_of_eq_some _

/-- The fetches of a loop that asks an issuer: each goes over what is outside by then, and takes its
time. -/
def attempts (exchanges : Nat → AnsweredExchange src) (latency : Nat → Nat) : Source := fun n =>
  { latency := latency n, result := (exchanges n).fetch }

end TokenSource

/-! ## What reaches the sink -/

/-- Whether a cycle hands a token to its sink, which accepts it or fails. -/
def Cycle.HandsOver (c : Cycle) (t : Token) : Prop :=
  c.outcome = .published t ∨ ∃ e, c.outcome = .publishFailed t e

/-- What is seen to be published was handed over. -/
theorem Cycle.handsOver_of_mem_events {c : Cycle} {time : Nat} {t : Token}
    {result : Except Error Unit} (h : .publish time t result ∈ c.events) :
    time = c.finish ∧ c.HandsOver t := by
  rw [events] at h
  split at h <;> rename_i ho <;> simp only [List.mem_cons, reduceCtorEq, false_or, or_false,
    List.not_mem_nil, LoopEvent.publish.injEq] at h
  · obtain ⟨rfl, rfl, -⟩ := h
    exact ⟨rfl, .inr ⟨_, ho⟩⟩
  · obtain ⟨rfl, rfl, -⟩ := h
    exact ⟨rfl, .inl ho⟩

namespace LoopSetup

variable (l : LoopSetup) (s : LoopState)

/-- A cycle hands over what it has fetched. -/
theorem handsOver_cycle_iff (t : Token) : (l.cycle s).1.HandsOver t ↔ l.fetched s = .ok t := by
  rcases l.cycle_cases s with ⟨e, hf, hc⟩ | ⟨t', e, hf, -, hc⟩ | ⟨t', hf, -, hc⟩ <;>
    rw [hc, hf] <;>
    simp [Cycle.HandsOver, fetchFailure, publishFailure, publication]

/-- A cycle whose fetch fails says why, waits for the retry interval and leaves the sink alone. -/
theorem cycle_of_fetched_error {e : Error} (h : l.fetched s = .error e) :
    l.cycle s = l.fetchFailure s e := by
  rcases l.cycle_cases s with ⟨e', hf, hc⟩ | ⟨t, e', hf, -, -⟩ | ⟨t, hf, -, -⟩
  · rw [hf] at h
    rw [hc, Except.error.inj h]
  · rw [hf] at h
    cases h
  · rw [hf] at h
    cases h

/-- Everything that is published in a run was handed over in one of its cycles. -/
theorem exists_of_mem_events_run {sink : Sink} {cancelAt time : Nat} {t : Token}
    {result : Except Error Unit} (h : .publish time t result ∈ (l.run sink cancelAt).events) :
    ∃ s, time = (l.cycle s).1.finish ∧ (l.cycle s).1.HandsOver t := by
  simp only [Run.events, List.mem_append, List.mem_flatMap, Option.mem_toList,
    Option.map_eq_some_iff, reduceCtorEq, and_false, exists_false, or_false] at h
  obtain ⟨c, hc, hmem⟩ := h
  obtain ⟨s, rfl⟩ := l.exists_of_mem_cycles _ cancelAt hc
  exact ⟨s, Cycle.handsOver_of_mem_events hmem⟩

/-! ## What is counted -/

/-- The reasons for which a cycle of a loop that asks an issuer can fail. -/
def failureReasons : List String :=
  ["fetch", "invalid", "publish"]

/-- A registry in which failures are counted under one mode and those reasons only. -/
def CountsOnlyKnown (mode : String) (r : Registry) : Prop :=
  ∀ p ∈ r.refreshFailures, ∃ reason ∈ failureReasons, p.1 = [mode, reason]

theorem CountsOnlyKnown.recordFailure {mode reason : String} {r : Registry}
    (h : CountsOnlyKnown mode r) (hr : reason ∈ failureReasons) :
    CountsOnlyKnown mode (r.recordFailure mode reason) := by
  intro p hp
  rcases Series.fst_of_mem_update hp with hlabels | ⟨q, hq, hlabels⟩
  · exact ⟨reason, hr, hlabels⟩
  · rw [← hlabels]
    exact h q hq

theorem CountsOnlyKnown.recordRefresh {mode mode' : String} {r : Registry}
    (h : CountsOnlyKnown mode r) (expiry : Option Int) :
    CountsOnlyKnown mode (r.recordRefresh mode' expiry) := by
  cases expiry <;> exact h

/-- A loop that asks an issuer for tokens and whose publishes all reach the sink. -/
def ofIssuer (policy : RefreshPolicy) (src : TokenSource)
    (exchanges : Nat → src.AnsweredExchange) (latency : Nat → Nat) (startedAt : Instant) :
    LoopSetup :=
  { policy, source := src.attempts exchanges latency, startedAt }

variable (policy : RefreshPolicy) (src : TokenSource) (exchanges : Nat → src.AnsweredExchange)
  (latency : Nat → Nat) (startedAt : Instant)

/-- What such a loop fetches is what comes of asking over what is outside by then. -/
theorem fetched_ofIssuer :
    (ofIssuer policy src exchanges latency startedAt).fetched s =
      (exchanges s.fetches).fetch ((ofIssuer policy src exchanges latency startedAt).clockAt
        ((ofIssuer policy src exchanges latency startedAt).cycle s).1.finish) := by
  rw [finish_cycle]
  rfl

/-- A cycle of such a loop hands a token over exactly if the answer grants it when the fetch
ends. -/
theorem handsOver_iff_grants (t : Token) :
    ((ofIssuer policy src exchanges latency startedAt).cycle s).1.HandsOver t ↔
      src.Grants (exchanges s.fetches).toExchange
        ((ofIssuer policy src exchanges latency startedAt).clockAt
          ((ofIssuer policy src exchanges latency startedAt).cycle s).1.finish) t := by
  rw [handsOver_cycle_iff, fetched_ofIssuer, TokenSource.AnsweredExchange.fetch_eq_iff,
    TokenSource.fetch_eq_ok_iff]

/-- A cycle without a token that is granted fails to fetch. -/
theorem cycle_of_not_grants
    (h : ∀ t, ¬ src.Grants (exchanges s.fetches).toExchange
      ((ofIssuer policy src exchanges latency startedAt).clockAt
        ((ofIssuer policy src exchanges latency startedAt).cycle s).1.finish) t) :
    ∃ e, ((∃ fault, e = .fetch fault) ∨ ∃ expiry, e = .invalidToken expiry) ∧
      (ofIssuer policy src exchanges latency startedAt).cycle s =
        (ofIssuer policy src exchanges latency startedAt).fetchFailure s e := by
  rcases hf : (ofIssuer policy src exchanges latency startedAt).fetched s with e | t
  · have herror := hf
    rw [fetched_ofIssuer, TokenSource.AnsweredExchange.fetch_eq_iff] at herror
    exact ⟨e, src.fetch_eq_error _ _ herror, cycle_of_fetched_error _ s hf⟩
  · have hands := (handsOver_cycle_iff _ s t).mpr hf
    exact absurd ((handsOver_iff_grants s policy src exchanges latency startedAt t).mp hands) (h t)

theorem countsOnlyKnown_cycle {mode : String} (hmode : s.sink.mode = mode)
    (h : CountsOnlyKnown mode s.metrics) :
    CountsOnlyKnown mode ((ofIssuer policy src exchanges latency startedAt).cycle s).2.metrics := by
  rcases cycle_cases (ofIssuer policy src exchanges latency startedAt) s with
    ⟨e, hf, hc⟩ | ⟨t, e, -, hp, hc⟩ | ⟨t, -, -, hc⟩ <;> rw [hc]
  · rw [fetched_ofIssuer, TokenSource.AnsweredExchange.fetch_eq_iff] at hf
    have hreason : e.reason ∈ failureReasons := by
      rcases src.fetch_eq_error _ _ hf with ⟨fault, rfl⟩ | ⟨expiry, rfl⟩
      · exact List.mem_cons_self
      · exact List.mem_cons_of_mem _ List.mem_cons_self
    subst hmode
    exact h.recordFailure hreason
  · obtain ⟨path, fault, rfl⟩ := Sink.exists_of_publish_eq_error hp
    subst hmode
    exact h.recordFailure (show "publish" ∈ failureReasons by decide)
  · exact h.recordRefresh _

/-- The sink of a run keeps its mode, so all failures are counted under that mode. -/
theorem countsOnlyKnown_run (sink : Sink) (cancelAt : Nat) :
    CountsOnlyKnown sink.mode
      ((ofIssuer policy src exchanges latency startedAt).run sink cancelAt).state.metrics := by
  refine (runFrom_induction _ _ (P := fun s => s.sink.mode = sink.mode ∧
    CountsOnlyKnown sink.mode s.metrics) ?_ ?_ cancelAt ⟨rfl, ?_⟩).2
  · intro s ⟨hmode, hs⟩
    rw [turn_eq]
    simp only [sink_sleep, metrics_sleep, mode_cycle]
    exact ⟨hmode, countsOnlyKnown_cycle s policy src exchanges latency startedAt hmode hs⟩
  · intro s hs
    exact hs
  · intro p hp
    cases hp

/-- **Only valid tokens are published.** Over whatever network a token is asked for, one comes of it
exactly if the answer grants it, nothing exactly if the server that is asked last keeps the
connection and sends nothing, and otherwise a fault of the fetch or an invalid token. Take a loop that asks an issuer for tokens, whatever the issuer answers, whatever happens to
the connection and however long it takes. A cycle hands a token to the sink exactly if the answer
grants it when the fetch ends. Any other answer makes the fetch fail, with a fault of the fetch or
an invalid token; then the loop waits for the retry interval and the sink is as before. So all that
is ever published was granted, and failures are counted for three reasons only. -/
theorem only_granted_tokens_are_published :
    (∀ (x : Exchange) (now : Instant),
      (∀ t, (src.fetch x now).1 = some (.ok t) ↔ src.Grants x now t) ∧
      ((src.fetch x now).1 = none ↔ x.network.EndsInSilence (src.fetch x now).2.network) ∧
      ∀ e, (src.fetch x now).1 = some (.error e) →
        (∃ fault, e = .fetch fault) ∨ ∃ expiry, e = .invalidToken expiry) ∧
    (∀ s : LoopState,
      let l := ofIssuer policy src exchanges latency startedAt
      let c := (l.cycle s).1
      let x := (exchanges s.fetches).toExchange
      (∀ t, c.HandsOver t ↔ src.Grants x (l.clockAt c.finish) t) ∧
      ((∀ t, ¬ src.Grants x (l.clockAt c.finish) t) →
        ∃ e, c.outcome = .fetchFailed e ∧
          ((∃ fault, e = .fetch fault) ∨ ∃ expiry, e = .invalidToken expiry) ∧
          c.wake = policy.retryInterval ∧ (l.cycle s).2.sink = s.sink)) ∧
    (∀ sink cancelAt time t result,
      let l := ofIssuer policy src exchanges latency startedAt
      .publish time t result ∈ (l.run sink cancelAt).events →
        ∃ n, src.Grants (exchanges n).toExchange (l.clockAt time) t) ∧
    ∀ sink cancelAt,
      let l := ofIssuer policy src exchanges latency startedAt
      CountsOnlyKnown sink.mode (l.run sink cancelAt).state.metrics := by
  refine ⟨fun x now => ⟨src.fetch_eq_ok_iff x now, src.fetch_eq_none_iff x now,
      fun e => src.fetch_eq_error x now⟩,
    fun s => ⟨handsOver_iff_grants s policy src exchanges latency startedAt, fun hno => ?_⟩,
    fun sink cancelAt time t result h => ?_,
    countsOnlyKnown_run policy src exchanges latency startedAt⟩
  · obtain ⟨e, herror, hc⟩ := cycle_of_not_grants s policy src exchanges latency startedAt hno
    rw [hc]
    exact ⟨e, rfl, herror, rfl, rfl⟩
  · obtain ⟨s, rfl, ht⟩ := exists_of_mem_events_run _ h
    exact ⟨s.fetches, (handsOver_iff_grants s policy src exchanges latency startedAt t).mp ht⟩

end LoopSetup

end TokenKeeper
