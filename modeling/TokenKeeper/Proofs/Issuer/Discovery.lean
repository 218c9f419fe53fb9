import TokenKeeper.Issuer.Discovery
import TokenKeeper.Proofs.Issuer.Request

/-!
# What a discovery sends

A discovery asks and brings nothing along: all that it sends is `GET` without a body, however often
it is redirected and whatever comes of it (`Provider.asksOnly_discover`). A request for a token is
never like that (`TokenSource.method_ne_of_request`).
-/

namespace TokenKeeper

open Http

namespace Http

/-- A request that asks for something and brings nothing along. -/
structure Request.IsQuestion (r : Request) : Prop where
  method : r.method = "GET"
  payload : r.payload = .none

/-- A question as the server sees it. -/
structure SeenRequest.IsQuestion (q : SeenRequest) : Prop where
  method : q.method = "GET"
  body : q.body = []

/-- A question stays one when it is redirected. -/
theorem Request.IsQuestion.redirected {r : Request} (h : r.IsQuestion) (s : Status) :
    (r.redirected s).IsQuestion := by
  rw [Request.redirected]
  split
  · refine ⟨?_, rfl⟩
    show (if r.method == "HEAD" then r.method else "GET") = "GET"
    rw [h.method]
    rfl
  · exact h

/-- Whether a server has seen nothing but questions from one state of the network to another. -/
def Network.AsksOnly (n n' : Network) : Prop :=
  ∃ more, n'.seen = n.seen ++ more ∧ ∀ q ∈ more, q.IsQuestion

namespace Network

variable (n : Network) {r sent : Request}

theorem AsksOnly.refl : n.AsksOnly n :=
  ⟨[], (List.append_nil _).symm, fun _ hq => absurd hq List.not_mem_nil⟩

variable {n} in
theorem AsksOnly.trans {n₁ n₂ : Network} (h : n.AsksOnly n₁) (h' : n₁.AsksOnly n₂) :
    n.AsksOnly n₂ := by
  obtain ⟨more, hseen, hmore⟩ := h
  obtain ⟨more', hseen', hmore'⟩ := h'
  refine ⟨more ++ more', by rw [hseen', hseen, List.append_assoc], fun q hq => ?_⟩
  rcases List.mem_append.mp hq with hq | hq
  · exact hmore q hq
  · exact hmore' q hq

theorem asksOnly_exchange (h : r.IsQuestion) : n.AsksOnly (n.exchange r).2 := by
  have hsent : (r.payload.sent r.method r.header).body = .whole [] ∨
      (r.payload.sent r.method r.header).body = .unending := by
    rw [h.payload, Payload.sent]
    split
    · exact .inl rfl
    · exact .inr rfl
  rw [exchange]
  split
  · rcases hsent with hbody | hbody <;> simp only [hbody]
    · refine ⟨[_], seen_answer n _, fun q hq => ?_⟩
      obtain rfl := List.mem_singleton.mp hq
      exact ⟨h.method, rfl⟩
    · exact .refl n
  · exact .refl n

/-- **Wherever a question is redirected, only questions are sent.** -/
theorem asksOnly_follow (first : Url) (left : Nat) (hr : r.IsQuestion) (hsent : sent.IsQuestion) :
    n.AsksOnly (n.follow first r sent left).2 := by
  -- the exchange sends a question, and what is sent after a redirect is one again
  have hexchange : ∀ {n : Network} {sent : Request} {outcome : Outcome} {n' : Network},
      sent.IsQuestion → n.exchange sent = (outcome, n') → n.AsksOnly n' := by
    intro n sent outcome n' hsent heq
    have hasks := n.asksOnly_exchange hsent
    rwa [heq] at hasks
  fun_induction n.follow first r sent left with
  | case1 left n r sent response n' heq hend => exact hexchange hsent heq
  | case2 n r sent response n' heq url hurl => exact hexchange hsent heq
  | case3 n r sent response n' heq url hurl left hsendable next ih =>
    have hnext : next.IsQuestion := ⟨(hr.redirected _).method, (hr.redirected _).payload⟩
    exact (hexchange hsent heq).trans (ih hnext ⟨hnext.method, hnext.payload⟩)
  | case4 n r sent response n' heq url hurl left hsendable => exact hexchange hsent heq
  | case5 left n r sent n' heq => exact hexchange hsent heq
  | case6 left n r sent n' heq => exact hexchange hsent heq

theorem asksOnly_sendFollowing (h : r.IsQuestion) : n.AsksOnly (n.sendFollowing r).2 := by
  rw [sendFollowing]
  split
  · exact n.asksOnly_follow r.url maxRedirects h h
  · exact .refl n

end Network

end Http

namespace Exchange

/-- Whether nothing but questions have been sent from one state of the outside to another, and at
most one of them was recorded. -/
structure AsksOnly (x x' : Exchange) : Prop where
  network : x.network.AsksOnly x'.network
  metrics : x'.metrics = x.metrics ∨
    ∃ code, x'.metrics = x.metrics.recordIssuerRequest "GET" code

/-- A request that is sent is recorded by its method, if anything comes of it. -/
theorem metrics_send (x : Exchange) (r : Request) :
    (x.send r).2.metrics = x.metrics ∨
      ∃ code, (x.send r).2.metrics = x.metrics.recordIssuerRequest r.method code := by
  unfold send
  rcases x.network.sendFollowing r with ⟨- | (fault | response), n⟩
  · exact .inl rfl
  · exact .inr ⟨none, rfl⟩
  · exact .inr ⟨some response.status.codeText, rfl⟩

/-- Sending a question sends nothing but questions. -/
theorem asksOnly_send (x : Exchange) {r : Request} (h : r.IsQuestion) :
    x.AsksOnly (x.send r).2 := by
  have hmetrics := x.metrics_send r
  rw [h.method] at hmetrics
  exact ⟨x.network.asksOnly_sendFollowing h, hmetrics⟩

end Exchange

namespace Provider

/-- A request is made if the issuer's place is a URL with a host, and then it asks for that. -/
theorem request_cases (issuer : String) :
    ((∀ url, Url.ofText (documentUrl issuer) = .ok url → url.hostText? = none) ∧
      ∃ fault, request issuer = .error fault) ∨
    ∃ r url, request issuer = .ok r ∧ Url.ofText (documentUrl issuer) = .ok url ∧
      r.method = "GET" ∧ r.url = url.withoutCredentials ∧ r.payload = .none ∧
      r.header = credentialFields url ++ [.ofText "accept" "application/json"] := by
  rw [request]
  rcases Url.ofText (documentUrl issuer) with fault | url
  · refine .inl ⟨?_, _, rfl⟩
    rintro url ⟨⟩
  · dsimp only [Request.toUrl?]
    rcases hhost : url.hostText? with - | host
    · refine .inl ⟨?_, _, rfl⟩
      rintro url' ⟨⟩
      exact hhost
    · exact .inr ⟨_, url, rfl, rfl, rfl, rfl, rfl, rfl⟩

/-- The request for a document is a question, which is sent as a whole. -/
theorem isQuestion_and_isWhole_of_request {issuer : String} {r : Request}
    (h : request issuer = .ok r) : r.IsQuestion ∧ r.IsWhole := by
  rcases request_cases issuer with ⟨-, fault, hr⟩ | ⟨r', url, hr, -, hmethod, -, hpayload, hparts⟩ <;>
    rw [hr] at h
  · cases h
  · obtain rfl := Except.ok.inj h
    refine ⟨⟨hmethod, hpayload⟩, .inl hpayload, ?_⟩
    rw [hparts, Header.getAll_concat, TokenSource.getAll_credentialFields_of_ne (by decide)]
    rfl

/-- What a discovery sends is its request, if there is one. -/
theorem snd_discover {issuer : String} {r : Request} (h : request issuer = .ok r) (x : Exchange) :
    (discover issuer x).2 = (x.send r).2 := by
  rw [discover, fetch, h]
  dsimp only
  generalize x.send r = sent
  rcases sent with ⟨- | (fault | response), x'⟩ <;> rfl

/-- **A discovery sends nothing but questions**, whatever comes of it. -/
theorem asksOnly_discover (issuer : String) (x : Exchange) :
    x.AsksOnly (discover issuer x).2 := by
  rcases hr : request issuer with fault | r
  · have hnone : (discover issuer x).2 = x := by rw [discover, fetch, hr]
    rw [hnone]
    exact ⟨.refl x.network, .inl rfl⟩
  · rw [snd_discover hr]
    exact x.asksOnly_send (isQuestion_and_isWhole_of_request hr).1

end Provider

namespace TokenSource

/-- A request for a token is no question. -/
theorem method_ne_of_request {source : TokenSource} {r : Request} (h : source.request = .ok r) :
    r.method ≠ "GET" := by
  rcases source.request_cases with ⟨-, fault, hr⟩ | ⟨-, r', hr, hpost, -⟩ <;> rw [hr] at h
  · cases h
  · obtain rfl := Except.ok.inj h
    rw [hpost]
    decide

end TokenSource

end TokenKeeper
