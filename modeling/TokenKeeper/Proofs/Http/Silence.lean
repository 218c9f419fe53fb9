import TokenKeeper.Proofs.Http.Header

/-!
# Servers that never respond

A client without a limit of time waits for ever for a server that keeps the connection and sends
nothing. Nothing else leaves it waiting: of a request that can be sent as a whole comes a response or
a fault, however often it is redirected, unless the last one of the replies that were taken is of
this kind (`Network.fst_sendFollowing_eq_none_iff`).

A request stays one that can be sent as a whole when it is redirected, since what a redirect takes
away is the payload together with what the header says about it (`Request.IsWhole.redirected`).
-/

namespace TokenKeeper.Http

/-! ## Requests that can be sent as a whole -/

/-- A request that can be sent as a whole: its payload is there before, and the header announces no
other length. -/
structure Request.IsWhole (r : Request) : Prop where
  payload : r.payload = .none ∨ ∃ bytes, r.payload = .sized bytes
  length : r.header.getAll "content-length" = []

/-- A redirect gives a header no values of a name but that for the place it came from. -/
theorem getAll_redirectedHeader_eq_nil {h : Header} {name : String} (hne : name ≠ "referer")
    (hnone : h.getAll name = []) (source target : Url) :
    (redirectedHeader h source target).getAll name = [] := by
  rw [redirectedHeader]
  split <;> split <;> simp only [Header.getAll_insert_of_ne _ hne, Header.getAll_eraseAll, hnone,
    ite_self]

namespace Request.IsWhole

variable {r : Request}

theorem exists_sent (h : r.IsWhole) :
    ∃ fields body, r.payload.sent r.method r.header = ⟨fields, .whole body⟩ := by
  rcases h.payload with hnone | ⟨bytes, hsized⟩
  · rw [hnone]
    exact ⟨_, _, Payload.sent_none h.length r.method⟩
  · rw [hsized]
    exact ⟨_, _, Payload.sent_sized h.length r.method bytes⟩

/-- It stays one when it is redirected, -/
theorem redirected (h : r.IsWhole) (s : Status) : (r.redirected s).IsWhole := by
  rw [Request.redirected]
  split
  · exact ⟨.inl rfl, (Header.getAll_eraseAll _ _ _).trans (if_pos (by decide))⟩
  · exact h

/-- when it goes to another place, -/
theorem withUrl (h : r.IsWhole) (url : Url) : { r with url }.IsWhole :=
  ⟨h.payload, h.length⟩

/-- and when it says where it comes from. -/
theorem withRedirectedHeader (h : r.IsWhole) (source target : Url) :
    { r with header := redirectedHeader r.header source target }.IsWhole :=
  ⟨h.payload, getAll_redirectedHeader_eq_nil (by decide) h.length source target⟩

end Request.IsWhole

/-! ## Replies that are taken -/

/-- Only a server that keeps the connection sends nothing for ever. -/
theorem Reply.wire_eq_none_iff {method : String} {reply : Reply} :
    reply.wire method = none ↔ reply = .hang := by
  cases reply <;> simp [Reply.wire]

namespace Network

/-- Whether a client is left waiting for ever from one state of the network to another: of the
replies that were taken the last one keeps the connection and sends nothing. -/
def EndsInSilence (n n' : Network) : Prop :=
  ∃ taken, n.replies = taken ++ .hang :: n'.replies

variable {n n₁ n' : Network} {r sent : Request}

/-- No reply has been taken. -/
theorem not_endsInSilence (hsame : n'.replies = n.replies) : ¬ n.EndsInSilence n' := by
  rintro ⟨taken, h⟩
  have hlength := congrArg List.length h
  rw [hsame, List.length_append, List.length_cons] at hlength
  omega

/-- The first reply that is taken is the last one, or those behind it decide. -/
theorem endsInSilence_cons_iff {reply : Reply} (htaken : n.replies = reply :: n₁.replies) :
    n.EndsInSilence n' ↔ reply = .hang ∧ n₁.replies = n'.replies ∨ n₁.EndsInSilence n' := by
  rw [EndsInSilence, htaken]
  constructor
  · rintro ⟨- | ⟨first, taken⟩, heq⟩
    · exact .inl (List.cons.inj heq)
    · exact .inr ⟨taken, (List.cons.inj heq).2⟩
  · rintro (⟨rfl, hrest⟩ | ⟨taken, hrest⟩)
    · exact ⟨[], congrArg (Reply.hang :: ·) hrest⟩
    · exact ⟨reply :: taken, congrArg (reply :: ·) hrest⟩

/-! ## One exchange -/

variable (n)

/-- A server takes its next reply, if it has one, and nothing comes of it exactly if this one keeps
silent. -/
theorem answer_cases (seen : SeenRequest) :
    (n.answer seen).2.replies = n.replies ∧ (n.answer seen).1 ≠ .pending ∨
      ∃ reply, n.replies = reply :: (n.answer seen).2.replies ∧
        ((n.answer seen).1 = .pending ↔ reply = .hang) := by
  have hreplies : (n.answer seen).2.replies = n.replies.tail := by
    rw [answer]
    split
    · rfl
    · split <;> rfl
  have hpending : (n.answer seen).1 = .pending ↔ n.replies.head?.getD .close = .hang := by
    rw [← Reply.wire_eq_none_iff, answer]
    split
    · rename_i hwire
      exact iff_of_true rfl hwire
    · rename_i bytes hwire
      rw [hwire]
      split <;> simp
  rcases hn : n.replies with - | ⟨reply, rest⟩
  · rw [hn] at hreplies hpending
    exact .inl ⟨hreplies, fun h => nomatch hpending.mp h⟩
  · rw [hn] at hreplies hpending
    exact .inr ⟨reply, congrArg (reply :: ·) hreplies.symm, hpending⟩

/-- So does the server that a request leads to, if there is one. -/
theorem exchange_cases (h : r.IsWhole) :
    (n.exchange r).2.replies = n.replies ∧ (n.exchange r).1 ≠ .pending ∨
      ∃ reply, n.replies = reply :: (n.exchange r).2.replies ∧
        ((n.exchange r).1 = .pending ↔ reply = .hang) := by
  obtain ⟨fields, body, hsent⟩ := h.exists_sent
  by_cases hserves : n.serves r.url.scheme = true
  · rw [n.exchange_of_sent r hserves hsent]
    exact n.answer_cases _
  · rw [n.exchange_of_not_serves r hserves]
    exact .inl ⟨rfl, nofun⟩

/-- **One exchange.** Nothing comes of a request exactly if the server keeps silent. -/
theorem fst_exchange_eq_pending_iff (h : r.IsWhole) :
    (n.exchange r).1 = .pending ↔ n.EndsInSilence (n.exchange r).2 := by
  rcases n.exchange_cases h with ⟨hsame, hne⟩ | ⟨reply, htaken, hpending⟩
  · exact iff_of_false hne (not_endsInSilence hsame)
  · rw [hpending, endsInSilence_cons_iff htaken, or_iff_left (not_endsInSilence rfl),
      and_iff_left rfl]

/-- The server that a response comes from has not kept silent, so the replies behind it decide. -/
theorem endsInSilence_iff_of_response (h : r.IsWhole) {response : Response}
    (hexchange : n.exchange r = (.response response, n₁)) :
    n.EndsInSilence n' ↔ n₁.EndsInSilence n' := by
  have hcases := n.exchange_cases h
  rw [hexchange] at hcases
  rcases hcases with ⟨hsame, -⟩ | ⟨reply, htaken, hpending⟩
  · rw [EndsInSilence, EndsInSilence, hsame]
  · rw [endsInSilence_cons_iff htaken]
    exact or_iff_right fun hsilent => nomatch hpending.mpr hsilent.1

/-! ## All redirects -/

/-- **Wherever a request is redirected**, nothing comes of it exactly if the server that is asked
last keeps silent. -/
theorem fst_follow_eq_none_iff (first : Url) (left : Nat) (hr : r.IsWhole) (hsent : sent.IsWhole) :
    (n.follow first r sent left).1 = none ↔ n.EndsInSilence (n.follow first r sent left).2 := by
  -- nothing comes in the end exactly if nothing comes of the exchange that is the last one
  have hlast : ∀ {n : Network} {sent : Request} {outcome : Outcome} {n' : Network},
      sent.IsWhole → n.exchange sent = (outcome, n') →
      (outcome = .pending ↔ n.EndsInSilence n') := by
    intro n sent outcome n' hsent heq
    have hiff := n.fst_exchange_eq_pending_iff hsent
    rwa [heq] at hiff
  fun_induction n.follow first r sent left with
  | case1 left n r sent response n' heq hend => exact .trans (by simp) (hlast hsent heq)
  | case2 n r sent response n' heq url hurl => exact .trans (by simp) (hlast hsent heq)
  | case3 n r sent response n' heq url hurl left hsendable next ih =>
    have hnext : next.IsWhole := (hr.redirected response.status).withUrl _
    rw [n.endsInSilence_iff_of_response hsent heq]
    exact ih hnext (hnext.withRedirectedHeader r.url url)
  | case4 n r sent response n' heq url hurl left hsendable =>
    exact .trans (by simp) (hlast hsent heq)
  | case5 left n r sent n' heq => exact .trans (by simp) (hlast hsent heq)
  | case6 left n r sent n' heq => exact .trans (by simp) (hlast hsent heq)

theorem fst_sendFollowing_eq_none_iff (h : r.IsWhole) :
    (n.sendFollowing r).1 = none ↔ n.EndsInSilence (n.sendFollowing r).2 := by
  rw [sendFollowing]
  split
  · exact n.fst_follow_eq_none_iff r.url maxRedirects h h
  · exact iff_of_false (Option.some_ne_none _) (not_endsInSilence rfl)

end Network

end TokenKeeper.Http
