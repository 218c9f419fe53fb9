import TokenKeeper.Proofs.Http.Header
import TokenKeeper.Proofs.Proxy.Confinement

/-!
# The authorization of forwarded requests

Whatever a client writes into its header, what the proxy sends on has the authorization of the live
token and no other one: that of the token that was published last, if it is of use, and otherwise
none at all (`authorization_of_forwarded`).

Three things come together. The state in which a request is answered holds what was published last,
and the clock that was set last (`liveToken_run`). The header that is passed on has no authorization
but the token's, since the client's is erased behind everything that its `connection` field can
erase (`getAll_forwardedHeader`). And the client adds none, because no user information can be read
from the text of a target (`credentialFields_of_target`).
-/

namespace TokenKeeper

open Http

/-! ## What has happened so far -/

/-- The token that an action publishes. -/
def ProxyAction.published? : ProxyAction → Option Token
  | publish t => some t
  | _ => none

/-- What an action sets the clock to. -/
def ProxyAction.clock? : ProxyAction → Option Instant
  | clock now => some now
  | _ => none

/-- The token that was published last in the course of some actions. Once the writer is gone none is
published any more. -/
def lastPublished? (as : List ProxyAction) : Option Token :=
  ((as.takeWhile (· ≠ .dropWriter)).filterMap ProxyAction.published?).getLast?

/-- What the clock shows after some actions. -/
def clockAfter (start : Instant) (as : List ProxyAction) : Instant :=
  (as.filterMap ProxyAction.clock?).getLast?.getD start

/-- Whether a token can be used in a request at an instant: it is not empty and has not expired, and
its authorization has no control byte but tabs. -/
structure Token.IsUsableAt (t : Token) (now : Instant) : Prop where
  ne_empty : t.accessToken ≠ ""
  lt_expiry : ∀ e, t.expiry = some e → now < e
  legal : ∀ b ∈ Utf8.ofText ("Bearer " ++ t.accessToken), b = 0x09 ∨ 0x20 ≤ b ∧ b ≠ 0x7F

/-- Whether values are the authorization that a request is to carry after some actions: that of the
token that was published last, if it can be used by then, and otherwise none. -/
structure IsDueAuthorization (start : Instant) (as : List ProxyAction)
    (values : List (List UInt8)) : Prop where
  usable : ∀ t, lastPublished? as = some t → t.IsUsableAt (clockAfter start as) →
    values = [Utf8.ofText ("Bearer " ++ t.accessToken)]
  otherwise : (∀ t, lastPublished? as = some t → ¬ t.IsUsableAt (clockAfter start as)) → values = []

/-- A token can be used if it is valid and its authorization is a legal value. -/
theorem Token.isUsableAt_iff (t : Token) (now : Instant) :
    t.IsUsableAt now ↔ t.isValidAt now = true ∧ isValue (Utf8.ofText t.authorization) = true := by
  have hlegal : isValue (Utf8.ofText t.authorization) = true ↔
      ∀ b ∈ Utf8.ofText ("Bearer " ++ t.accessToken), b = 0x09 ∨ 0x20 ≤ b ∧ b ≠ 0x7F := by
    simp only [isValue, isValueByte, authorization, List.all_eq_true, Bool.or_eq_true,
      Bool.and_eq_true, decide_eq_true_eq, bne_iff_ne, beq_iff_eq, ge_iff_le]
    exact forall₂_congr fun b _ => or_comm
  rw [isValidAt_iff, hlegal]
  exact ⟨fun h => ⟨⟨h.ne_empty, h.lt_expiry⟩, h.legal⟩, fun ⟨⟨hne, hlt⟩, h⟩ => ⟨hne, hlt, h⟩⟩

namespace Proxy

variable (p : Proxy) (s : ProxyState)

/-! ## Runs -/

theorem step_request (r : Incoming) (n : Network) :
    p.step s (.request r n) = (some (p.serve s r n).1, (p.serve s r n).2) := by
  rw [step]

theorem seen_serve (r : Incoming) (n : Network) :
    (p.serve s r n).1.seen = (p.answer (liveToken s) r n).2.seen.drop n.seen.length := by
  rw [serve]

/-- Answering a request changes neither what is published nor the clock. -/
theorem state_serve (r : Incoming) (n : Network) :
    (p.serve s r n).2.channel = s.channel ∧ (p.serve s r n).2.now = s.now := by
  rw [serve]
  exact ⟨rfl, rfl⟩

theorem run_cons (a : ProxyAction) (as : List ProxyAction) :
    p.run s (a :: as) =
      ((p.step s a).1 :: (p.run (p.step s a).2 as).1, (p.run (p.step s a).2 as).2) := by
  rw [run]

theorem run_append (as bs : List ProxyAction) :
    p.run s (as ++ bs) =
      ((p.run s as).1 ++ (p.run (p.run s as).2 bs).1, (p.run (p.run s as).2 bs).2) := by
  induction as generalizing s with
  | nil => rfl
  | cons a as ih => rw [List.cons_append, run_cons, run_cons, ih, List.cons_append]

theorem length_run (as : List ProxyAction) : (p.run s as).1.length = as.length := by
  induction as generalizing s with
  | nil => rfl
  | cons a as ih => rw [run_cons, List.length_cons, List.length_cons, ih]

/-- A request is answered in the state that the actions before it lead to. -/
theorem getElem?_run (before after : List ProxyAction) (r : Incoming) (n : Network) :
    (p.run s (before ++ .request r n :: after)).1[before.length]? =
      some (some (p.serve (p.run s before).2 r n).1) := by
  rw [run_append, List.getElem?_append_right (Nat.le_of_eq (p.length_run s before)),
    length_run, Nat.sub_self, run_cons, step_request, List.getElem?_cons_zero]

/-- What is published becomes current as long as there is a writer, and nothing else does. -/
theorem current_run (as : List ProxyAction) :
    (p.run s as).2.channel.current =
      if s.channel.hasWriter then (lastPublished? as).or s.channel.current
      else s.channel.current := by
  induction as generalizing s with
  | nil => cases s.channel.hasWriter <;> rfl
  | cons a as ih =>
    rw [run_cons, ih]
    cases a with
    | clock now => rfl
    | publish t =>
      cases hwriter : s.channel.hasWriter
      · simp [step, hwriter]
      · simp [step, hwriter, Channel.write, lastPublished?, ProxyAction.published?,
          List.getLast?_cons]
    | dropWriter => cases hwriter : s.channel.hasWriter <;> simp [step, lastPublished?]
    | request r n =>
      rw [step_request, (p.state_serve s r n).1]
      rfl

theorem now_run (as : List ProxyAction) : (p.run s as).2.now = clockAfter s.now as := by
  induction as generalizing s with
  | nil => rfl
  | cons a as ih =>
    rw [run_cons, ih]
    cases a with
    | clock now => simp [step, clockAfter, ProxyAction.clock?, List.getLast?_cons]
    | publish t =>
      cases hwriter : s.channel.hasWriter <;> simp [step, hwriter, clockAfter, ProxyAction.clock?]
    | dropWriter => rfl
    | request r n =>
      rw [step_request, (p.state_serve s r n).2]
      rfl

theorem readers_run (as : List ProxyAction) :
    (p.run s as).2.channel.readers = s.channel.readers := by
  induction as generalizing s with
  | nil => rfl
  | cons a as ih =>
    rw [run_cons, ih]
    cases a with
    | clock now => rfl
    | publish t => cases hwriter : s.channel.hasWriter <;> simp [step, hwriter, Channel.write]
    | dropWriter => rfl
    | request r n => rw [step_request, (p.state_serve s r n).1]

/-- **The live token** is the one that was published last, while it is valid. -/
theorem liveToken_run (start : Instant) (as : List ProxyAction) :
    liveToken (p.run { now := start } as).2 =
      (lastPublished? as).filter (·.isValidAt (clockAfter start as)) := by
  have hcurrent := p.current_run { now := start } as
  have hreaders := p.readers_run { now := start } as
  have hnow := p.now_run { now := start } as
  rw [if_pos rfl, Option.or_none] at hcurrent
  rw [liveToken, Channel.get?, Channel.latest?, hcurrent, hreaders, hnow]
  rfl

/-- The authorization of the live token is the one that is due. -/
theorem isDueAuthorization_liveToken (start : Instant) (as : List ProxyAction) :
    IsDueAuthorization start as
      ((liveToken (p.run { now := start } as).2).bind authorization?).toList := by
  rw [liveToken_run]
  refine ⟨fun t ht husable => ?_, fun hnone => ?_⟩
  · obtain ⟨hvalid, hlegal⟩ := (t.isUsableAt_iff _).mp husable
    rw [ht, Option.filter_some, if_pos hvalid, Option.bind_some, authorization?]
    simp only [hlegal, if_true]
    rfl
  · rcases ht : lastPublished? as with - | t
    · rfl
    · have hunusable := hnone t ht
      rw [Token.isUsableAt_iff, not_and] at hunusable
      rw [Option.filter_some]
      split
      · rename_i hvalid
        simp only [Option.bind_some, authorization?, hunusable hvalid]
        rfl
      · rfl

/-! ## What is passed on -/

/-- The header that is passed on has the authorization of the token, and no other one. -/
theorem getAll_forwardedHeader (r : Incoming) (token : Option Token) :
    (forwardedHeader r token).getAll "authorization" = (token.bind authorization?).toList := by
  have hfor : "authorization" ≠ Header.forwardedFor := by decide
  have hprefix : "authorization" ≠ Header.forwardedPrefix := by decide
  unfold forwardedHeader
  simp only
  rcases token.bind authorization? with - | value
  · rw [Header.getAll_append_of_ne _ hprefix]
    rcases r.client with - | client
    · exact Header.getAll_erase_self _ _
    · exact (Header.getAll_appendForwardedFor_of_ne _ hfor _).trans (Header.getAll_erase_self _ _)
  · exact Header.getAll_insert_self _ _ _

variable {p} {raw : String} {u url : Url}

/-- The text of a target has no user information in it, whatever the request asks for. -/
theorem credentialFields_of_target (hraw : Url.ofText raw = .ok u)
    (hbackend : Backend.ofUrl u = .ok p.backend) {t : Target}
    (hurl : Url.ofText (p.backend.target t) = .ok url) : credentialFields url = [] := by
  obtain ⟨url', hread, -, -, -, huser, hpassword⟩ := Backend.exists_ofText_target_eq hraw hbackend t
  obtain rfl := Except.ok.inj (hurl.symm.trans hread)
  rw [credentialFields, huser, hpassword]
  rfl

/-- What the client is given to send has the authorization of the token, and no other one. -/
theorem authorization_of_outgoing (hraw : Url.ofText raw = .ok u)
    (hbackend : Backend.ofUrl u = .ok p.backend) {r : Incoming} {token : Option Token}
    {request : Request} (h : p.outgoing r token = .ok request) :
    request.header.getAll "authorization" = (token.bind authorization?).toList := by
  obtain ⟨url, hurl, -, hheader⟩ := exists_of_outgoing h
  rw [hheader, credentialFields_of_target hraw hbackend hurl, List.nil_append,
    getAll_forwardedHeader]

/-- Answering a request changes the network as sending what it becomes does. -/
theorem snd_answer {r : Incoming} {token : Option Token} {request : Request}
    (h : p.outgoing r token = .ok request) (n : Network) :
    (p.answer token r n).2 = (n.send request).2 := by
  unfold answer
  simp only [h]
  rcases n.send request with ⟨(- | (fault | response)), n'⟩ <;> rfl

/-- What the backend sees of a request is what the client was given, with the fields that the client
adds. -/
theorem exists_of_mem_seen {r : Incoming} {n : Network} {seen : SeenRequest}
    (h : seen ∈ (p.serve s r n).1.seen) :
    ∃ request body, p.outgoing r (liveToken s) = .ok request ∧ isSendable request.url = true ∧
      seen = Network.seenRequest request (request.payload.sent request.method request.header).fields
        body := by
  rw [seen_serve] at h
  rcases hout : p.outgoing r (liveToken s) with fault | request
  · simp only [answer, hout, List.drop_length, List.not_mem_nil] at h
  · rw [snd_answer hout] at h
    rcases n.seen_send request with hsame | ⟨hsendable, body, hnew⟩
    · rw [hsame, List.drop_length] at h
      cases h
    · rw [hnew, List.drop_left] at h
      exact ⟨request, body, rfl, hsendable, List.mem_singleton.mp h⟩

/-- The backend sees the header that is put on the connection. -/
theorem header_of_mem_seen {r : Incoming} {n : Network} {seen : SeenRequest} {request : Request}
    (hout : p.outgoing r (liveToken s) = .ok request) (h : seen ∈ (p.serve s r n).1.seen) :
    seen.header = request.sentHeader := by
  obtain ⟨request', body, hout', -, rfl⟩ := exists_of_mem_seen s h
  obtain rfl := Except.ok.inj (hout.symm.trans hout')
  rfl

/-! ## The theorem -/

/-- **Token injection.** Take a proxy for a backend that is named by a URL. Tokens are published,
the clock is set, the writer goes away and requests are answered, in any order, and then comes a
request with any header. What the client is given to send carries one authorization, that of the
token that was published last, if the token can be used by then, and otherwise none; what the client
itself wrote into the header, under `authorization` or `connection`, has no part in it. The backend
sees the same, without padding around it. -/
theorem authorization_of_forwarded (hraw : Url.ofText raw = .ok u)
    (hbackend : Backend.ofUrl u = .ok p.backend) (start : Instant) (before after : List ProxyAction)
    (r : Incoming) (n : Network) :
    ∃ answer,
      (p.run { now := start } (before ++ .request r n :: after)).1[before.length]? =
        some (some answer) ∧
      (∀ request, p.outgoing r (liveToken (p.run { now := start } before).2) = .ok request →
        isSendable request.url = true →
        IsDueAuthorization start before (request.header.getAll "authorization")) ∧
      ∀ seen ∈ answer.seen, ∃ values, IsDueAuthorization start before values ∧
        seen.header.getAll "authorization" = values.map trimValue := by
  have hdue := p.isDueAuthorization_liveToken start before
  refine ⟨_, p.getElem?_run _ before after r n, fun request hout _ => ?_,
    fun seen hseen => ?_⟩
  · rwa [authorization_of_outgoing hraw hbackend hout]
  · obtain ⟨request, body, hout, -, rfl⟩ := exists_of_mem_seen _ hseen
    refine ⟨_, hdue, ?_⟩
    rw [← authorization_of_outgoing hraw hbackend hout]
    exact Network.getAll_seenRequest request (by decide) (fun f hf => name_mem_of_mem_sent hf) body

/-- A client that brings its own authorization, and lists it under `connection`, is served with the
newer of two tokens. -/
theorem authorization_of_forwarded_own_field :
    let r : Incoming :=
      { target := { path := "/query" }
        header := [.ofText "connection" "authorization", .ofText "authorization" "Basic eDp5"] }
    let before : List ProxyAction :=
      [ .publish { accessToken := "old" },
        .publish { accessToken := "new", expiry := some ⟨9⟩ }, .clock ⟨5⟩, .dropWriter ]
    ∃ answer,
      (({ backend := ⟨"http", "up.example", ⟨"/base", none⟩⟩ } : Proxy).run { now := ⟨0⟩ }
        (before ++ [.request r { reachable := true }])).1[4]? = some (some answer) ∧
      answer.seen.map (·.header.getAll "authorization") = [[Utf8.ofText "Bearer new"]] := by
  intro r before
  have hraw : Url.ofText "http://up.example/base" =
      .ok { scheme := "http", host := some (.name "up.example"), path := .rooted ["base"] } := by
    decide +kernel
  have hbackend : Backend.ofUrl
      { scheme := "http", host := some (.name "up.example"), path := .rooted ["base"] } =
        .ok ⟨"http", "up.example", ⟨"/base", none⟩⟩ := by
    decide +kernel
  obtain ⟨answer, hanswer, -, hseen⟩ := authorization_of_forwarded
    (p := { backend := ⟨"http", "up.example", ⟨"/base", none⟩⟩ }) hraw hbackend ⟨0⟩ before [] r
    { reachable := true }
  refine ⟨answer, hanswer, ?_⟩
  have hone : ((({ backend := ⟨"http", "up.example", ⟨"/base", none⟩⟩ } : Proxy).run { now := ⟨0⟩ }
      (before ++ [.request r { reachable := true }])).1[before.length]?.map
        (Option.map (·.seen.length))) = some (some 1) := by
    decide +kernel
  rw [hanswer] at hone
  obtain ⟨seen, hsingle⟩ : ∃ seen, answer.seen = [seen] :=
    List.length_eq_one_iff.mp (Option.some.inj (Option.some.inj hone))
  obtain ⟨values, hdue, hvalues⟩ := hseen seen (by simp [hsingle])
  have husable : Token.IsUsableAt { accessToken := "new", expiry := some ⟨9⟩ } ⟨5⟩ :=
    (Token.isUsableAt_iff _ _).mpr ⟨by decide, by decide⟩
  rw [hsingle, List.map_singleton, hvalues, hdue.usable _ rfl husable]
  decide

end Proxy

end TokenKeeper
