import TokenKeeper.Proofs.Proxy.Authorization

/-!
# The fields that a proxy writes itself

A proxy says to its backend which host it takes it for, who asks and which part of the path it has
taken away. The first two are its own alone: whatever a client writes there, or has erased by
listing it under `connection`, the backend sees the host of the proxy's URL and the live token. The
prefix is added to those that the client brings along (`ownFields_of_forwarded`).
-/

namespace TokenKeeper

open Http

namespace Proxy

variable {p : Proxy} {raw : String} {u url : Url} {r : Incoming} {token : Option Token}
  {request : Request}

/-- The prefixes of a client that are passed on: none if it lists the name under `connection`. -/
def passedPrefixes (h : Header) : List (List UInt8) :=
  if Header.forwardedPrefix ∈ h.connectionNames then []
  else (h.getAll Header.forwardedPrefix).map trimValue

/-- No prefix is passed on if there is none, or if it is listed. -/
theorem passedPrefixes_eq_nil_iff (h : Header) :
    passedPrefixes h = [] ↔
      Header.forwardedPrefix ∈ h.connectionNames ∨ h.getAll Header.forwardedPrefix = [] := by
  rw [passedPrefixes]
  split
  · rename_i hlisted
    exact iff_of_true rfl (.inl hlisted)
  · rename_i hlisted
    rw [List.map_eq_nil_iff, or_iff_right hlisted]

/-- What the proxy tells its backend in a header: the host of the backend, the authorization of a
token, and that it has taken nothing away from the path, behind some other prefixes. -/
structure HasOwnFields (p : Proxy) (token : Option Token) (prefixes : List (List UInt8))
    (h : Header) : Prop where
  host : h.getAll "host" = [Utf8.ofText p.backend.authority]
  authorization :
    h.getAll "authorization" = (token.bind authorization?).toList.map trimValue
  forwardedPrefix : h.getAll Header.forwardedPrefix = prefixes ++ [Utf8.ofText "/"]

/-! ## What is passed on -/

/-- The header that is passed on has under most names what is left of the client's. -/
theorem getAll_forwardedHeader_of_ne {name : String} (hauth : name ≠ "authorization")
    (hfor : name ≠ Header.forwardedFor) (r : Incoming) (token : Option Token) :
    (forwardedHeader r token).getAll name =
      (r.header.withoutHopFields.erase "host").getAll name ++
        if Header.forwardedPrefix = name then [Utf8.ofText "/"] else [] := by
  unfold forwardedHeader
  simp only
  rw [← Header.getAll_erase_of_ne (r.header.withoutHopFields.erase "host") hauth]
  -- the token changes nothing under the name, and neither does the client's address
  rcases token.bind authorization? with - | value <;> rcases r.client with - | client <;>
    simp only [Header.getAll_insert_of_ne _ hauth, Header.getAll_append,
      Header.getAll_appendForwardedFor_of_ne _ hfor]

/-- It has no host. -/
theorem getAll_host_forwardedHeader (r : Incoming) (token : Option Token) :
    (forwardedHeader r token).getAll "host" = [] := by
  rw [getAll_forwardedHeader_of_ne (by decide) (by decide), Header.getAll_erase_self,
    if_neg (by decide), List.append_nil]

/-- It has the prefixes of the client, if it does not list them, and that of the proxy. -/
theorem getAll_prefix_forwardedHeader (r : Incoming) (token : Option Token) :
    ((forwardedHeader r token).getAll Header.forwardedPrefix).map trimValue =
      passedPrefixes r.header ++ [Utf8.ofText "/"] := by
  have hslash : trimValue (Utf8.ofText "/") = Utf8.ofText "/" := by decide
  rw [getAll_forwardedHeader_of_ne (by decide) (by decide), Header.getAll_erase_of_ne _ (by decide),
    Header.getAll_withoutHopFields _ (by decide), if_pos rfl, List.map_append, List.map_singleton,
    hslash, passedPrefixes]
  split <;> rfl

/-- A request is made for the client, whatever the header is. The client finds the host of the
backend in its URL. -/
theorem exists_outgoing_eq (hraw : Url.ofText raw = .ok u)
    (hbackend : Backend.ofUrl u = .ok p.backend) (r : Incoming) (token : Option Token) :
    ∃ request, p.outgoing r token = .ok request ∧
      Url.withPort (request.url.hostText?.getD "") request.url.port = p.backend.authority := by
  obtain ⟨host, hhost, hne, hb⟩ := Backend.ofUrl_eq_ok_iff.mp hbackend
  obtain ⟨url, hread, -, hhost', hport, -⟩ :=
    Backend.exists_ofText_target_eq hraw hbackend r.target
  have htext : url.hostText? = some host.text :=
    Url.hostText?_eq_some_iff.mpr ⟨host, hhost'.trans hhost, hne, rfl⟩
  have htext' : url.withoutCredentials.hostText? = some host.text := htext
  simp only [outgoing, hread, Request.toUrl?, htext]
  refine ⟨_, rfl, ?_⟩
  rw [htext', hb, ← hport]
  rfl

/-- There is no padding in the host of a backend. -/
theorem space_lt_of_mem_authority (hraw : Url.ofText raw = .ok u)
    (hbackend : Backend.ofUrl u = .ok p.backend) :
    ∀ c ∈ p.backend.authority.toList, 0x20 < c.toNat := by
  obtain ⟨host, hhost, hne, hb⟩ := Backend.ofUrl_eq_ok_iff.mp hbackend
  intro c hc
  rw [hb] at hc
  exact ((Url.isOrigin_of_ofText hraw hhost hne).isAuthorityChar c hc).space_lt

/-- What is put on the connection tells the backend what the proxy has to say. -/
theorem hasOwnFields_of_outgoing (hraw : Url.ofText raw = .ok u)
    (hbackend : Backend.ofUrl u = .ok p.backend) (hout : p.outgoing r token = .ok request) :
    HasOwnFields p token (passedPrefixes r.header) request.sentHeader := by
  obtain ⟨url, hurl, -, hheader⟩ := exists_of_outgoing hout
  rw [credentialFields_of_target hraw hbackend hurl, List.nil_append] at hheader
  obtain ⟨request', hmade, hauthority⟩ := exists_outgoing_eq hraw hbackend r token
  obtain rfl := Except.ok.inj (hout.symm.trans hmade)
  have hpayload : ∀ f ∈ (request.payload.sent request.method request.header).fields,
      f.name ∈ payloadNames := fun f hf => name_mem_of_mem_sent hf
  constructor
  case host =>
    have hnone : request.header.getAll "host" = [] := by
      rw [hheader, getAll_host_forwardedHeader]
    rw [Request.sentHeader, Network.getAll_host_seenRequest request hnone hpayload, hauthority,
      trimValue_ofText (space_lt_of_mem_authority hraw hbackend)]
  case authorization =>
    rw [Request.sentHeader, Network.getAll_seenRequest request (by decide) hpayload, hheader,
      getAll_forwardedHeader]
  case forwardedPrefix =>
    rw [Request.sentHeader, Network.getAll_seenRequest request (by decide) hpayload, hheader,
      getAll_prefix_forwardedHeader]

/-! ## Two requests -/

/-- **What a client has no say in.** Take a proxy for a backend that is named by a URL, and two
requests that come while the same is published and the clock shows the same, whatever their headers
are and whatever else is different between them. A request is made for the client of each of them,
and the backend sees the header that the client puts on the connection for it. In these headers,

* both name the backend as the only host, as its URL does;
* both have the same authorization, that of the live token;
* both have the prefix `/` of the proxy, behind the prefixes of the client's own that are passed on,
  and nothing but that prefix exactly if the client has none or lists its name under
  `connection`. -/
theorem ownFields_of_forwarded (hraw : Url.ofText raw = .ok u)
    (hbackend : Backend.ofUrl u = .ok p.backend) {s₁ s₂ : ProxyState}
    (hchannel : s₁.channel = s₂.channel) (hclock : s₁.now = s₂.now) (r₁ r₂ : Incoming)
    (n₁ n₂ : Network) :
    ∃ request₁ request₂, p.outgoing r₁ (liveToken s₁) = .ok request₁ ∧
      p.outgoing r₂ (liveToken s₂) = .ok request₂ ∧
      (∀ seen₁ ∈ (p.serve s₁ r₁ n₁).1.seen, seen₁.header = request₁.sentHeader) ∧
      (∀ seen₂ ∈ (p.serve s₂ r₂ n₂).1.seen, seen₂.header = request₂.sentHeader) ∧
      request₁.sentHeader.getAll "host" = [Utf8.ofText p.backend.authority] ∧
      request₂.sentHeader.getAll "host" = [Utf8.ofText p.backend.authority] ∧
      request₁.sentHeader.getAll "authorization" = request₂.sentHeader.getAll "authorization" ∧
      request₁.sentHeader.getAll Header.forwardedPrefix =
        passedPrefixes r₁.header ++ [Utf8.ofText "/"] ∧
      request₂.sentHeader.getAll Header.forwardedPrefix =
        passedPrefixes r₂.header ++ [Utf8.ofText "/"] ∧
      (request₁.sentHeader.getAll Header.forwardedPrefix = [Utf8.ofText "/"] ↔
        Header.forwardedPrefix ∈ r₁.header.connectionNames ∨
          r₁.header.getAll Header.forwardedPrefix = []) := by
  have hlive : liveToken s₁ = liveToken s₂ := by
    rw [liveToken, liveToken, hchannel, hclock]
  obtain ⟨request₁, hout₁, -⟩ := exists_outgoing_eq hraw hbackend r₁ (liveToken s₁)
  obtain ⟨request₂, hout₂, -⟩ := exists_outgoing_eq hraw hbackend r₂ (liveToken s₂)
  have hown₁ := hasOwnFields_of_outgoing hraw hbackend hout₁
  have hown₂ := hasOwnFields_of_outgoing hraw hbackend hout₂
  refine ⟨request₁, request₂, hout₁, hout₂, fun _ => header_of_mem_seen s₁ hout₁,
    fun _ => header_of_mem_seen s₂ hout₂, hown₁.host, hown₂.host, ?_, hown₁.forwardedPrefix,
    hown₂.forwardedPrefix, ?_⟩
  · rw [hown₁.authorization, hown₂.authorization, hlive]
  · rw [hown₁.forwardedPrefix, List.append_left_eq_self, passedPrefixes_eq_nil_iff]

/-- A client that lists the fields of the proxy and brings its own is served as one without any. -/
theorem ownFields_of_forwarded_listed :
    let p : Proxy := { backend := ⟨"http", "up.example", ⟨"/base", none⟩⟩ }
    let s : ProxyState :=
      { channel := ({} : Channel).write { accessToken := "live" }, now := ⟨0⟩ }
    let r₁ : Incoming := { target := { path := "/q" } }
    let r₂ : Incoming :=
      { r₁ with
        header :=
          [ .ofText "connection" "host, X-Forwarded-Prefix", .ofText "host" "other.example",
            .ofText Header.forwardedPrefix "/evil", .ofText "authorization" "Basic eDp5" ] }
    ∃ seen₁ ∈ (p.serve s r₁ { reachable := true }).1.seen,
      ∃ seen₂ ∈ (p.serve s r₂ { reachable := true }).1.seen,
        seen₁.header.getAll "host" = seen₂.header.getAll "host" ∧
        seen₁.header.getAll "authorization" = seen₂.header.getAll "authorization" ∧
        seen₁.header.getAll Header.forwardedPrefix =
          seen₂.header.getAll Header.forwardedPrefix := by
  intro p s r₁ r₂
  have hraw : Url.ofText "http://up.example/base" =
      .ok { scheme := "http", host := some (.name "up.example"), path := .rooted ["base"] } := by
    decide +kernel
  have hbackend : Backend.ofUrl
      { scheme := "http", host := some (.name "up.example"), path := .rooted ["base"] } =
        .ok p.backend := by
    decide +kernel
  have hne₁ : (p.serve s r₁ { reachable := true }).1.seen ≠ [] := by decide +kernel
  have hne₂ : (p.serve s r₂ { reachable := true }).1.seen ≠ [] := by decide +kernel
  obtain ⟨seen₁, hseen₁⟩ := List.exists_mem_of_ne_nil _ hne₁
  obtain ⟨seen₂, hseen₂⟩ := List.exists_mem_of_ne_nil _ hne₂
  obtain ⟨request₁, request₂, -, -, hsame₁, hsame₂, hhost₁, hhost₂, hauth, hprefix₁, hprefix₂, -⟩ :=
    ownFields_of_forwarded (p := p) hraw hbackend rfl rfl r₁ r₂ _ _
  have hpassed : passedPrefixes r₁.header = passedPrefixes r₂.header := by decide +kernel
  refine ⟨seen₁, hseen₁, seen₂, hseen₂, ?_⟩
  rw [hsame₁ seen₁ hseen₁, hsame₂ seen₂ hseen₂, hprefix₁, hprefix₂, hpassed]
  exact ⟨hhost₁.trans hhost₂.symm, hauth, rfl⟩

/-- A client that does not list its own prefix is passed on with it, so two requests that are the
same but for their headers do not show the backend the same prefixes. -/
theorem forwardedPrefix_follows_client :
    let p : Proxy := { backend := ⟨"http", "up.example", ⟨"/base", none⟩⟩ }
    let r₁ : Incoming := { target := { path := "/q" } }
    let r₂ : Incoming := { r₁ with header := [.ofText Header.forwardedPrefix "/evil"] }
    ∃ u, Url.ofText "http://up.example/base" = .ok u ∧ Backend.ofUrl u = .ok p.backend ∧
      ∃ seen₁ ∈ (p.serve { now := ⟨0⟩ } r₁ { reachable := true }).1.seen,
        ∃ seen₂ ∈ (p.serve { now := ⟨0⟩ } r₂ { reachable := true }).1.seen,
          seen₁.header.getAll Header.forwardedPrefix = [Utf8.ofText "/"] ∧
          seen₂.header.getAll Header.forwardedPrefix = [Utf8.ofText "/evil", Utf8.ofText "/"] ∧
          seen₁.header.getAll Header.forwardedPrefix ≠
            seen₂.header.getAll Header.forwardedPrefix := by
  intro p r₁ r₂
  have hraw : Url.ofText "http://up.example/base" =
      .ok { scheme := "http", host := some (.name "up.example"), path := .rooted ["base"] } := by
    decide +kernel
  have hvalues₁ : (p.serve { now := ⟨0⟩ } r₁ { reachable := true }).1.seen.map
      (·.header.getAll Header.forwardedPrefix) = [[Utf8.ofText "/"]] := by
    decide +kernel
  have hvalues₂ : (p.serve { now := ⟨0⟩ } r₂ { reachable := true }).1.seen.map
      (·.header.getAll Header.forwardedPrefix) = [[Utf8.ofText "/evil", Utf8.ofText "/"]] := by
    decide +kernel
  obtain ⟨seen₁, hseen₁, hvalues₁⟩ := List.map_eq_singleton_iff.mp hvalues₁
  obtain ⟨seen₂, hseen₂, hvalues₂⟩ := List.map_eq_singleton_iff.mp hvalues₂
  refine ⟨_, hraw, by decide +kernel, seen₁, ?_, seen₂, ?_, hvalues₁, hvalues₂, ?_⟩
  · rw [hseen₁]
    exact List.mem_singleton_self seen₁
  · rw [hseen₂]
    exact List.mem_singleton_self seen₂
  · rw [hvalues₁, hvalues₂]
    decide

end Proxy

end TokenKeeper
