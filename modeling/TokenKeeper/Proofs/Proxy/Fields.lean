import TokenKeeper.Proofs.Http.HopFields
import TokenKeeper.Proofs.Proxy.OwnFields

/-!
# The fields that are passed on

Of a client's header a proxy passes on all fields but those of one hop, the host and the
authorization, and of a backend's header all but those of one hop. What is passed on keeps all its
values in their order. Under three names the proxy writes something itself: the authorization of the
token, the prefix behind those of the client, and the client's address behind the chain that came
with the request. `Forwards` says for each name which values the backend is sent,
`fields_of_forwarded` that it is so for every request, and that every response goes back with the
fields that are left of it.

Which fields are of one hop is said in `Http.Header.IsForHop`, without the steps that take them
out. It is about the names that a field can have, and the fields of a request that comes in have no
other ones (`Incoming.isFieldName_of_ofParts`).
-/

namespace TokenKeeper

open Http

/-! ## The address of a client -/

/-- An address is written in visible characters. -/
theorem ClientAddress.isVisible (client : ClientAddress) : ∀ c ∈ client.text.toList, IsVisible c := by
  have halphabet : ∀ c ∈ addressAlphabet, 0x20 ≤ c.toNat ∧ c.toNat < 0x7F :=
    List.all_iff_forall_prop.mp (by decide)
  have hdotted (a : Ipv4) : ∀ c ∈ a.text.toList, 0x20 ≤ c.toNat ∧ c.toNat < 0x7F := by
    intro c hc
    rw [Host.toList_ipv4Text] at hc
    rcases Pieces.mem_of_mem_intercalate hc with rfl | ⟨label, hlabel, hc⟩
    · decide
    · obtain ⟨n, -, rfl⟩ := List.mem_map.mp hlabel
      exact halphabet c (mem_addressAlphabet_of_mem_digits hc)
  intro c hc
  rcases client with a | a
  · exact .inl (hdotted a c hc)
  · have htext : ∀ c ∈ a.text.toList, 0x20 ≤ c.toNat ∧ c.toNat < 0x7F := fun c hc =>
      halphabet c (Ipv6.mem_addressAlphabet hc)
    have hmapped : ∀ c ∈ "::ffff:".toList, 0x20 ≤ c.toNat ∧ c.toNat < 0x7F :=
      List.all_iff_forall_prop.mp (by decide)
    rw [text, Ipv6.mappedText] at hc
    split at hc
    · rw [String.toList_append] at hc
      rcases List.mem_append.mp hc with hc | hc
      · exact .inl (hmapped c hc)
      · exact .inl (hdotted _ c hc)
    · exact .inl (htext c hc)

/-! ## Requests that come in -/

/-- The fields of a request that is made of parts have names. -/
theorem Incoming.isFieldName_of_ofParts {method target : String}
    {fields : List (String × List UInt8)} {payload : Payload} {client : Option String}
    {r : Incoming} (h : ofParts method target fields payload client = .ok r) :
    ∀ f ∈ r.header, IsFieldName f.name := by
  have hread : fields.mapM field? = some r.header := by
    simp only [ofParts, bind, Except.bind, pure, Except.pure] at h
    repeat' split at h
    all_goals cases h
    all_goals assumption
  intro f hf
  obtain ⟨part, -, hpart⟩ := (Pieces.exists_of_mapM_eq_some hread).2 f hf
  rw [field?] at hpart
  split at hpart
  · rename_i name hname
    split at hpart <;> cases hpart
    exact isFieldName_of_fieldName? hname
  · cases hpart

namespace Proxy

/-! ## What a client has passed on -/

/-- Whether the fields of a name in a client's header are passed on. -/
structure IsPassedOn (h : Header) (name : String) : Prop where
  not_isForHop : ¬ h.IsForHop name
  ne_host : name ≠ "host"
  ne_authorization : name ≠ "authorization"

instance (h : Header) (name : String) : Decidable (IsPassedOn h name) :=
  decidable_of_iff (¬ h.IsForHop name ∧ name ≠ "host" ∧ name ≠ "authorization")
    ⟨fun ⟨hhop, hhost, hauth⟩ => ⟨hhop, hhost, hauth⟩,
      fun h => ⟨h.not_isForHop, h.ne_host, h.ne_authorization⟩⟩

/-- The values of a name that are passed on: all that the client has, or none. -/
def passedValues (h : Header) (name : String) : List (List UInt8) :=
  if IsPassedOn h name then h.getAll name else []

/-- The names under which the proxy writes something itself. -/
def ownNames : List String :=
  ["authorization", Header.forwardedFor, Header.forwardedPrefix]

/-- The chain of clients that is sent: the one that is passed on, as it is if nobody knows who
asks, and otherwise in one value with the client's address behind it. -/
def sentChain (h : Header) : Option ClientAddress → List (List UInt8)
  | none => passedValues h Header.forwardedFor
  | some client =>
    [Utf8.ofText (chainText (passedValues h Header.forwardedFor) client.text)]

/-- What stands in a header that is sent for a client, name by name. -/
structure Forwards (r : Incoming) (token : Option Token) (h : Header) : Prop where
  mem_iff : ∀ f ∈ r.header, IsFieldName f.name → f.name ∉ ownNames →
    (f ∈ h ↔ IsPassedOn r.header f.name)
  getAll_eq : ∀ name, IsFieldName name → name ∉ ownNames →
    h.getAll name = passedValues r.header name
  authorization : h.getAll "authorization" = (token.bind authorization?).toList
  forwardedPrefix : h.getAll Header.forwardedPrefix =
    passedValues r.header Header.forwardedPrefix ++ [Utf8.ofText "/"]
  forwardedFor : h.getAll Header.forwardedFor = sentChain r.header r.client

/-- What is taken out leaves the values that are passed on. -/
theorem getAll_kept (h : Header) {name : String} (hname : IsFieldName name) :
    ((h.withoutHopFields.erase "host").erase "authorization").getAll name =
      passedValues h name := by
  by_cases hauth : name = "authorization"
  · rw [hauth, Header.getAll_erase_self, passedValues, if_neg fun hpass => hpass.ne_authorization rfl]
  rw [Header.getAll_erase_of_ne _ hauth]
  by_cases hhost : name = "host"
  · rw [hhost, Header.getAll_erase_self, passedValues, if_neg fun hpass => hpass.ne_host rfl]
  rw [Header.getAll_erase_of_ne _ hhost, Header.getAll_withoutHopFields_eq h hname, passedValues]
  by_cases hhop : h.IsForHop name
  · rw [if_pos hhop, if_neg fun hpass => hpass.not_isForHop hhop]
  · rw [if_neg hhop, if_pos ⟨hhop, hhost, hauth⟩]

theorem getAll_forwardedFor_forwardedHeader (r : Incoming) (token : Option Token) :
    (forwardedHeader r token).getAll Header.forwardedFor = sentChain r.header r.client := by
  have hauth : Header.forwardedFor ≠ "authorization" := by decide
  have hprefix : Header.forwardedFor ≠ Header.forwardedPrefix := by decide
  have hname : IsFieldName Header.forwardedFor := by decide +kernel
  have hkept := getAll_kept r.header hname
  have hadded (client : ClientAddress) :
      (((r.header.withoutHopFields.erase "host").erase "authorization").appendForwardedFor
        client.text).getAll Header.forwardedFor =
          [Utf8.ofText (chainText (passedValues r.header Header.forwardedFor) client.text)] := by
    rw [Header.appendForwardedFor_eq_insert _ client.isVisible, Header.getAll_insert_self, hkept]
  rw [forwardedHeader]
  -- neither the token nor the prefix changes anything under the name
  rcases r.client with - | client <;> rcases token.bind authorization? with - | value <;>
    simp only [Header.getAll_insert_of_ne _ hauth, Header.getAll_append_of_ne _ hprefix, sentChain]
  case none.none => exact hkept
  case none.some => exact hkept
  case some.none => exact hadded client
  case some.some => exact hadded client

theorem forwards_forwardedHeader (r : Incoming) (token : Option Token) :
    Forwards r token (forwardedHeader r token) := by
  have hvalues : ∀ name, IsFieldName name → name ≠ "authorization" → name ≠ Header.forwardedFor →
      (forwardedHeader r token).getAll name = passedValues r.header name ++
        if Header.forwardedPrefix = name then [Utf8.ofText "/"] else [] := by
    intro name hname hauth hfor
    rw [getAll_forwardedHeader_of_ne hauth hfor, ← getAll_kept r.header hname,
      Header.getAll_erase_of_ne _ hauth]
  have hown : ∀ name, IsFieldName name → name ∉ ownNames →
      (forwardedHeader r token).getAll name = passedValues r.header name := by
    intro name hname hown
    obtain ⟨hauth, hfor, hprefix⟩ : name ≠ "authorization" ∧ name ≠ Header.forwardedFor ∧
        name ≠ Header.forwardedPrefix := by
      simpa [ownNames] using hown
    rw [hvalues name hname hauth hfor, if_neg hprefix.symm, List.append_nil]
  constructor
  case mem_iff =>
    intro f hf hname hown'
    rw [Header.mem_iff_value_mem_getAll, hown f.name hname hown', passedValues]
    split
    · rename_i hpass
      exact iff_of_true ((Header.mem_iff_value_mem_getAll r.header).mp hf) hpass
    · rename_i hpass
      exact iff_of_false List.not_mem_nil hpass
  case getAll_eq => exact hown
  case authorization => exact getAll_forwardedHeader r token
  case forwardedPrefix => rw [hvalues _ (by decide +kernel) (by decide) (by decide), if_pos rfl]
  case forwardedFor => exact getAll_forwardedFor_forwardedHeader r token

/-! ## What the backend sees, and what the client gets -/

variable {p : Proxy} {raw : String} {u : Url} {r : Incoming} {token : Option Token}
  {request : Request}

/-- What the client is given to send. -/
theorem forwards_of_outgoing (hraw : Url.ofText raw = .ok u)
    (hbackend : Backend.ofUrl u = .ok p.backend) (h : p.outgoing r token = .ok request) :
    Forwards r token request.header := by
  obtain ⟨url, hurl, -, hheader⟩ := exists_of_outgoing h
  rw [hheader, credentialFields_of_target hraw hbackend hurl, List.nil_append]
  exact forwards_forwardedHeader r token

/-- The backend sees the values that the client was given, without padding, and others behind them
only under the few names that the client uses by itself. -/
theorem getAll_of_mem_seen {s : ProxyState} {n : Network} {seen : SeenRequest}
    (hout : p.outgoing r (liveToken s) = .ok request) (h : seen ∈ (p.serve s r n).1.seen)
    (name : String) :
    (request.header.getAll name).map trimValue <+: seen.header.getAll name ∧
      (name ∉ clientNames →
        seen.header.getAll name = (request.header.getAll name).map trimValue) := by
  rw [header_of_mem_seen s hout h, Request.sentHeader]
  constructor
  · rw [Network.getAll_header_seenRequest, List.append_assoc, List.map_append]
    exact List.prefix_append _ _
  · intro hname
    exact Network.getAll_seenRequest request hname (fun f hf => name_mem_of_mem_sent hf) []

/-- A response of the backend is passed back. -/
theorem response_serve {s : ProxyState} {n n' : Network} {response : Response}
    (hout : p.outgoing r (liveToken s) = .ok request)
    (h : n.send request = (some (.ok response), n')) :
    (p.serve s r n).1.response = some (returned response) := by
  simp only [serve, answer, hout, h]

/-- **Forwarding of fields.** Take a proxy for a backend that is named by a URL, in any state, and a
request with any header. A request to the backend is made of it, and

* what the backend is sent under each name is what `Forwards` says: all values of the client in
  their order, if the name is neither of one hop nor that of the host or of the authorization, and
  otherwise none, apart from what the proxy writes itself;
* the backend sees these values, and others behind them only under the few names that the client
  uses by itself;
* every response of the backend is passed back with its status and its body, and with all fields of
  its header, in their order, that are not of one hop. -/
theorem fields_of_forwarded (hraw : Url.ofText raw = .ok u)
    (hbackend : Backend.ofUrl u = .ok p.backend) (s : ProxyState) (r : Incoming) (n : Network) :
    ∃ request, p.outgoing r (liveToken s) = .ok request ∧
      Forwards r (liveToken s) request.header ∧
      (∀ seen ∈ (p.serve s r n).1.seen, ∀ name,
        (request.header.getAll name).map trimValue <+: seen.header.getAll name ∧
        (name ∉ clientNames →
          seen.header.getAll name = (request.header.getAll name).map trimValue)) ∧
      ∀ response n', n.send request = (some (.ok response), n') →
        ∃ answer, (p.serve s r n).1.response = some answer ∧
          answer.status = response.status ∧ answer.body = response.body ∧
          answer.header = response.header.filter fun f => ¬ response.header.IsForHop f.name := by
  obtain ⟨request, hout, -⟩ := exists_outgoing_eq hraw hbackend r (liveToken s)
  refine ⟨request, hout, forwards_of_outgoing hraw hbackend hout, ?_, ?_⟩
  · intro seen hseen name
    exact getAll_of_mem_seen hout hseen name
  · intro response n' hsend
    refine ⟨returned response, response_serve hout hsend, rfl, rfl, ?_⟩
    exact Header.withoutHopFields_eq_filter _ (Network.isFieldName_of_send hsend)

/-- Names are listed in several fields, in any case and with blanks around them; a field that is not
visible text lists nothing. -/
theorem fields_of_forwarded_listed :
    let p : Proxy := { backend := ⟨"http", "up.example", ⟨"/base", none⟩⟩ }
    let r : Incoming :=
      { target := { path := "/q" }
        header :=
          [ .ofText "connection" "close,\t X-Private ,", .ofText "x-kept" "b",
            .ofText "connection" "x-other", ⟨"connection", Utf8.ofText "x-kept, é"⟩,
            .ofText "x-private" "1", .ofText "x-other" "2", .ofText "te" "trailers",
            .ofText "x-kept" "a" ] }
    let n : Network :=
      { reachable := true
        replies :=
          [ .answer ⟨200⟩ [("Connection", Utf8.ofText "X-HOP"), ("X-Hop", Utf8.ofText "1"),
              ("X-Kept", Utf8.ofText "2")] (Utf8.ofText "body") .announced ] }
    ∃ request answer, p.outgoing r none = .ok request ∧
      request.header.getAll "x-kept" = [Utf8.ofText "b", Utf8.ofText "a"] ∧
      request.header.getAll "x-private" = [] ∧ request.header.getAll "x-other" = [] ∧
      request.header.getAll "te" = [] ∧
      (p.serve { now := ⟨0⟩ } r n).1.response = some answer ∧ answer.status = ⟨200⟩ ∧
      answer.body = ⟨Utf8.ofText "body", true⟩ ∧
      answer.header = [.ofText "x-kept" "2", .ofText "content-length" "4"] := by
  intro p r n
  have hraw : Url.ofText "http://up.example/base" =
      .ok { scheme := "http", host := some (.name "up.example"), path := .rooted ["base"] } := by
    decide +kernel
  have hbackend : Backend.ofUrl
      { scheme := "http", host := some (.name "up.example"), path := .rooted ["base"] } =
        .ok p.backend := by
    decide +kernel
  obtain ⟨request, hout, hforwards, -, hreturned⟩ :=
    fields_of_forwarded (p := p) hraw hbackend { now := ⟨0⟩ } r n
  have hvalues (name : String) (hname : IsFieldName name) (hown : name ∉ ownNames) :=
    hforwards.getAll_eq name hname hown
  let response : Response :=
    { status := ⟨200⟩
      header := [.ofText "connection" "X-HOP", .ofText "x-hop" "1", .ofText "x-kept" "2",
        .ofText "content-length" "4"]
      body := ⟨Utf8.ofText "body", true⟩ }
  have hsend : (p.outgoing r none).toOption.bind (fun request => (n.send request).1) =
      some (.ok response) := by
    decide +kernel
  rw [show p.outgoing r none = .ok request from hout] at hsend
  obtain ⟨answer, hserved, hstatus, hbody, hheader⟩ :=
    hreturned response (n.send request).2 (Prod.ext hsend rfl)
  refine ⟨request, answer, hout, ?_, ?_, ?_, ?_, hserved, hstatus, hbody, ?_⟩
  · rw [hvalues "x-kept" (by decide +kernel) (by decide)]
    decide +kernel
  · rw [hvalues "x-private" (by decide +kernel) (by decide)]
    decide +kernel
  · rw [hvalues "x-other" (by decide +kernel) (by decide)]
    decide +kernel
  · rw [hvalues "te" (by decide +kernel) (by decide)]
    decide +kernel
  · rw [hheader]
    decide +kernel

end Proxy

end TokenKeeper
