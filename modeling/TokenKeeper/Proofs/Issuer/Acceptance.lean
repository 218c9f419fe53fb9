import Mathlib.Data.List.DropRight
import TokenKeeper.Proofs.Http.Silence
import TokenKeeper.Proofs.Issuer.Discovery

/-!
# Which documents are accepted

A discovery asks at one place, the issuer without the slashes at its end and the well-known path
behind it, and what it makes of the response at the end of all redirects is told by `Endorses`: the
response is one of success and its body a document about the issuer with an endpoint that can be
read. Slashes at the end of an issuer, as it is configured or as the document has it, make no
difference, so `AgreeUpToSlashes` takes the place of equality (`bareIssuer_eq_iff`).

There is no limit of time, so a server that keeps the connection and sends nothing leaves a
discovery waiting for ever. Nothing else does (`fst_discover_eq_none_iff`).

The main statement is `discover_accepts_iff`.
-/

namespace TokenKeeper

open Http

namespace Provider

/-! ## Slashes at the end -/

/-- A number of slashes. -/
def slashes (n : Nat) : String :=
  String.ofList (List.replicate n '/')

/-- Whether two texts are the same apart from slashes at their ends. -/
def AgreeUpToSlashes (a b : String) : Prop :=
  ∃ m n, a ++ slashes m = b ++ slashes n

variable {a b issuer : String}

theorem bareIssuer_eq (issuer : String) :
    bareIssuer issuer = String.ofList (issuer.toList.rdropWhile (· == '/')) := rfl

theorem slashes_append (m n : Nat) : slashes m ++ slashes n = slashes (m + n) := by
  rw [slashes, slashes, ← String.ofList_append, List.replicate_append_replicate, slashes]

/-- What is left does not end in a slash. -/
theorem getLast?_bareIssuer_ne (issuer : String) :
    (bareIssuer issuer).toList.getLast? ≠ some '/' := by
  rw [bareIssuer_eq, String.toList_ofList]
  intro hlast
  have hne : issuer.toList.rdropWhile (· == '/') ≠ [] := by
    rintro hnil
    rw [hnil] at hlast
    cases hlast
  rw [List.getLast?_eq_some_getLast hne, Option.some.injEq] at hlast
  have hnot := List.rdropWhile_last_not (· == '/') issuer.toList hne
  rw [hlast] at hnot
  exact hnot rfl

/-- What is dropped are slashes. -/
theorem exists_bareIssuer_append (issuer : String) :
    ∃ n, issuer = bareIssuer issuer ++ slashes n := by
  have hdropped : ∀ c ∈ issuer.toList.rtakeWhile (· == '/'), c = '/' := fun c hc =>
    eq_of_beq (List.mem_rtakeWhile_imp (p := (· == '/')) hc)
  refine ⟨(issuer.toList.rtakeWhile (· == '/')).length, ?_⟩
  rw [slashes, ← List.eq_replicate_of_mem hdropped, bareIssuer_eq, ← String.ofList_append,
    List.rdropWhile_append_rtakeWhile, String.ofList_toList]

theorem bareIssuer_append_slashes (issuer : String) (n : Nat) :
    bareIssuer (issuer ++ slashes n) = bareIssuer issuer := by
  induction n with
  | zero => rw [slashes, List.replicate_zero, String.ofList_nil, String.append_empty]
  | succ n ih =>
    rw [← ih, bareIssuer_eq, bareIssuer_eq, String.toList_append, String.toList_append, slashes,
      slashes, String.toList_ofList, String.toList_ofList, List.replicate_succ',
      ← List.append_assoc, List.rdropWhile_concat_pos _ _ _ rfl]

/-- Texts agree up to slashes exactly if the same is left of them. -/
theorem bareIssuer_eq_iff : bareIssuer a = bareIssuer b ↔ AgreeUpToSlashes a b := by
  constructor
  · intro h
    obtain ⟨m, ha⟩ := exists_bareIssuer_append a
    obtain ⟨n, hb⟩ := exists_bareIssuer_append b
    refine ⟨n, m, ?_⟩
    calc a ++ slashes n = bareIssuer a ++ slashes (m + n) := by
          conv => lhs; rw [ha]
          rw [String.append_assoc, slashes_append]
      _ = bareIssuer b ++ slashes (n + m) := by rw [h, Nat.add_comm]
      _ = b ++ slashes m := by
          conv => rhs; rw [hb]
          rw [String.append_assoc, slashes_append]
  · rintro ⟨m, n, h⟩
    have hbare := congrArg bareIssuer h
    rwa [bareIssuer_append_slashes, bareIssuer_append_slashes] at hbare

/-! ## What is asked -/

/-- What is asked of a server at the place of a text, from one state of the network to another: one
thing first, and more if that leads elsewhere. Nothing is asked if the text is no URL with a host,
or if no connection leads to it. -/
inductive AsksAt (text : String) (n n' : Network) : Prop
  | unreadable (noHost : ∀ url, Url.ofText text = .ok url → url.hostText? = none) (same : n' = n)
  | unreached {url : Url} {r : Request} (reads : Url.ofText text = .ok url)
    (asksFor : r.url = url.withoutCredentials) (unreached : ¬ n.IsReached r) (same : n' = n)
  | asked {url : Url} {first : SeenRequest} {more : List SeenRequest}
    (reads : Url.ofText text = .ok url) (seen : n'.seen = n.seen ++ first :: more)
    (method : first.method = "GET") (target : first.target = Network.targetText url)
    (body : first.body = [])

theorem snd_discover_of_error {fault : ClientFault} (h : request issuer = .error fault)
    (x : Exchange) : (discover issuer x).2 = x := by
  rw [discover, fetch, h]

theorem targetText_withoutCredentials (url : Url) :
    Network.targetText url.withoutCredentials = Network.targetText url := rfl

/-- **A discovery asks at one place.** -/
theorem asksAt_discover (issuer : String) (x : Exchange) :
    AsksAt (documentUrl issuer) x.network (discover issuer x).2.network := by
  rcases request_cases issuer with ⟨hnone, fault, hr⟩ | ⟨r, url, hr, hurl, hmethod, hasks, -⟩
  · exact .unreadable hnone (by rw [snd_discover_of_error hr])
  have hnetwork : (discover issuer x).2.network = (x.network.sendFollowing r).2 := by
    rw [snd_discover hr]
    rfl
  by_cases hreached : x.network.IsReached r
  · have hsent : r.payload.sent r.method r.header = ⟨[], .whole []⟩ := by
      obtain ⟨hquestion, hwhole⟩ := isQuestion_and_isWhole_of_request hr
      rw [hquestion.payload]
      exact Payload.sent_none hwhole.length r.method
    have hfirst := x.network.seen_exchange_of_sent r hreached hsent
    obtain ⟨more, hseen⟩ := x.network.exists_seen_sendFollowing r hreached hfirst
    rw [← hnetwork] at hseen
    refine .asked hurl hseen hmethod ?_ rfl
    rw [Network.seenRequest, hasks, targetText_withoutCredentials]
  · exact .unreached hurl hasks hreached
      (hnetwork.trans (x.network.sendFollowing_of_not_isReached r hreached))

/-! ## What is accepted -/

/-- The response at the end of all redirects, if there is one. -/
def finalResponse? (issuer : String) (n : Network) : Option Response :=
  match request issuer with
  | .ok r => (n.sendFollowing r).1.bind Except.toOption
  | .error _ => none

/-- Whether a response says that a provider is the one of an issuer. -/
structure Endorses (response : Response) (issuer : String) (p : Provider) : Prop where
  success : 200 ≤ response.status.code ∧ response.status.code < 300
  complete : response.body.complete = true
  /-- The body is a document about the issuer, with an endpoint. -/
  document : ∃ value document endpoint, Json.ofBytes? response.body.bytes = some value ∧
    DiscoveryDocument.ofJson? value = some document ∧ document.issuer = p.issuer ∧
    document.tokenEndpoint = some endpoint ∧ endpoint ≠ "" ∧ Url.ofText endpoint = .ok p.tokenUrl
  agrees : AgreeUpToSlashes p.issuer issuer

theorem documentOf_eq_ok_iff {response : Response} {document : DiscoveryDocument} :
    documentOf response = .ok document ↔
      (200 ≤ response.status.code ∧ response.status.code < 300) ∧
      response.body.complete = true ∧
      ∃ value, Json.ofBytes? response.body.bytes = some value ∧
        DiscoveryDocument.ofJson? value = some document := by
  have hsuccess : response.status.isSuccess = true ↔
      200 ≤ response.status.code ∧ response.status.code < 300 := by
    rw [Status.isSuccess, Bool.and_eq_true, decide_eq_true_eq, decide_eq_true_eq]
  have hread : (response.body.whole?.bind Json.ofBytes?).bind DiscoveryDocument.ofJson? =
        some document ↔
      response.body.complete = true ∧ ∃ value, Json.ofBytes? response.body.bytes = some value ∧
        DiscoveryDocument.ofJson? value = some document := by
    rw [Body.whole?, Option.bind_eq_some_iff]
    cases response.body.complete with
    | false => simp
    | true => simp
  rw [← hsuccess, ← hread, documentOf]
  split
  · rename_i hstatus
    rw [and_iff_right hstatus]
    split
    · rename_i document' hdocument
      rw [hdocument, Except.ok.injEq, Option.some.injEq]
    · rename_i hnone
      rw [hnone]
      exact iff_of_false nofun nofun
  · rename_i hstatus
    exact iff_of_false nofun fun h => hstatus h.1

theorem ofDocument_eq_ok_iff {document : DiscoveryDocument} {p : Provider} :
    ofDocument issuer document = .ok p ↔
      AgreeUpToSlashes document.issuer issuer ∧ document.issuer = p.issuer ∧
      ∃ endpoint, document.tokenEndpoint = some endpoint ∧ endpoint ≠ "" ∧
        Url.ofText endpoint = .ok p.tokenUrl := by
  rw [← bareIssuer_eq_iff, ofDocument]
  split
  · rename_i hother
    exact iff_of_false nofun fun h => hother h.1
  · rename_i hsame
    rw [and_iff_right (not_not.mp hsame)]
    rcases document.tokenEndpoint with - | endpoint
    · apply iff_of_false
      · rintro ⟨⟩
      · rintro ⟨-, endpoint, ⟨⟩, -⟩
    · by_cases hempty : endpoint = ""
      · subst hempty
        apply iff_of_false
        · rintro ⟨⟩
        · rintro ⟨-, endpoint, ⟨⟩, hne, -⟩
          exact hne rfl
      · rw [Option.filter_some, if_pos (decide_eq_true hempty)]
        dsimp only
        rcases hurl : Url.ofText endpoint with fault | url
        · apply iff_of_false
          · rintro ⟨⟩
          · rintro ⟨-, endpoint, ⟨⟩, -, hread⟩
            cases hurl.symm.trans hread
        · obtain ⟨pissuer, tokenUrl⟩ := p
          simp [hempty, hurl]

/-- **A response is accepted exactly if it endorses a provider.** -/
theorem documentOf_bind_eq_ok_iff {response : Response} {p : Provider} :
    (documentOf response >>= ofDocument issuer) = .ok p ↔ Endorses response issuer p := by
  have hbind (document : DiscoveryDocument)
      (next : DiscoveryDocument → Except DiscoveryFault Provider) :
      (.ok document >>= next) = next document := rfl
  constructor
  · intro h
    rcases hdocument : documentOf response with fault | document
    · rw [hdocument] at h
      cases h
    · rw [hdocument, hbind] at h
      obtain ⟨hsuccess, hcomplete, value, hvalue, hread⟩ := documentOf_eq_ok_iff.mp hdocument
      obtain ⟨hagrees, hissuer, endpoint, hendpoint, hne, hurl⟩ := ofDocument_eq_ok_iff.mp h
      exact ⟨hsuccess, hcomplete,
        ⟨value, document, endpoint, hvalue, hread, hissuer, hendpoint, hne, hurl⟩,
        hissuer ▸ hagrees⟩
  · intro h
    obtain ⟨hsuccess, hcomplete, hdocument, hagrees⟩ := h
    obtain ⟨value, document, endpoint, hvalue, hread, hissuer, hendpoint, hne, hurl⟩ := hdocument
    rw [documentOf_eq_ok_iff.mpr ⟨hsuccess, hcomplete, value, hvalue, hread⟩, hbind]
    exact ofDocument_eq_ok_iff.mpr
      ⟨hissuer ▸ hagrees, hissuer, endpoint, hendpoint, hne, hurl⟩

theorem fst_discover (issuer : String) (x : Exchange) :
    (discover issuer x).1 = (fetch issuer x).1.map (·.mapError .discovery) := by
  rw [discover]

/-- A discovery comes to a provider exactly if the last response endorses it. -/
theorem fst_discover_eq_ok_iff {x : Exchange} {p : Provider} :
    (discover issuer x).1 = some (.ok p) ↔
      ∃ response, finalResponse? issuer x.network = some response ∧
        Endorses response issuer p := by
  rw [fst_discover, Option.map_eq_some_iff]
  simp only [mapError_eq_ok_iff, exists_eq_right]
  rw [fetch, finalResponse?]
  rcases request issuer with fault | r
  · apply iff_of_false
    · rintro ⟨⟩
    · rintro ⟨response, ⟨⟩, -⟩
  · have hresult : (x.network.sendFollowing r).1 = (x.send r).1 := rfl
    dsimp only
    rw [hresult]
    rcases x.send r with ⟨- | (fault | response), x'⟩
    · apply iff_of_false
      · rintro ⟨⟩
      · rintro ⟨response, ⟨⟩, -⟩
    · apply iff_of_false
      · rintro ⟨⟩
      · rintro ⟨response, ⟨⟩, -⟩
    · simp only [Option.bind_some, Except.toOption, Option.some.injEq, exists_eq_left']
      exact documentOf_bind_eq_ok_iff

theorem exists_of_fst_discover_eq_error {x : Exchange} {e : Error}
    (h : (discover issuer x).1 = some (.error e)) : ∃ fault, e = .discovery fault := by
  rw [fst_discover, Option.map_eq_some_iff] at h
  obtain ⟨fault | p, -, h⟩ := h
  · exact ⟨fault, (Except.error.inj h).symm⟩
  · cases h

/-- Nothing comes of a discovery exactly if the server that is asked last keeps silent. -/
theorem fst_discover_eq_none_iff {x : Exchange} :
    (discover issuer x).1 = none ↔
      x.network.EndsInSilence (discover issuer x).2.network := by
  rw [fst_discover, Option.map_eq_none_iff]
  rcases hr : request issuer with fault | r
  · rw [fetch, snd_discover_of_error hr, hr]
    exact iff_of_false (Option.some_ne_none _) (Network.not_endsInSilence rfl)
  · have hnone : (fetch issuer x).1 = none ↔ (x.send r).1 = none := by
      rw [fetch, hr]
      dsimp only
      rcases x.send r with ⟨- | (fault | response), x'⟩
      · exact iff_of_true rfl rfl
      · exact iff_of_false (Option.some_ne_none _) (Option.some_ne_none _)
      · exact iff_of_false (Option.some_ne_none _) (Option.some_ne_none _)
    rw [hnone, snd_discover hr]
    exact x.network.fst_sendFollowing_eq_none_iff (isQuestion_and_isWhole_of_request hr).2

/-! ## Other spellings -/

variable {other : String}

/-- Issuers that agree up to slashes are asked in the same way. -/
theorem request_congr (h : AgreeUpToSlashes other issuer) : request other = request issuer := by
  rw [request, request, documentUrl, documentUrl, bareIssuer_eq_iff.mpr h]

theorem Endorses.congr {response : Response} {p : Provider} (h : AgreeUpToSlashes other issuer)
    (hendorses : Endorses response other p) : Endorses response issuer p where
  success := hendorses.success
  complete := hendorses.complete
  document := hendorses.document
  agrees := by
    rw [← bareIssuer_eq_iff] at h ⊢
    exact (bareIssuer_eq_iff.mpr hendorses.agrees).trans h

theorem AgreeUpToSlashes.symm (h : AgreeUpToSlashes a b) : AgreeUpToSlashes b a := by
  obtain ⟨m, n, h⟩ := h
  exact ⟨n, m, h.symm⟩

/-- What a discovery leaves behind depends on its request alone. -/
theorem snd_discover_congr (h : request other = request issuer) (x : Exchange) :
    (discover other x).2 = (discover issuer x).2 := by
  rcases hr : request issuer with fault | r
  · rw [snd_discover_of_error hr, snd_discover_of_error (h.trans hr)]
  · rw [snd_discover hr, snd_discover (h.trans hr)]

/-- **Which documents are accepted.** Take an issuer with any number of slashes at its end, and a
server that does anything, over plain connections or encrypted ones. What is asked is the issuer
without the slashes and the well-known path behind it. A provider comes of it exactly if the
response at the end of all redirects endorses it: the status is one of success, and the body is a
document whose issuer agrees with the one that was asked up to slashes, with an endpoint that is not
empty and is the provider's URL. Whatever else comes of it is an error of discovery. Nothing at all
comes of it exactly if the server that is asked last keeps the connection and sends nothing. Another
issuer that agrees with this one up to slashes leads to the same requests, to the same providers, and
to the same wait. -/
theorem discover_accepts_iff (issuer : String) (x : Exchange) :
    (∃ bare n, issuer = bare ++ slashes n ∧ bare.toList.getLast? ≠ some '/' ∧
      AsksAt (bare ++ "/.well-known/openid-configuration") x.network
        (discover issuer x).2.network) ∧
    (∀ p, (discover issuer x).1 = some (.ok p) ↔
      ∃ response, finalResponse? issuer x.network = some response ∧
        Endorses response issuer p) ∧
    (∀ e, (discover issuer x).1 = some (.error e) → ∃ fault, e = .discovery fault) ∧
    ((discover issuer x).1 = none ↔ x.network.EndsInSilence (discover issuer x).2.network) ∧
    ∀ other, AgreeUpToSlashes other issuer →
      (discover other x).2 = (discover issuer x).2 ∧
      (∀ p, (discover other x).1 = some (.ok p) ↔ (discover issuer x).1 = some (.ok p)) ∧
      ((discover other x).1 = none ↔ (discover issuer x).1 = none) := by
  obtain ⟨n, hissuer⟩ := exists_bareIssuer_append issuer
  refine ⟨⟨bareIssuer issuer, n, hissuer, getLast?_bareIssuer_ne issuer,
    asksAt_discover issuer x⟩, fun p => fst_discover_eq_ok_iff,
    fun e => exists_of_fst_discover_eq_error, fst_discover_eq_none_iff, fun other hother => ?_⟩
  have hrequest := request_congr hother
  have hsame := snd_discover_congr hrequest x
  refine ⟨hsame, fun p => ?_, ?_⟩
  · rw [fst_discover_eq_ok_iff, fst_discover_eq_ok_iff, finalResponse?, finalResponse?, hrequest]
    exact exists_congr fun response => and_congr_right fun _ =>
      ⟨Endorses.congr hother, Endorses.congr hother.symm⟩
  · rw [fst_discover_eq_none_iff, fst_discover_eq_none_iff, hsame]

/-- An issuer is found over encrypted connections, with a slash more than its document has, and one
that keeps silent is waited for. -/
example :
    let document := Utf8.ofText
      "\x7b\"issuer\": \"https://i.example\", \"token_endpoint\": \"https://i.example/token\"\x7d"
    let answering : Network :=
      { reachable := true, schemes := ["https"]
        replies := [.answer ⟨200⟩ [] document .announced] }
    let silent : Network := { answering with replies := [.hang] }
    let found := (discover "https://i.example/" { network := answering }).1
    (found.bind Except.toOption).map (·.tokenUrl.text) = some "https://i.example/token" ∧
      (discover "https://i.example/" { network := silent }).1 = none := by
  decide +kernel

end Provider

end TokenKeeper
