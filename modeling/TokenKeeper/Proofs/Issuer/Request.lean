import TokenKeeper.Issuer.Exchange
import TokenKeeper.Proofs.Http.Silence
import TokenKeeper.Proofs.Text.Base64
import TokenKeeper.Proofs.Text.Form

/-!
# What an issuer reads in a request

A request for a token loses nothing of what it is made of (`request_reads_back`): the issuer finds
in it the client's name and password, whatever characters they hold, and the pairs of the grant in
their order. The codings that are put into each other cannot be confused: percent coding leaves no
colon in a name (`colon_not_mem_encode`), and base64 leaves nothing at the end of the value that a
server would take for padding (`trimValue_basicAuthorization`).
-/

namespace TokenKeeper

open Http

/-! ## The value of a name and a password -/

namespace Http

/-- Base64 writes neither spaces nor tabs. -/
theorem isPadding_of_mem_encode {bytes : List UInt8} {b : UInt8} (h : b ∈ Base64.encode bytes) :
    isPadding b = false := by
  have hdigit : ∀ n < 64, isPadding (Base64.digit n) = false := by decide
  rcases Base64.mem_encode h with rfl | ⟨n, hn, rfl⟩
  · decide
  · exact hdigit n hn

/-- A server sees the value as it was written. -/
theorem trimValue_basicAuthorization (user password : List UInt8) :
    trimValue (basicAuthorization user password) = basicAuthorization user password := by
  have hne : Base64.encode (user ++ 0x3A :: password) ≠ [] :=
    Base64.encode_ne_nil (List.append_ne_nil_of_right_ne_nil _ (List.cons_ne_nil _ _))
  refine trimValue_eq_self (fun b hb => ?_) fun b hb => ?_
  · -- the value begins with a letter
    obtain rfl : 0x42 = b := Option.some.inj hb
    decide
  · rw [basicAuthorization, List.getLast?_append_of_ne_nil _ hne] at hb
    exact isPadding_of_mem_encode (List.mem_of_mem_getLast? hb)

end Http

namespace TokenSource

/-- The name and the password that a value holds: behind the word for the scheme stands base64, and
in it two percent-coded texts with the first colon between them. -/
def readCredentials? (value : List UInt8) : Option (String × String) := do
  let scheme := Utf8.ofText "Basic "
  if value.take scheme.length = scheme then
    let bytes ← Base64.decode? (value.drop scheme.length)
    let name := bytes.takeWhile (· != 0x3A)
    let password := (bytes.dropWhile (· != 0x3A)).drop 1
    return (← Utf8.toText? (Percent.decode name), ← Utf8.toText? (Percent.decode password))
  else none

/-- What is percent-coded here has no colon. -/
theorem colon_not_mem_encode (bytes : List UInt8) : 0x3A ∉ Percent.encode isEscaped bytes := by
  intro h
  rcases Percent.mem_encode h with h | ⟨b, h⟩
  · exact absurd h (by decide)
  · exact (Percent.mem_escape h).elim (by decide) (by decide)

/-- Percent coding is read back. -/
theorem toText?_decode_encode (s : String) :
    Utf8.toText? (Percent.decode (Percent.encode isEscaped (Utf8.ofText s))) = some s := by
  rw [Percent.decode_encode (by decide), Utf8.toText?_ofText]

variable (src : TokenSource)

/-- **The credentials are read back.** -/
theorem readCredentials?_authorization :
    readCredentials? src.authorization = some (src.clientId, src.clientSecret) := by
  have hcolon := colon_not_mem_encode (Utf8.ofText src.clientId)
  simp only [readCredentials?, authorization, basicAuthorization, List.take_left, List.drop_left,
    if_true, Base64.decode?_encode, Option.bind_eq_bind, Option.bind_some,
    Pieces.takeWhile_append_cons hcolon, Pieces.drop_dropWhile_append_cons hcolon,
    toText?_decode_encode]
  rfl

theorem authorization_eq_iff (other : TokenSource) :
    other.authorization = src.authorization ↔
      other.clientId = src.clientId ∧ other.clientSecret = src.clientSecret := by
  constructor
  · intro h
    have hread := other.readCredentials?_authorization
    rw [h, readCredentials?_authorization] at hread
    obtain ⟨hid, hsecret⟩ := Prod.mk.inj (Option.some.inj hread)
    exact ⟨hid.symm, hsecret.symm⟩
  · rintro ⟨hid, hsecret⟩
    rw [authorization, authorization, hid, hsecret]

/-! ## The request -/

/-- Whether a header and a body hold all that a request is made of. -/
structure IsReadFrom (header : Header) (body : List UInt8) : Prop where
  /-- The client's name and password are in the last value under the name. -/
  credentials : (header.getAll "authorization").getLast?.bind readCredentials? =
    some (src.clientId, src.clientSecret)
  /-- Before it there is only what the URL itself says, if it names a user. -/
  others : (header.getAll "authorization").dropLast =
    (credentialFields src.tokenUrl).map Field.value
  form : Form.decode body = src.grant.form

variable {src} in
/-- The values under the name tell it, together with the body. -/
theorem IsReadFrom.of_getAll {header : Header} (h : header.getAll "authorization" =
    (credentialFields src.tokenUrl).map Field.value ++ [src.authorization]) :
    src.IsReadFrom header src.requestBody where
  credentials := by
    rw [h, List.getLast?_concat, Option.bind_some, readCredentials?_authorization]
  others := by
    rw [h, List.dropLast_concat]
  form := Form.decode_encode src.grant.form

/-- What a URL brings along stands under the same name. -/
theorem getAll_credentialFields (u : Url) :
    (credentialFields u).getAll "authorization" = (credentialFields u).map Field.value := by
  unfold credentialFields
  split <;> rfl

theorem getAll_credentialFields_of_ne {name : String} (h : "authorization" ≠ name) (u : Url) :
    (credentialFields u).getAll name = [] := by
  unfold credentialFields
  split
  · rfl
  · rw [Header.getAll_singleton, if_neg h]

theorem trimValue_of_mem_credentialFields {u : Url} {f : Field} (h : f ∈ credentialFields u) :
    trimValue f.value = f.value := by
  unfold credentialFields at h
  split at h
  · cases h
  · obtain rfl := List.mem_singleton.mp h
    exact trimValue_basicAuthorization _ _

/-- A request can be made if the URL names a host, and then it is made of these parts. -/
theorem request_cases :
    (src.tokenUrl.hostText? = none ∧ ∃ fault, src.request = .error fault) ∨
      src.tokenUrl.hostText?.isSome ∧ ∃ r, src.request = .ok r ∧ r.method = "POST" ∧
        r.url = src.tokenUrl.withoutCredentials ∧ r.payload = .sized src.requestBody ∧
        r.header = credentialFields src.tokenUrl ++
          [ ⟨"authorization", src.authorization⟩, .ofText "accept" "application/json",
            .ofText "content-type" "application/x-www-form-urlencoded" ] := by
  unfold request Request.toUrl?
  rcases src.tokenUrl.hostText? with - | host
  · exact .inl ⟨rfl, _, rfl⟩
  · exact .inr ⟨rfl, _, rfl, rfl, rfl, rfl, rfl⟩

/-- The request for a token is sent as a whole. -/
theorem isWhole_of_request {r : Request} (h : src.request = .ok r) : r.IsWhole := by
  rcases src.request_cases with ⟨-, fault, hr⟩ | ⟨-, r', hr, -, -, hpayload, hparts⟩ <;>
    rw [hr] at h
  · cases h
  · obtain rfl := Except.ok.inj h
    refine ⟨.inr ⟨_, hpayload⟩, ?_⟩
    rw [hparts, Header.getAll_concat, getAll_credentialFields_of_ne (by decide)]
    rfl

/-- What is asked for goes over the network. -/
theorem network_fetch (x : Exchange) (now : Instant) :
    (src.fetch x now).2.network =
      match src.request with
      | .error _ => x.network
      | .ok r => (x.network.sendFollowing r).2 := by
  unfold fetch
  rcases src.request with fault | r
  · rfl
  · rcases hsend : x.send r with ⟨- | (fault | response), x'⟩ <;>
      simp only [hsend] <;> exact (congrArg (·.2.network) hsend).symm

variable {src} in
/-- A server reads in a request what the client has put into it. -/
theorem isReadFrom_seenRequest {r : Request} {fields : Header}
    (hheader : r.header.getAll "authorization" =
      (credentialFields src.tokenUrl).map Field.value ++ [src.authorization])
    (hfields : ∀ f ∈ fields, f.name ∈ payloadNames) :
    src.IsReadFrom (Network.seenRequest r fields src.requestBody).header src.requestBody := by
  apply IsReadFrom.of_getAll
  have hcredentials : ((credentialFields src.tokenUrl).map Field.value).map trimValue =
      (credentialFields src.tokenUrl).map Field.value := by
    rw [List.map_map]
    exact List.map_congr_left fun f hf => trimValue_of_mem_credentialFields hf
  rw [Network.getAll_seenRequest r (by decide) hfields, hheader, List.map_append, hcredentials,
    List.map_singleton, authorization, trimValue_basicAuthorization]

/-- **A request for a token loses nothing.** Whatever characters there are in the name and the
password of a client and in its grant, the request that it makes holds them all: the last value of
`authorization` gives back the name and the password, and the body gives back the pairs of the grant
in their order. No request is made only if the URL names no host. The server, if it can be reached,
sees that request first, and reads the same in it. Two clients send the same value only if they have
the same name and the same password. -/
theorem request_reads_back :
    (match src.request with
      | .ok r => ∃ body, r.payload = .sized body ∧ src.IsReadFrom r.header body
      | .error _ => src.tokenUrl.hostText? = none) ∧
    (∀ (x : Exchange) (now : Instant),
      match src.request with
      | .ok r =>
        (¬ x.network.IsReached r ∧ (src.fetch x now).2.network = x.network) ∨
        (x.network.IsReached r ∧ ∃ sent more, src.IsReadFrom sent.header sent.body ∧
          (src.fetch x now).2.network.seen = x.network.seen ++ sent :: more)
      | .error _ => (src.fetch x now).2.network = x.network) ∧
    ∀ other : TokenSource, other.authorization = src.authorization ↔
      other.clientId = src.clientId ∧ other.clientSecret = src.clientSecret := by
  rcases src.request_cases with ⟨hhost, fault, hr⟩ | ⟨-, r, hr, -, -, hpayload, hparts⟩
  · simp only [network_fetch, hr]
    exact ⟨hhost, fun _ _ => trivial, src.authorization_eq_iff⟩
  have hheader : r.header.getAll "authorization" =
      (credentialFields src.tokenUrl).map Field.value ++ [src.authorization] := by
    rw [hparts, Header.getAll_concat, getAll_credentialFields]
    rfl
  have hsent : r.payload.sent r.method r.header =
      ⟨[.ofText "content-length" (Decimal.ofNat src.requestBody.length)],
        .whole src.requestBody⟩ := by
    rw [hpayload]
    exact Payload.sent_sized (src.isWhole_of_request hr).length r.method _
  simp only [network_fetch, hr]
  refine ⟨⟨src.requestBody, hpayload, IsReadFrom.of_getAll hheader⟩, fun x now => ?_,
    src.authorization_eq_iff⟩
  by_cases hreached : x.network.IsReached r
  · have hseen := x.network.seen_exchange_of_sent r hreached hsent
    obtain ⟨more, hmore⟩ := x.network.exists_seen_sendFollowing r hreached hseen
    have hfields : ∀ f ∈ (r.payload.sent r.method r.header).fields, f.name ∈ payloadNames :=
      fun f => name_mem_of_mem_sent
    rw [hsent] at hfields
    exact .inr ⟨hreached, _, more, isReadFrom_seenRequest hheader hfields, hmore⟩
  · exact .inl ⟨hreached, x.network.sendFollowing_of_not_isReached r hreached⟩

end TokenSource

end TokenKeeper
