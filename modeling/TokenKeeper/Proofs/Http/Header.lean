import TokenKeeper.Http.Client
import TokenKeeper.Proofs.Text.Pieces
import TokenKeeper.Proofs.Text.Utf8
import TokenKeeper.Proxy.HopFields

/-!
# The values of a name

What each change to a header does to the values of one name: a field that is erased leaves none, a
field that is inserted leaves its value alone, and fields of other names do not matter. A server
sees the values that the client was given, without their padding, and those of the few fields that
the client adds (`getAll_seenRequest`), such as the host (`getAll_host_seenRequest`).
-/

namespace TokenKeeper.Http

namespace Header

variable (h : Header) {name other : String}

theorem getAll_concat (name : String) (more : Header) :
    Header.getAll (h ++ more) name = h.getAll name ++ more.getAll name := by
  simp only [getAll, List.filter_append, List.map_append]

/-- A single field has its value under its own name. -/
theorem getAll_singleton (f : Field) (name : String) :
    Header.getAll [f] name = if f.name = name then [f.value] else [] := by
  by_cases hname : f.name = name
  · simp [getAll, hname]
  · simp [getAll, hname]

/-- A field is known from its name and its value. -/
theorem mem_iff_value_mem_getAll {f : Field} : f ∈ h ↔ f.value ∈ h.getAll f.name := by
  rw [getAll, List.mem_map]
  constructor
  · intro hf
    exact ⟨f, List.mem_filter.mpr ⟨hf, beq_self_eq_true f.name⟩, rfl⟩
  · intro hvalue
    obtain ⟨⟨name, value⟩, hmem, rfl⟩ := hvalue
    obtain ⟨hmem, hname⟩ := List.mem_filter.mp hmem
    obtain rfl := beq_iff_eq.mp hname
    exact hmem

theorem getAll_eq_nil_iff : h.getAll name = [] ↔ ∀ f ∈ h, f.name ≠ name := by
  simp [getAll]

/-- A header whose names are among some has no value of another name. -/
theorem getAll_eq_nil_of_not_mem {names : List String} (hnames : ∀ f ∈ h, f.name ∈ names)
    (hname : name ∉ names) : h.getAll name = [] := by
  refine (getAll_eq_nil_iff h).mpr fun f hf hsame => hname ?_
  rw [← hsame]
  exact hnames f hf

theorem getAll_erase_self (name : String) : (h.erase name).getAll name = [] := by
  refine (getAll_eq_nil_iff _).mpr fun f hf => ?_
  simpa using (List.mem_filter.mp hf).2

theorem getAll_erase_of_ne (hne : name ≠ other) : (h.erase other).getAll name = h.getAll name := by
  have hkept : ∀ f : Field, (f.name == name && f.name != other) = (f.name == name) := by
    intro f
    by_cases hf : f.name = name
    · simp [hf, hne]
    · simp [hf]
  simp only [getAll, erase, List.filter_filter, hkept]

/-- What is erased with other names goes, and the rest stays. -/
theorem getAll_eraseAll (names : List String) (name : String) :
    (h.eraseAll names).getAll name = if name ∈ names then [] else h.getAll name := by
  split
  · rename_i hname
    refine (getAll_eq_nil_iff _).mpr fun f hf hsame => ?_
    have hkept := (List.mem_filter.mp hf).2
    rw [hsame, List.contains_iff_mem.mpr hname] at hkept
    cases hkept
  · rename_i hname
    have hkept : ∀ f : Field, (f.name == name && !names.contains f.name) = (f.name == name) := by
      intro f
      by_cases hf : f.name = name
      · simp [hf, hname]
      · simp [hf]
    simp only [getAll, eraseAll, List.filter_filter, hkept]

/-- A name that is not one of one hop loses its values if it is listed under `connection`. -/
theorem getAll_withoutHopFields (hname : name ∉ hopNames) :
    h.withoutHopFields.getAll name =
      if name ∈ h.connectionNames then [] else h.getAll name := by
  rw [withoutHopFields, getAll_eraseAll, if_neg hname, getAll_eraseAll]

theorem getAll_append (name other : String) (value : List UInt8) :
    (h.append other value).getAll name =
      h.getAll name ++ if other = name then [value] else [] := by
  rw [append, getAll_concat, getAll_singleton]

theorem getAll_append_of_ne (hne : name ≠ other) (value : List UInt8) :
    (h.append other value).getAll name = h.getAll name := by
  rw [getAll_append, if_neg hne.symm, List.append_nil]

theorem getAll_insert_self (name : String) (value : List UInt8) :
    (h.insert name value).getAll name = [value] := by
  rw [insert, getAll_append, getAll_erase_self, if_pos rfl, List.nil_append]

theorem getAll_insert_of_ne (hne : name ≠ other) (value : List UInt8) :
    (h.insert other value).getAll name = h.getAll name := by
  rw [insert, getAll_append_of_ne _ hne, getAll_erase_of_ne _ hne]

theorem erase_append_self (name : String) (value : List UInt8) :
    (h.append name value).erase name = h.erase name := by
  simp [append, erase]

theorem erase_erase (name : String) : (h.erase name).erase name = h.erase name := by
  simp [erase]

/-- A field that is inserted leaves the fields of other names as they are, in their order. -/
theorem erase_insert_self (name : String) (value : List UInt8) :
    (h.insert name value).erase name = h.erase name := by
  rw [insert, erase_append_self, erase_erase]

/-- Of two fields that are inserted under a name the second one stays. -/
theorem insert_insert (name : String) (value value' : List UInt8) :
    (h.insert name value).insert name value' = h.insert name value' := by
  rw [insert, erase_insert_self, ← insert]

theorem getAll_appendForwardedFor_of_ne (hne : name ≠ forwardedFor) (client : String) :
    (h.appendForwardedFor client).getAll name = h.getAll name := by
  unfold appendForwardedFor
  simp only
  split
  · exact getAll_insert_of_ne h hne _
  · rfl

end Header

/-- A header without the field announces no length. -/
theorem announcedLength?_eq_none {h : Header} (hnone : h.getAll "content-length" = []) :
    h.announcedLength? = none := by
  rw [Header.announcedLength?, Header.listed, Header.visibleTexts, hnone]
  rfl

/-! ## Padding -/

/-- A value that neither begins nor ends with a space or a tab has no padding around it. -/
theorem trimValue_eq_self {value : List UInt8}
    (hfirst : ∀ b ∈ value.head?, isPadding b = false)
    (hlast : ∀ b ∈ value.getLast?, isPadding b = false) : trimValue value = value :=
  Pieces.trimmed_eq_self hfirst hlast

/-- A value without a space or a tab has no padding around it. -/
theorem trimValue_of_not_isPadding {value : List UInt8} (h : ∀ b ∈ value, isPadding b = false) :
    trimValue value = value :=
  trimValue_eq_self (fun b hb => h b (List.mem_of_mem_head? hb))
    fun b hb => h b (List.mem_of_mem_getLast? hb)

/-- A text without a space or a control has no padding around it. -/
theorem trimValue_ofText {t : String} (h : ∀ c ∈ t.toList, 0x20 < c.toNat) :
    trimValue (Utf8.ofText t) = Utf8.ofText t := by
  refine trimValue_of_not_isPadding fun b hb => ?_
  obtain ⟨c, hc, hb⟩ := List.mem_flatMap.mp hb
  refine Bool.eq_false_iff.mpr fun hpadding => ?_
  have hlow : b = 0x20 ∨ b = 0x09 := by simpa [isPadding] using hpadding
  have hlt := h c hc
  -- padding is ASCII, so it would stand for a character of its own
  rcases hlow with rfl | rfl <;>
    rw [← Utf8.toNat_of_mem_encodeChar hb (by decide)] at hlt <;> exact absurd hlt (by decide)

/-! ## What a server sees -/

/-- The names of the fields that are added for a payload. -/
def payloadNames : List String :=
  ["content-length", "transfer-encoding"]

/-- The names of the fields that a client may add to a request. -/
def clientNames : List String :=
  ["host", "accept"] ++ payloadNames

/-- What is added for a payload says how long it is. -/
theorem name_mem_of_mem_sent {p : Payload} {method : String} {h : Header} {f : Field}
    (hf : f ∈ (p.sent method h).fields) : f.name ∈ payloadNames := by
  have hlength : "content-length" ∈ payloadNames := by decide
  have hcoding : "transfer-encoding" ∈ payloadNames := by decide
  unfold Payload.sent at hf
  split at hf
  · cases hf
  · split at hf
    · cases hf
    · obtain rfl := List.mem_singleton.mp hf
      exact hlength
  · split at hf
    · cases hf
    split at hf
    · cases hf
    · obtain rfl := List.mem_singleton.mp hf
      exact hcoding
  · split at hf <;> cases hf

/-- Nothing is sent for no payload. -/
theorem Payload.sent_none {h : Header} (hnone : h.getAll "content-length" = []) (method : String) :
    Payload.none.sent method h = ⟨[], .whole []⟩ := by
  rw [sent, announcedLength?_eq_none hnone, Option.getD_none, if_pos rfl]

/-- Bytes that are all there are sent with their length. -/
theorem Payload.sent_sized {h : Header} (hnone : h.getAll "content-length" = []) (method : String)
    (bytes : List UInt8) :
    (Payload.sized bytes).sent method h =
      ⟨[.ofText "content-length" (Decimal.ofNat bytes.length)], .whole bytes⟩ := by
  rw [sent, announcedLength?_eq_none hnone]

/-- The header that a client puts on the connection for a request, wherever that leads. -/
def Request.sentHeader (r : Request) : Header :=
  (Network.seenRequest r (r.payload.sent r.method r.header).fields []).header

namespace Network

variable (n : Network) (r : Request)

theorem name_mem_of_mem_clientFields {f : Field} (hf : f ∈ clientFields r) :
    f.name ∈ clientNames := by
  have hhost : "host" ∈ clientNames := by decide
  have haccept : "accept" ∈ clientNames := by decide
  rcases List.mem_append.mp hf with hf | hf <;> split at hf
  · cases hf
  · obtain rfl := List.mem_singleton.mp hf
    exact hhost
  · cases hf
  · obtain rfl := List.mem_singleton.mp hf
    exact haccept

/-- What a server sees under a name is what is sent there, without padding. -/
theorem getAll_header_seenRequest (name : String) (fields : Header) (body : List UInt8) :
    (seenRequest r fields body).header.getAll name =
      (r.header.getAll name ++ (clientFields r).getAll name ++ fields.getAll name).map
        trimValue := by
  rw [← Header.getAll_concat, ← Header.getAll_concat]
  simp only [seenRequest, Header.getAll, List.filter_map, List.map_map, Function.comp_def]

/-- Under the names that a client does not use by itself a server sees what the client was given,
without padding. -/
theorem getAll_seenRequest {name : String} (hname : name ∉ clientNames) {fields : Header}
    (hfields : ∀ f ∈ fields, f.name ∈ payloadNames) (body : List UInt8) :
    (seenRequest r fields body).header.getAll name = (r.header.getAll name).map trimValue := by
  have hclient : (clientFields r).getAll name = [] :=
    Header.getAll_eq_nil_of_not_mem _ (fun f hf => name_mem_of_mem_clientFields r hf) hname
  have hpayload : fields.getAll name = [] :=
    Header.getAll_eq_nil_of_not_mem _ hfields fun hmem => hname (List.mem_append_right _ hmem)
  rw [getAll_header_seenRequest, hclient, hpayload, List.append_nil, List.append_nil]

/-- A client that is given no host names that of the URL. -/
theorem getAll_host_seenRequest (hnone : r.header.getAll "host" = []) {fields : Header}
    (hfields : ∀ f ∈ fields, f.name ∈ payloadNames) (body : List UInt8) :
    (seenRequest r fields body).header.getAll "host" =
      [trimValue (Utf8.ofText (Url.withPort (r.url.hostText?.getD "") r.url.port))] := by
  have hhas : r.header.has "host" = false := by
    simpa [Header.has] using (Header.getAll_eq_nil_iff _).mp hnone
  have hclient : (clientFields r).getAll "host" =
      [Utf8.ofText (Url.withPort (r.url.hostText?.getD "") r.url.port)] := by
    have haccept : ¬ "accept" = "host" := by decide
    rw [clientFields, hhas, if_neg Bool.false_ne_true, Header.getAll_concat,
      Header.getAll_singleton, Field.ofText, if_pos rfl]
    split
    · rfl
    · rw [Header.getAll_singleton, Field.ofText, if_neg haccept, List.append_nil]
  have hpayload : fields.getAll "host" = [] :=
    Header.getAll_eq_nil_of_not_mem _ hfields (by decide)
  rw [getAll_header_seenRequest, hnone, hclient, hpayload]
  rfl

@[simp] theorem seen_answer (seen : SeenRequest) : (n.answer seen).2.seen = n.seen ++ [seen] := by
  unfold answer
  simp only
  split
  · rfl
  · split <;> rfl

/-- A URL under whose scheme there is no server leads nowhere. -/
theorem exchange_of_not_serves (h : ¬ n.serves r.url.scheme = true) : n.exchange r = (.broken, n) :=
  if_neg h

/-- The server gets a request whose payload can be sent as a whole. -/
theorem exchange_of_sent {fields : Header} {body : List UInt8}
    (hserves : n.serves r.url.scheme = true)
    (hsent : r.payload.sent r.method r.header = ⟨fields, .whole body⟩) :
    n.exchange r = n.answer (seenRequest r fields body) := by
  rw [exchange, if_pos hserves, hsent]

/-- A request that is sent reaches the server or does not, and reaches it once at most. -/
theorem seen_exchange :
    (n.exchange r).2.seen = n.seen ∨
      ∃ body, (n.exchange r).2.seen =
        n.seen ++ [seenRequest r (r.payload.sent r.method r.header).fields body] := by
  unfold exchange
  simp only
  split
  · split
    · exact .inl rfl
    · exact .inl rfl
    · rename_i body _
      exact .inr ⟨body, seen_answer n _⟩
  · exact .inl rfl

/-- What a server sees of a request was sent by a client that sends to its URL. -/
theorem seen_send :
    (n.send r).2.seen = n.seen ∨
      isSendable r.url = true ∧
        ∃ body, (n.send r).2.seen =
          n.seen ++ [seenRequest r (r.payload.sent r.method r.header).fields body] := by
  unfold send
  split
  · rename_i hsendable
    have hseen := n.seen_exchange r
    -- what comes of the exchange does not matter for what was seen
    have hsame : ∀ (o : Outcome) (n' : Network), n.exchange r = (o, n') →
        n'.seen = (n.exchange r).2.seen := fun o n' h => congrArg (·.2.seen) h.symm
    split <;> rename_i heq <;> rw [hsame _ _ heq] <;>
      exact hseen.imp_right fun hnew => ⟨hsendable, hnew⟩
  · exact .inl rfl

/-- Whether a connection leads from the client to the server. -/
def IsReached : Prop :=
  isSendable r.url = true ∧ n.serves r.url.scheme = true

/-- A request that can be sent as a whole reaches the server as it is, if that can be reached. -/
theorem seen_exchange_of_sent {fields : Header} {body : List UInt8} (hreached : n.IsReached r)
    (hsent : r.payload.sent r.method r.header = ⟨fields, .whole body⟩) :
    (n.exchange r).2.seen = n.seen ++ [seenRequest r fields body] := by
  rw [exchange_of_sent n r hreached.2 hsent, seen_answer]

theorem sendFollowing_of_not_isReached (h : ¬ n.IsReached r) : (n.sendFollowing r).2 = n := by
  unfold sendFollowing
  split
  · rename_i hsendable
    unfold follow
    rw [exchange_of_not_serves n r fun hserves => h ⟨hsendable, hserves⟩]
  · rfl

theorem seen_prefix_exchange : n.seen <+: (n.exchange r).2.seen := by
  rcases n.seen_exchange r with h | ⟨body, h⟩
  · exact h ▸ List.prefix_rfl
  · exact h ▸ List.prefix_append _ _

/-- Where a request is redirected, more is seen after it. -/
theorem seen_exchange_prefix_follow (first : Url) (sent : Request) (left : Nat) :
    (n.exchange sent).2.seen <+: (n.follow first r sent left).2.seen := by
  fun_induction n.follow first r sent left with
  | case1 left n r sent response n' heq hend => exact heq ▸ List.prefix_rfl
  | case2 n r sent response n' heq url hurl => exact heq ▸ List.prefix_rfl
  | case3 n r sent response n' heq url hurl left hsendable next ih =>
    rw [heq]
    exact (n'.seen_prefix_exchange _).trans ih
  | case4 n r sent response n' heq url hurl left hsendable => exact heq ▸ List.prefix_rfl
  | case5 left n r sent n' heq => exact heq ▸ List.prefix_rfl
  | case6 left n r sent n' heq => exact heq ▸ List.prefix_rfl

/-- A request that reaches the server is seen before everything that redirects lead to. -/
theorem exists_seen_sendFollowing (hreached : n.IsReached r) {q : SeenRequest}
    (hseen : (n.exchange r).2.seen = n.seen ++ [q]) :
    ∃ more, (n.sendFollowing r).2.seen = n.seen ++ q :: more := by
  obtain ⟨more, hmore⟩ := n.seen_exchange_prefix_follow r r.url r maxRedirects
  refine ⟨more, ?_⟩
  rw [sendFollowing, if_pos hreached.1, ← hmore, hseen, List.append_assoc, List.singleton_append]

end Network

end TokenKeeper.Http
