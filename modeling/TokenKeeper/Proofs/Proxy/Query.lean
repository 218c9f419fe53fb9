import TokenKeeper.Proofs.Proxy.OwnFields
import TokenKeeper.Proofs.Text.Percent

/-!
# The query of forwarded requests

The query of a request is put behind the joined path as it is. But what is sent is the URL that is
read from that text, and of the characters that the query of a request may hold, a URL does not let
all stand for themselves: the apostrophe and those outside ASCII are sent percent-coded
(`encodeText_query`). Everything else arrives as it was sent (`query_of_forwarded`), and what the
query stands for stays the same, since no escape reaches across one of these characters.
-/

namespace TokenKeeper

open Http

/-! ## Targets in one text -/

namespace Url

variable {raw : String} {u : Url} {host : Host}

/-- What a client asks for is written like a URL, without user information and fragment. -/
theorem targetText_eq (hhost : u.host = some host) :
    Network.targetText u =
      u.scheme ++ "://" ++ withPort host.text u.port ++ u.pathText ++ queryText u.query := by
  have hfront : u.withoutCredentials.withoutFragment.host = some host := hhost
  have htail : u.withoutCredentials.withoutFragment.tailText = queryText u.query :=
    String.append_empty
  rw [Network.targetText, text, hfront, htail]
  apply String.toList_inj.mp
  simp [withoutCredentials, withoutFragment, credentialsText, pathText]

/-- The query of what a client asks for begins at the first question mark. -/
theorem exists_targetText_eq (h : Url.ofText raw = .ok u) (hhost : u.host = some host)
    (hne : host ≠ .name "") :
    ∃ front, '?' ∉ front.toList ∧ Network.targetText u = front ++ queryText u.query := by
  obtain ⟨segments, hpath, hsegments⟩ := exists_rooted_of_ofText h hhost hne
  have horigin := isOrigin_of_ofText h hhost hne
  refine ⟨_, ?_, targetText_eq hhost⟩
  simp only [String.toList_append, List.mem_append, not_or]
  refine ⟨⟨⟨fun hmem => ?_, by decide⟩, fun hmem => ?_⟩, fun hmem => ?_⟩
  · exact absurd (horigin.isScheme.chars _ hmem).1 (by decide)
  · exact (horigin.isAuthorityChar _ hmem).ne_question rfl
  · rw [pathText, hpath] at hmem
    exact (isPathText_text_rooted hsegments _ hmem).2.1 rfl

end Url

/-! ## Queries -/

namespace Proxy

variable {raw line : String} {u : Url} {p : Proxy} {r : Incoming} {token : Option Token}
  {request : Request}

/-- A query as it is sent on: the apostrophe and what is outside ASCII are percent-coded. -/
def sentQuery (query : String) : String :=
  Percent.encodeText (· == 0x27) query

/-- Of what the query of a request may hold, a URL of a web server escapes the apostrophe alone. -/
theorem escapedInQuery_of_isQueryByte :
    ∀ n < 0x80, Target.isQueryByte n.toUInt8 = true →
      Url.escapedInQuery true n.toUInt8 = (n.toUInt8 == 0x27) := by
  decide +kernel

/-- **How a URL writes the query of a request.** -/
theorem encodeText_query {t : Target} (hline : Target.ofText? line = some t) {q : String}
    (hq : t.query = some q) : Percent.encodeText (Url.escapedInQuery true) q = sentQuery q := by
  obtain ⟨bytes, hread, hall⟩ := Target.exists_query_bytes hline hq
  refine Percent.encodeText_congr fun c hc hascii => ?_
  exact escapedInQuery_of_isQueryByte c.toNat hascii
    (Target.isByte_of_mem_toText? hread hall hc hascii)

/-- A query is sent as it is exactly if nothing in it has to be escaped. -/
theorem sentQuery_eq_self_iff {q : String} :
    sentQuery q = q ↔ ∀ c ∈ q.toList, c.toNat < 0x80 ∧ c.toNat ≠ 0x27 := by
  have hkeeps : Percent.KeepsEscapes (· == 0x27) := List.all_iff_forall_prop.mp (by decide)
  rw [sentQuery, Percent.encodeText_eq_self_iff hkeeps]
  refine forall₂_congr fun c _ => and_congr_right fun hc => ?_
  rw [beq_eq_false_iff_ne, ne_eq, ← UInt8.toNat_inj, Utf8.toNat_toUInt8_ascii hc]
  rfl

/-- What is sent stands for the same bytes. -/
theorem decode_sentQuery (q : String) :
    Percent.decode (Utf8.ofText (sentQuery q)) = Percent.decode (Utf8.ofText q) := by
  rw [sentQuery, Percent.ofText_encodeText]
  refine Percent.decode_encode_of_not_digit (fun b hb => ?_) _
  obtain rfl := beq_iff_eq.mp hb
  decide

/-- **The query of a request that is sent on** is that of the request, written as a URL does. -/
theorem query_of_outgoing (hraw : Url.ofText raw = .ok u) (hscheme : Url.IsWeb u.scheme)
    (hbackend : Backend.ofUrl u = .ok p.backend) (hline : Target.ofText? line = some r.target)
    (h : p.outgoing r token = .ok request) :
    request.url.query = r.target.query.map sentQuery := by
  rw [(read_of_outgoing hraw hscheme hbackend hline h).2]
  exact Option.map_congr fun q hq => encodeText_query hline hq

/-- Nothing in front of the query in what the backend is asked for could be taken for one. -/
theorem exists_targetText_of_outgoing (hraw : Url.ofText raw = .ok u)
    (hbackend : Backend.ofUrl u = .ok p.backend) (h : p.outgoing r token = .ok request) :
    ∃ front, '?' ∉ front.toList ∧
      Network.targetText request.url = front ++ Url.queryText request.url.query := by
  obtain ⟨host, hhost, hne, -⟩ := Backend.ofUrl_eq_ok_iff.mp hbackend
  obtain ⟨url, hread, -, hhost', -⟩ := Backend.exists_ofText_target_eq hraw hbackend r.target
  obtain ⟨url', hurl, hsent, -⟩ := exists_of_outgoing h
  obtain rfl := Except.ok.inj (hread.symm.trans hurl)
  rw [hsent]
  -- user information has no part in what is asked for
  obtain ⟨front, hfront, htext⟩ := Url.exists_targetText_eq hread (hhost'.trans hhost) hne
  exact ⟨front, hfront, htext⟩

/-- **How a query reaches the backend.** Take a backend that is named by a URL of a web server, and
any request whose target can be read. A request is made for the client of it.

* It has a query exactly if the request has one: that of the request, in which the apostrophe and
  the characters outside ASCII are percent-coded.
* So it is the same query exactly if there are none of these in it.
* Whoever undoes percent coding finds the same bytes in both.

What the backend sees, if anything, has this query behind its first question mark. -/
theorem query_of_forwarded (hraw : Url.ofText raw = .ok u) (hscheme : Url.IsWeb u.scheme)
    (hbackend : Backend.ofUrl u = .ok p.backend) (hline : Target.ofText? line = some r.target)
    (s : ProxyState) (n : Network) :
    ∃ request, p.outgoing r (liveToken s) = .ok request ∧
      request.url.query.isSome = r.target.query.isSome ∧
      request.url.query = r.target.query.map sentQuery ∧
      (request.url.query = r.target.query ↔
        ∀ q, r.target.query = some q → ∀ c ∈ q.toList, c.toNat < 0x80 ∧ c.toNat ≠ 0x27) ∧
      (∀ q, r.target.query = some q →
        Percent.decode (Utf8.ofText (sentQuery q)) = Percent.decode (Utf8.ofText q)) ∧
      ∀ seen ∈ (p.serve s r n).1.seen,
        ∃ front, '?' ∉ front.toList ∧
          seen.target = front ++ Url.queryText request.url.query := by
  obtain ⟨request, hout, -⟩ := exists_outgoing_eq hraw hbackend r (liveToken s)
  have hquery := query_of_outgoing hraw hscheme hbackend hline hout
  refine ⟨request, hout, ?_, hquery, ?_, fun q _ => decode_sentQuery q, fun seen hseen => ?_⟩
  · rw [hquery, Option.isSome_map]
  · rw [hquery]
    rcases r.target.query with - | q
    · exact iff_of_true rfl fun q hq => nomatch hq
    · rw [Option.map_some, Option.some_inj, sentQuery_eq_self_iff]
      refine ⟨fun h q' hq' => ?_, fun h => h q rfl⟩
      rwa [← Option.some.inj hq']
  · obtain ⟨request', body, hout', -, rfl⟩ := exists_of_mem_seen s hseen
    obtain rfl := Except.ok.inj (hout.symm.trans hout')
    exact exists_targetText_of_outgoing hraw hbackend hout

/-- A query with apostrophes is not sent as it is. -/
theorem query_of_forwarded_apostrophe :
    let p : Proxy := { backend := ⟨"http", "up.example", ⟨"/base", none⟩⟩ }
    let r : Incoming := { target := { path := "/q", query := some "name='x'" } }
    (∃ request, p.outgoing r none = .ok request ∧
      request.url.query = some "name=%27x%27" ∧ request.url.query ≠ r.target.query) ∧
    ∃ seen ∈ (p.serve { now := ⟨0⟩ } r { reachable := true }).1.seen,
      ∃ front, '?' ∉ front.toList ∧ seen.target = front ++ "?name=%27x%27" := by
  intro p r
  have hraw : Url.ofText "http://up.example/base" =
      .ok { scheme := "http", host := some (.name "up.example"), path := .rooted ["base"] } := by
    decide +kernel
  have hbackend : Backend.ofUrl
      { scheme := "http", host := some (.name "up.example"), path := .rooted ["base"] } =
        .ok p.backend := by
    decide +kernel
  have hline : Target.ofText? "/q?name='x'" = some r.target := by decide +kernel
  have hcoded : r.target.query.map sentQuery = some "name=%27x%27" := by decide +kernel
  have hne : (p.serve { now := ⟨0⟩ } r { reachable := true }).1.seen ≠ [] := by decide +kernel
  obtain ⟨request, hout, -, hquery, hsame, -, hseen⟩ :=
    query_of_forwarded hraw (.inl rfl) hbackend hline { now := ⟨0⟩ } { reachable := true }
  have hsent := hquery.trans hcoded
  refine ⟨⟨request, hout, hsent, fun h => ?_⟩, ?_⟩
  · exact absurd (hsame.mp h _ rfl (Char.ofNat 0x27) (by decide)).2 (by decide)
  · obtain ⟨seen, hmem⟩ := List.exists_mem_of_ne_nil _ hne
    obtain ⟨front, hfront, htarget⟩ := hseen seen hmem
    rw [hsent] at htarget
    exact ⟨seen, hmem, front, hfront, htarget⟩

end Proxy

end TokenKeeper
