import TokenKeeper.Proofs.Http.Target
import TokenKeeper.Proofs.Url.Origin
import TokenKeeper.Proofs.Url.PathJoin
import TokenKeeper.Proofs.Url.Route
import TokenKeeper.Proxy.Backend

/-!
# The text of a target

The target of a request is written from what is known of it: scheme, host and port of the backend,
its path joined with that of the request, and the query of the request (`target_ofWire`). The joined
path starts with a slash, so the origin in front of it is read back, and a request leads to its
backend whatever it asks for (`target_keeps_origin`).
-/

namespace TokenKeeper

open Http

namespace Url

variable {u : Url} {raw : String} {host : Host}

/-- The text of segments is empty or starts with a slash. -/
theorem startsWithSlash_text_rooted (segments : List String) :
    (Path.rooted segments).text = "" ∨
      WirePath.startsWithSlash (Path.rooted segments).text = true := by
  cases segments with
  | nil => exact .inl rfl
  | cons s rest =>
    rw [text_rooted_cons, String.append_assoc]
    exact .inr (WirePath.startsWithSlash_slash_append _)

/-- The text of segments that do not end a path does not end it. -/
theorem isPathText_text_rooted {segments : List String} (h : ∀ s ∈ segments, IsPathText s) :
    IsPathText (Path.rooted segments).text := by
  have hslash : 0x20 < '/'.toNat ∧ '/' ≠ '?' ∧ '/' ≠ '#' := by decide
  intro c hc
  rcases mem_text_rooted hc with rfl | ⟨s, hs, hc⟩
  · exact hslash
  · exact h s hs c hc

/-- Neither does it when it is joined with another such text. -/
theorem isPathText_joinTexts {a b : String} (ha : IsPathText a) (hb : IsPathText b) :
    IsPathText (WirePath.joinTexts a b) := by
  have hslash : 0x20 < '/'.toNat ∧ '/' ≠ '?' ∧ '/' ≠ '#' := by decide
  intro c hc
  rcases WirePath.mem_joinTexts hc with hc | rfl | hc
  · exact ha c hc
  · exact hslash
  · exact hb c hc

end Url

namespace Backend

variable {u : Url} {raw line : String} {b : Backend} {t : Target}

/-- A backend is named by the origin and the path of a URL that has a host. -/
theorem ofUrl_eq_ok_iff :
    ofUrl u = .ok b ↔ ∃ host, u.host = some host ∧ host ≠ .name "" ∧
      b = { scheme := u.scheme, authority := Url.withPort host.text u.port
            basePath := .ofWire u.pathText } := by
  constructor
  · intro h
    rw [ofUrl] at h
    split at h
    · cases h
    · rename_i text htext
      obtain ⟨host, hhost, hne, rfl⟩ := Url.hostText?_eq_some_iff.mp htext
      exact ⟨host, hhost, hne, (Except.ok.inj h).symm⟩
  · rintro ⟨host, hhost, hne, rfl⟩
    rw [ofUrl, Url.hostText?_eq_some_iff.mpr ⟨host, hhost, hne, rfl⟩]

/-- A target is written from the parts of the backend and of the request. -/
theorem target_ofWire (scheme authority path : String) (t : Target) :
    target { scheme, authority, basePath := .ofWire path } t =
      scheme ++ "://" ++ authority ++ WirePath.joinTexts path t.path ++ Url.queryText t.query := by
  rw [← WirePath.wire_join_ofWire]
  rfl

/-- The path of a target: that of the request behind that of the backend. -/
def targetPath (u : Url) (t : Target) : String :=
  WirePath.joinTexts u.pathText t.path

/-- It starts with a slash. -/
theorem exists_targetPath_eq (hraw : Url.ofText raw = .ok u) (h : ofUrl u = .ok b) (t : Target) :
    ∃ rest, targetPath u t = "/" ++ rest := by
  obtain ⟨host, hhost, hne, -⟩ := ofUrl_eq_ok_iff.mp h
  obtain ⟨segments, hpath, -⟩ := Url.exists_rooted_of_ofText hraw hhost hne
  rw [targetPath, Url.pathText, hpath]
  exact WirePath.exists_joinTexts_eq (Url.startsWithSlash_text_rooted segments) t.path

/-- No query and no fragment begins in it. -/
theorem isPathText_targetPath (hraw : Url.ofText raw = .ok u) (h : ofUrl u = .ok b)
    (ht : t.IsClean) : Url.IsPathText (targetPath u t) := by
  obtain ⟨host, hhost, hne, -⟩ := ofUrl_eq_ok_iff.mp h
  obtain ⟨segments, hpath, hsegments⟩ := Url.exists_rooted_of_ofText hraw hhost hne
  rw [targetPath, Url.pathText, hpath]
  exact Url.isPathText_joinTexts (Url.isPathText_text_rooted hsegments) ht.path

/-- If the URL is one of a web server, the text of a target that can be read is put together from
parts each of which ends where it should. -/
theorem parts_target (hraw : Url.ofText raw = .ok u) (hscheme : Url.IsWeb u.scheme)
    (h : ofUrl u = .ok b) (ht : t.IsClean) :
    ∃ authority, Url.Parts u.scheme authority (targetPath u t) t.query ∧
      b.target t = u.scheme ++ "://" ++ authority ++ targetPath u t ++ Url.queryText t.query := by
  obtain ⟨rest, hrest⟩ := exists_targetPath_eq hraw h t
  have hpath := isPathText_targetPath hraw h ht
  obtain ⟨host, hhost, hne, rfl⟩ := ofUrl_eq_ok_iff.mp h
  have hparts : Url.Parts u.scheme (Url.withPort host.text u.port) (targetPath u t) t.query :=
    { scheme := hscheme
      authority_ne_nil := Url.toList_withPort_ne_nil (Host.toList_text_ne_nil hne) u.port
      authority := (Url.isOrigin_of_ofText hraw hhost hne).isAuthorityChar
      rooted := ⟨rest.toList, by rw [hrest, String.toList_append]; rfl⟩
      path := hpath
      query := ht.query }
  exact ⟨_, hparts, target_ofWire _ _ _ t⟩

/-- **A target is read with the origin of its backend**, whatever the request asks for. -/
theorem exists_ofText_target_eq (hraw : Url.ofText raw = .ok u) (h : ofUrl u = .ok b) (t : Target) :
    ∃ url, Url.ofText (b.target t) = .ok url ∧ url.scheme = u.scheme ∧ url.host = u.host ∧
      url.port = u.port ∧ url.username = "" ∧ url.password = none := by
  obtain ⟨host, hhost, hne, rfl⟩ := ofUrl_eq_ok_iff.mp h
  obtain ⟨rest, hrest⟩ := exists_targetPath_eq hraw h t
  obtain ⟨url, hread, hscheme, hhost', hport, huser, hpassword⟩ :=
    (Url.isOrigin_of_ofText hraw hhost hne).exists_ofText_eq (rest ++ Url.queryText t.query)
  refine ⟨url, ?_, hscheme, hhost'.trans hhost.symm, hport, huser, hpassword⟩
  rw [target_ofWire, ← targetPath, hrest, ← hread]
  simp only [String.append_assoc]

/-- **A request leads to its backend.** Take a backend that is named by a URL, and any request whose
target can be read, in any of the forms in which it may be given. The text of its target is

* the scheme, the host and the port of the URL, unless that is the default one, as they are;
* the path of the URL joined with that of the request, which starts with a slash and in which
  neither a query nor a fragment begins;
* the query of the request behind a question mark, if the request has one.

User information, query and fragment of the URL have no part in it. Whoever reads the text finds the
scheme, the host and the port of the URL, and no user information. -/
theorem target_keeps_origin (hraw : Url.ofText raw = .ok u) (hbackend : ofUrl u = .ok b)
    (hline : Target.ofText? line = some t) :
    ∃ host path, u.host = some host ∧ (∀ n, u.port = some n → Url.defaultPort? u.scheme ≠ some n) ∧
      path = WirePath.joinTexts u.pathText t.path ∧
      b.target t =
        u.scheme ++ "://" ++ Url.withPort host.text u.port ++ path ++ Url.queryText t.query ∧
      (∃ rest, path = "/" ++ rest) ∧ '?' ∉ path.toList ∧ '#' ∉ path.toList ∧
      (∀ username password query fragment,
        ofUrl { u with username, password, query, fragment } = .ok b) ∧
      ∃ url, Url.ofText (b.target t) = .ok url ∧ url.scheme = u.scheme ∧ url.host = u.host ∧
        url.port = u.port ∧ url.username = "" ∧ url.password = none := by
  have hchars := isPathText_targetPath hraw hbackend (Target.isClean_of_ofText? hline)
  obtain ⟨host, hhost, hne, hb⟩ := ofUrl_eq_ok_iff.mp hbackend
  refine ⟨host, targetPath u t, hhost, fun n hn => ?_, rfl, ?_,
    exists_targetPath_eq hraw hbackend t, fun hmem => (hchars _ hmem).2.1 rfl,
    fun hmem => (hchars _ hmem).2.2 rfl, fun _ _ _ _ => ?_,
    exists_ofText_target_eq hraw hbackend t⟩
  · exact ((Url.portOf_digits (Url.isOrigin_of_ofText hraw hhost hne).portOf_digits).2 n hn).2
  · rw [hb, target_ofWire, targetPath]
  · exact ofUrl_eq_ok_iff.mpr ⟨host, hhost, hne, hb⟩

/-- A request for a URL of another server leads to the backend, with its empty query. -/
theorem target_keeps_origin_foreign_authority :
    ∃ u b t, Url.ofText "http://user:pw@Up.Example:8080/base?x#y" = .ok u ∧ ofUrl u = .ok b ∧
      Target.ofText? "http://other.example:1/a@b?" = some t ∧
      b.target t = "http://up.example:8080/base/a@b?" ∧
      ∃ url, Url.ofText (b.target t) = .ok url ∧ url.host = some (.name "up.example") ∧
        url.port = some 8080 := by
  have hraw : Url.ofText "http://user:pw@Up.Example:8080/base?x#y" =
      .ok { scheme := "http", username := "user", password := some "pw"
            host := some (.name "up.example"), port := some 8080, path := .rooted ["base"]
            query := some "x", fragment := some "y" } := by
    decide +kernel
  have hline : Target.ofText? "http://other.example:1/a@b?" =
      some { path := "/a@b", query := some "" } := by
    decide +kernel
  have hbackend : ofUrl
      { scheme := "http", username := "user", password := some "pw"
        host := some (.name "up.example"), port := some 8080, path := .rooted ["base"]
        query := some "x", fragment := some "y" } =
        .ok ⟨"http", "up.example:8080", ⟨"/base", none⟩⟩ := by
    decide +kernel
  obtain ⟨host, path, hhost, -, rfl, htarget, -, -, -, -, url, hread, -, hurl, hport, -⟩ :=
    target_keeps_origin hraw hbackend hline
  obtain rfl : Host.name "up.example" = host := Option.some.inj hhost
  exact ⟨_, _, _, hraw, hbackend, hline, htarget.trans (by decide +kernel), url, hread, hurl, hport⟩

end Backend

end TokenKeeper
