import TokenKeeper.Proofs.Proxy.Target
import TokenKeeper.Proxy.Forward

/-!
# Where requests are sent

A proxy puts the path of a request behind the base path of its backend. The text of the target has
the base path in front, but the URL that is read from it resolves dot segments, so a request can
lead out of the base path: it is sent to where the route of its path leads from there
(`path_of_outgoing`). It stays under the base path exactly if the route enters again what it leaves.
-/

namespace TokenKeeper

open Http

/-! ## The base path -/

namespace Url

/-- The segments of a path without the empty one behind a slash at its end. -/
def baseSegments (u : Url) : List String :=
  match u.path with
  | .rooted segments => if segments.getLast? = some "" then segments.dropLast else segments
  | .plain _ => []

variable {u : Url} {segments : List String}

theorem isSettled_of_mem_baseSegments (h : WebUrl u segments) :
    ∀ s ∈ u.baseSegments, IsSettled s := by
  intro s hs
  simp only [baseSegments, h.path] at hs
  split at hs
  · exact h.settled s (List.dropLast_subset segments hs)
  · exact h.settled s hs

/-- A segment that is not empty has no slash at its end. -/
theorem endsInSlash_append {s : String} (h : IsSettled s) (hne : s ≠ "") (front : String) :
    WirePath.endsInSlash (front ++ s) = false := by
  rcases List.eq_nil_or_concat s.toList with hnil | ⟨more, c, hc⟩
  · exact absurd (String.toList_inj.mp hnil) hne
  · have hslash := (h.chars c (by rw [hc]; simp)).ne_slash
    simp [WirePath.endsInSlash, hc, hslash]

/-- The path without the slash at its end is written with these segments. -/
theorem stem_pathText (h : WebUrl u segments) :
    WirePath.stem u.pathText = (Path.rooted u.baseSegments).text := by
  simp only [pathText, baseSegments, h.path]
  rcases List.eq_nil_or_concat segments with rfl | ⟨front, s, rfl⟩
  · exact WirePath.stem_of_not_endsInSlash rfl
  · have hs : IsSettled s := h.settled s (by simp)
    rw [List.concat_eq_append, text_rooted_concat, List.getLast?_concat, List.dropLast_concat]
    by_cases hempty : s = ""
    · subst hempty
      rw [if_pos rfl, String.append_empty, WirePath.stem_append_slash]
    · rw [if_neg fun h => hempty (Option.some.inj h), text_rooted_concat,
        WirePath.stem_of_not_endsInSlash (endsInSlash_append hs hempty _)]

end Url

/-! ## The target -/

namespace Proxy

variable {raw line : String} {u : Url} {p : Proxy} {r : Incoming} {token : Option Token}
  {request : Request}

/-- A request goes to the URL that is read from the text of its target, with the header that is
passed on. -/
theorem exists_of_outgoing (h : p.outgoing r token = .ok request) :
    ∃ url, Url.ofText (p.backend.target r.target) = .ok url ∧
      request.url = url.withoutCredentials ∧
      request.header = credentialFields url ++ forwardedHeader r token := by
  rw [outgoing] at h
  split at h
  · rename_i url hurl
    refine ⟨url, hurl, ?_⟩
    rw [Request.toUrl?] at h
    split at h
    · cases h
    · obtain rfl := Except.ok.inj h
      exact ⟨rfl, rfl⟩
  · cases h

/-- The path and the query of the URL are read from those in the text of the target. -/
theorem read_of_outgoing (hraw : Url.ofText raw = .ok u) (hscheme : Url.IsWeb u.scheme)
    (hbackend : Backend.ofUrl u = .ok p.backend) (hline : Target.ofText? line = some r.target)
    (h : p.outgoing r token = .ok request) :
    request.url.path = Url.rootedPath u.scheme (Backend.targetPath u r.target).toList ∧
      request.url.query =
        r.target.query.map (Percent.encodeText (Url.escapedInQuery true)) := by
  obtain ⟨authority, hparts, htext⟩ :=
    Backend.parts_target hraw hscheme hbackend (Target.isClean_of_ofText? hline)
  obtain ⟨url, hurl, hsent, -⟩ := exists_of_outgoing h
  rw [htext] at hurl
  have hpath := hparts.path_eq hurl
  have hquery := hparts.query_eq hurl
  rw [hsent]
  exact ⟨hpath, hquery⟩

/-- **Where a request is sent.** It goes to where the route of its path leads from the base path. -/
theorem path_of_outgoing (hraw : Url.ofText raw = .ok u) (hscheme : Url.IsWeb u.scheme)
    (hbackend : Backend.ofUrl u = .ok p.backend) (hline : Target.ofText? line = some r.target)
    (h : p.outgoing r token = .ok request) :
    request.url.path =
        .rooted ((Url.Route.ofText r.target.path).applyTo u.baseSegments) ∧
      ∀ s ∈ (Url.Route.ofText r.target.path).applyTo u.baseSegments, Url.IsSettled s := by
  obtain ⟨segments, hu⟩ := Url.webUrl_of_ofText hraw hscheme
  have hbase := Url.isSettled_of_mem_baseSegments hu
  have hread := (read_of_outgoing hraw hscheme hbackend hline h).1
  rw [Backend.targetPath, WirePath.joinTexts_eq, Url.stem_pathText hu] at hread
  -- the base path is read back, and the rest is read from there on
  have hroute := Url.Route.addSegments_applyTo {} u.baseSegments hscheme.ne_file
    (Url.splitPath true (WirePath.leaf r.target.path).toList)
  rw [Url.Route.applyTo_start] at hroute
  rw [Url.rootedPath_append_slash hscheme.isSpecial hscheme.ne_file hbase, hroute] at hread
  refine ⟨hread, ?_⟩
  rw [Url.Route.ofText, ← hroute]
  exact Url.isSettled_of_mem_addSegments hscheme.ne_file
    (fun _ hp => Url.not_mem_of_mem_splitPath hp) hbase

/-- **When a request stays under the base path.** Take a backend that is named by a URL of a web
server, and any request whose target can be read. What is sent lies under the base path exactly if
the segments of the base path that the route of the request leaves behind are the first ones that
it enters again. -/
theorem isUnder_basePath_iff (hraw : Url.ofText raw = .ok u) (hscheme : Url.IsWeb u.scheme)
    (hbackend : Backend.ofUrl u = .ok p.backend) (hline : Target.ofText? line = some r.target)
    (h : p.outgoing r token = .ok request) :
    Url.IsUnder (WirePath.stem u.pathText) request.url.pathText ↔
      u.baseSegments.drop
          (u.baseSegments.length - (Url.Route.ofText r.target.path).up) <+:
        (Url.Route.ofText r.target.path).down := by
  obtain ⟨segments, hu⟩ := Url.webUrl_of_ofText hraw hscheme
  obtain ⟨hpath, hsettled⟩ := path_of_outgoing hraw hscheme hbackend hline h
  rw [Url.stem_pathText hu, Url.pathText, hpath]
  exact Url.isUnder_applyTo_iff _ (Url.isSettled_of_mem_baseSegments hu) hsettled

/-- A request for `/../admin` to a backend at `/base` is sent to `/admin`. -/
theorem outgoing_leaves_basePath :
    ∃ request,
      ({ backend := ⟨"http", "up.example", ⟨"/base", none⟩⟩ } : Proxy).outgoing
          { target := { path := "/../admin" } } none = .ok request ∧
        request.url.pathText = "/admin" ∧ ¬ Url.IsUnder "/base" request.url.pathText := by
  have hraw : Url.ofText "http://up.example/base" =
      .ok { scheme := "http", host := some (.name "up.example"), path := .rooted ["base"] } := by
    decide +kernel
  have hbackend : Backend.ofUrl
      { scheme := "http", host := some (.name "up.example"), path := .rooted ["base"] } =
        .ok ⟨"http", "up.example", ⟨"/base", none⟩⟩ := by
    decide +kernel
  have hline : Target.ofText? "/../admin" = some { path := "/../admin" } := by decide +kernel
  have hout : ({ backend := ⟨"http", "up.example", ⟨"/base", none⟩⟩ } : Proxy).outgoing
      { target := { path := "/../admin" } } none =
        .ok
          { method := "GET"
            url :=
              { scheme := "http", host := some (.name "up.example"), path := .rooted ["admin"] }
            header := [.ofText Header.forwardedPrefix "/"] } := by
    decide +kernel
  refine ⟨_, hout, by decide, fun h => ?_⟩
  exact absurd ((isUnder_basePath_iff hraw (.inl rfl) hbackend hline hout).mp h) (by decide)

/-- Without a segment that means the place above, a request stays under the base path. -/
theorem isUnder_basePath_of_not_isDoubleDot (hraw : Url.ofText raw = .ok u)
    (hscheme : Url.IsWeb u.scheme) (hbackend : Backend.ofUrl u = .ok p.backend)
    (hline : Target.ofText? line = some r.target) (h : p.outgoing r token = .ok request)
    (hpieces : ∀ s ∈ Url.splitPath true (WirePath.leaf r.target.path).toList,
      Url.isDoubleDot s = false) :
    Url.IsUnder (WirePath.stem u.pathText) request.url.pathText := by
  obtain ⟨segments, hu⟩ := Url.webUrl_of_ofText hraw hscheme
  obtain ⟨hpath, hsettled⟩ := path_of_outgoing hraw hscheme hbackend hline h
  have hup : (Url.Route.ofText r.target.path).up = 0 := Url.Route.up_walk {} hpieces
  rw [Url.stem_pathText hu, Url.pathText, hpath,
    Url.isUnder_applyTo_iff _ (Url.isSettled_of_mem_baseSegments hu) hsettled, hup, Nat.sub_zero,
    List.drop_length]
  exact List.nil_prefix

end Proxy

end TokenKeeper
