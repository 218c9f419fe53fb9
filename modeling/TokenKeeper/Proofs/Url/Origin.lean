import TokenKeeper.Proofs.Url.Front

/-!
# The origin of a URL

Scheme, host and port of a URL that is read are in the form in which they are kept
(`isOrigin_of_ofText`). If they are written in this form, they are read back whatever path, query
and fragment stand behind them, and no user information is read (`IsOrigin.exists_ofText_eq`). So
where a URL leads is decided by what is written in front of the first slash behind its host.
-/

namespace TokenKeeper.Url

variable {scheme : String} {host : Host} {port : Option Nat} {s : List Char} {u : Url}

/-- Scheme, host and port in the form in which they are kept. -/
structure IsOrigin (scheme : String) (host : Host) (port : Option Nat) : Prop where
  isScheme : IsScheme scheme
  hostOf_text : hostOf scheme host.text.toList = .ok host
  host_ne : host ≠ .name ""
  portOf_digits : portOf scheme (port.map Decimal.digits) = .ok port
  of_file : scheme = "file" → host ≠ .name "localhost" ∧ port = none

/-- **The origin of a URL that is read is in the form in which it is kept**, if the URL has a host.
-/
theorem isOrigin_of_ofText {raw : String} (h : Url.ofText raw = .ok u) (hhost : u.host = some host)
    (hne : host ≠ .name "") : IsOrigin u.scheme host u.port := by
  have hscheme := isScheme_of_ofText h
  rcases exists_authority_of_ofText h hhost hne with ⟨hfile, s, hs⟩ | ⟨hfile, s, hs⟩
  · obtain ⟨-, -, hport, hnone | ⟨t, host', hread, hlocal, hsome⟩⟩ := ofFileAuthority_eq_ok hs
    · exact absurd (Option.some.inj (hhost.symm.trans hnone)) hne
    · obtain rfl := Option.some.inj (hhost.symm.trans hsome)
      rw [hfile] at hscheme ⊢
      rw [hport]
      exact ⟨hscheme, hostOf_text ((if_pos (by decide)).trans hread), hne, rfl,
        fun _ => ⟨hlocal, rfl⟩⟩
  · obtain ⟨-, -, -, ⟨p, hport⟩, ⟨-, hnone⟩ | ⟨t, host', hread, hsome⟩⟩ := ofAuthority_eq_ok hs
    · exact absurd (Option.some.inj (hhost.symm.trans hnone)) hne
    · obtain rfl := Option.some.inj (hhost.symm.trans hsome)
      exact ⟨hscheme, hostOf_text hread, hne, (portOf_digits hport).1, fun h => absurd h hfile⟩

/-- The characters of an origin are those of an authority. -/
theorem IsOrigin.isAuthorityChar (h : IsOrigin scheme host port) :
    ∀ c ∈ (withPort host.text port).toList, IsAuthorityChar c :=
  isAuthorityChar_withPort (isHostText_of_hostOf h.hostOf_text).isAuthorityChar

/-- A host is no drive. -/
theorem isDrive_of_isHostText {t : List Char} (h : Host.IsHostText t) : isDrive t = false := by
  cases h with
  | plain allowed _ =>
    have hne : ∀ d, Host.isForbidden d = true → ∀ c ∈ t, (c == d) = false := by
      intro d hd c hc
      refine beq_eq_false_iff_ne.mpr ?_
      rintro rfl
      exact absurd (hd.symm.trans (allowed _ hc)) (by decide)
    unfold isDrive
    split
    · rename_i c d _
      rw [hne ':' (by decide) d (by simp), hne '|' (by decide) d (by simp), Bool.or_self,
        Bool.and_false]
    · rfl
  | bracketed a =>
    rw [Host.toList_v6Text]
    unfold isDrive
    split
    · rename_i heq
      obtain rfl := (List.cons.inj heq).1
      rfl
    · rfl

/-- Two slashes stand in front of an authority. -/
theorem ofSchemeRest_slashes (hfile : scheme ≠ "file") {authority : List Char}
    (hne : authority ≠ []) (hchars : ∀ c ∈ authority, IsAuthorityChar c) (s : List Char) :
    ofSchemeRest none scheme ('/' :: '/' :: (authority ++ s)) =
      ofAuthority scheme (authority ++ s) := by
  by_cases hspecial : isSpecial scheme = true
  · rw [ofSchemeRest_of_isSpecial hspecial hfile, dropWhile_slashes_append hne hchars]
  · simp only [ofSchemeRest, if_neg hfile, if_neg hspecial]

/-- The host of a file is read, unless it is the own one. -/
theorem ofFileAuthority_eq {hostText : List Char} (hpart : authorityPart true s = hostText)
    (hdrive : isDrive hostText = false) (hne : hostText ≠ [])
    (hhost : Host.ofDomainText hostText = .ok host) (hlocal : host ≠ .name "localhost") :
    ofFileAuthority s =
      .ok (withTail
        { scheme := "file", host := some host, path := rootedPath "file" (pathPart true s) }
        (splitTail s).2.1 (splitTail s).2.2) := by
  rw [authorityPart] at hpart
  rw [ofFileAuthority]
  simp only [hpart, hdrive, Bool.false_eq_true, if_false, hne, hhost, hlocal, bind, Except.bind]
  subst hpart
  rfl

/-- Behind the scheme, host and port are read up to the slash. -/
theorem IsOrigin.exists_ofSchemeRest_eq (h : IsOrigin scheme host port) (s : List Char) :
    ∃ url, ofSchemeRest none scheme ('/' :: '/' :: ((withPort host.text port).toList ++ '/' :: s)) =
        .ok url ∧
      url.scheme = scheme ∧ url.host = some host ∧ url.port = port ∧ url.username = "" ∧
      url.password = none := by
  have hchars := h.isAuthorityChar
  have hhost := isHostText_of_hostOf h.hostOf_text
  have hne := Host.toList_text_ne_nil h.host_ne
  by_cases hfile : scheme = "file"
  · subst hfile
    obtain ⟨hlocal, rfl⟩ := h.of_file rfl
    have hread : Host.ofDomainText host.text.toList = .ok host := h.hostOf_text
    have hslashes : ofSchemeRest none "file"
        ('/' :: '/' :: ((withPort host.text none).toList ++ '/' :: s)) =
          ofFileAuthority (host.text.toList ++ '/' :: s) := rfl
    exact ⟨_, hslashes.trans (ofFileAuthority_eq (authorityPart_append true hchars s)
      (isDrive_of_isHostText hhost) hne hread hlocal), rfl, rfl, rfl, rfl, rfl⟩
  · have hpart := authorityPart_append (isSpecial scheme) hchars s
    have hat : '@' ∉ authorityPart (isSpecial scheme)
        ((withPort host.text port).toList ++ '/' :: s) := by
      rw [hpart]
      exact fun hmem => (hchars _ hmem).ne_at rfl
    have hsplit := splitPort_withPort hhost port
    rw [← hpart] at hsplit
    exact ⟨_, (ofSchemeRest_slashes hfile (toList_withPort_ne_nil hne port) hchars _).trans
      (ofAuthority_eq hat hsplit hne h.hostOf_text h.portOf_digits), rfl, rfl, rfl, rfl, rfl⟩

/-- **An origin is read back**, whatever stands behind the slash that follows it. -/
theorem IsOrigin.exists_ofText_eq (h : IsOrigin scheme host port) (rest : String) :
    ∃ url, Url.ofText (scheme ++ "://" ++ withPort host.text port ++ "/" ++ rest) = .ok url ∧
      url.scheme = scheme ∧ url.host = some host ∧ url.port = port ∧ url.username = "" ∧
      url.password = none := by
  have hslash : 0x20 < '/'.toNat := by decide
  have hfront : ∀ c ∈ (withPort host.text port ++ "/").toList, 0x20 < c.toNat := by
    intro c hc
    rw [String.toList_append] at hc
    rcases List.mem_append.mp hc with hc | hc
    · exact (h.isAuthorityChar c hc).space_lt
    · obtain rfl := List.mem_singleton.mp hc
      exact hslash
  obtain ⟨x, hx⟩ := exists_ofText_append h.isScheme hfront rest
  have htext : scheme ++ "://" ++ withPort host.text port ++ "/" ++ rest =
      scheme ++ "://" ++ (withPort host.text port ++ "/") ++ rest := by
    simp only [String.append_assoc]
  rw [htext, hx, String.toList_append, List.append_assoc, show "/".toList ++ x = '/' :: x from rfl]
  exact h.exists_ofSchemeRest_eq x

end TokenKeeper.Url
