import TokenKeeper.Proofs.Url.Authority
import TokenKeeper.Proofs.Url.Segments

/-!
# What reading leaves of a URL

The parser is taken apart once in each direction. A URL that was read with one of the two schemes
of web servers is a `WebUrl`: it has a host without delimiters and a path of settled segments
(`webUrl_of_ofText`). And what is written in the form of such a URL is read with the path and the
query that stand in it (`Parts.path_eq`, `Parts.query_eq`), whatever the authority is taken for.
-/

namespace TokenKeeper.Url

variable {scheme : String} {s : List Char} {u : Url}

/-- The part of the text behind the two slashes that is the path. -/
def pathPart (special : Bool) (s : List Char) : List Char :=
  let front := (splitTail s).1
  front.drop (front.takeWhile (!isSlash special ·)).length

/-- The part of the text behind the two slashes that is the authority. -/
def authorityPart (special : Bool) (s : List Char) : List Char :=
  (splitTail s).1.takeWhile (!isSlash special ·)

/-! ## What comes of each reader -/

/-- The scheme is given, and path, query, port and host are read from their parts of the text. Where
hosts are domains there must be one. -/
theorem ofAuthority_eq_ok (h : ofAuthority scheme s = .ok u) :
    u.scheme = scheme ∧ u.path = rootedPath scheme (pathPart (isSpecial scheme) s) ∧
      u.query = (splitTail s).2.1.map (escapeChars (escapedInQuery (isSpecial scheme))) ∧
      (∃ p, portOf scheme p = .ok u.port) ∧
      (isSpecial scheme = false ∧ u.host = some (.name "") ∨
        ∃ t host, hostOf scheme t = .ok host ∧ u.host = some host) := by
  rw [ofAuthority] at h
  simp only [bind, Except.bind, pure, Except.pure, throw, throwThe, MonadExceptOf.throw] at h
  split at h
  · cases h
  rename_i hfull
  split at h
  · rename_i hnil
    split at h
    · cases h
    · rename_i port hport
      obtain rfl := Except.ok.inj h
      refine ⟨rfl, rfl, rfl, ⟨_, hport⟩, .inl ⟨?_, rfl⟩⟩
      exact Bool.eq_false_iff.mpr fun hspecial => hfull ⟨hnil, .inl hspecial⟩
  split at h
  · rename_i hspecial
    split at h
    · cases h
    rename_i host hhost
    split at h
    · cases h
    · rename_i port hport
      obtain rfl := Except.ok.inj h
      exact ⟨rfl, rfl, rfl, ⟨_, hport⟩, .inr ⟨_, host, (if_pos hspecial).trans hhost, rfl⟩⟩
  · rename_i hspecial
    split at h
    · cases h
    rename_i host hhost
    split at h
    · cases h
    · rename_i port hport
      obtain rfl := Except.ok.inj h
      exact ⟨rfl, rfl, rfl, ⟨_, hport⟩, .inr ⟨_, host, (if_neg hspecial).trans hhost, rfl⟩⟩

theorem splitUser_of_not_mem (hat : '@' ∉ s) : splitUser s = (none, s) := by
  simp [splitUser, hat]

/-- An authority without user information is read if its host and its port are. -/
theorem ofAuthority_eq {hostText : List Char} {portText : Option (List Char)} {host : Host}
    {port : Option Nat} (hat : '@' ∉ authorityPart (isSpecial scheme) s)
    (hsplit : splitPort (authorityPart (isSpecial scheme) s) = (hostText, portText))
    (hne : hostText ≠ []) (hhost : hostOf scheme hostText = .ok host)
    (hport : portOf scheme portText = .ok port) :
    ofAuthority scheme s =
      .ok (withTail
        { scheme, host := some host, port
          path := rootedPath scheme (pathPart (isSpecial scheme) s) }
        (splitTail s).2.1 (splitTail s).2.2) := by
  have huser := splitUser_of_not_mem hat
  rw [authorityPart] at huser hsplit
  rw [hostOf] at hhost
  rw [ofAuthority]
  simp only [huser, hsplit, hne, false_and, if_false, bind, Except.bind, pure, Except.pure]
  split at hhost
  · rename_i hspecial
    simp only [if_pos hspecial, hhost, hport]
    rfl
  · rename_i hspecial
    simp only [if_neg hspecial, hhost, hport]
    rfl

/-- The URL of a file has no port. Its host is a domain but never the own one, or there is none. -/
theorem ofFileAuthority_eq_ok (h : ofFileAuthority s = .ok u) :
    u.scheme = "file" ∧ (∃ t, u.path = rootedPath "file" t) ∧ u.port = none ∧
      (u.host = some (.name "") ∨
        ∃ t host, Host.ofDomainText t = .ok host ∧ host ≠ .name "localhost" ∧
          u.host = some host) := by
  rw [ofFileAuthority] at h
  simp only [bind, Except.bind, pure, Except.pure] at h
  split at h
  · obtain rfl := Except.ok.inj h
    exact ⟨rfl, ⟨_, rfl⟩, rfl, .inl rfl⟩
  split at h
  · obtain rfl := Except.ok.inj h
    exact ⟨rfl, ⟨_, rfl⟩, rfl, .inl rfl⟩
  · split at h
    · cases h
    · rename_i host hhost
      obtain rfl := Except.ok.inj h
      refine ⟨rfl, ⟨_, rfl⟩, rfl, ?_⟩
      by_cases hlocal : host = .name "localhost"
      · exact .inl (congrArg some (if_pos hlocal))
      · exact .inr ⟨_, host, hhost, hlocal, congrArg some (if_neg hlocal)⟩

/-- A reference keeps the scheme of its base, and its host unless it names another one. -/
theorem ofReference_eq_ok {base : Url} (h : ofReference base s = .ok u) :
    u.scheme = base.scheme ∧ (u.host = base.host ∨
      base.scheme = "file" ∧ (∃ s, ofFileAuthority s = .ok u) ∨
      base.scheme ≠ "file" ∧ ∃ s, ofAuthority base.scheme s = .ok u) := by
  rw [ofReference] at h
  simp only [pure, Except.pure] at h
  split at h
  · obtain rfl := Except.ok.inj h
    split <;> exact ⟨rfl, .inl rfl⟩
  split at h
  · split at h
    · split at h
      · split at h
        · rename_i hfile
          exact ⟨(ofFileAuthority_eq_ok h).1.trans hfile.symm, .inr (.inl ⟨hfile, _, h⟩)⟩
        · rename_i hfile
          split at h <;> exact ⟨(ofAuthority_eq_ok h).1, .inr (.inr ⟨hfile, _, h⟩)⟩
      · obtain rfl := Except.ok.inj h
        exact ⟨rfl, .inl rfl⟩
    · obtain rfl := Except.ok.inj h
      exact ⟨rfl, .inl rfl⟩
  · obtain rfl := Except.ok.inj h
    exact ⟨rfl, .inl rfl⟩

theorem scheme_of_ofSchemeRest (h : ofSchemeRest none scheme s = .ok u) : u.scheme = scheme := by
  -- a file without a host is read as a reference to the root
  have hroot : ∀ {s : List Char}, ofReference ofSchemeRest.root s = .ok u → u.scheme = "file" :=
    fun h => (ofReference_eq_ok h).1
  unfold ofSchemeRest at h
  split at h
  · rename_i hfile
    rw [hfile]
    split at h
    · split at h
      · exact (ofFileAuthority_eq_ok h).1
      · exact hroot h
    · exact hroot h
  split at h
  · exact (ofAuthority_eq_ok h).1
  split at h
  · exact (ofAuthority_eq_ok h).1
  · obtain rfl := Except.ok.inj h
    rfl
  · obtain rfl := Except.ok.inj h
    rfl

/-- Where the scheme says that hosts are domains, all slashes are dropped before the authority. -/
theorem ofSchemeRest_of_isSpecial (hspecial : isSpecial scheme = true) (hfile : scheme ≠ "file") :
    ofSchemeRest none scheme s = ofAuthority scheme (s.dropWhile (isSlash true)) := by
  have hdrop : s.drop (s.takeWhile (isSlash true)).length = s.dropWhile (isSlash true) := by
    conv =>
      lhs
      arg 2
      rw [← List.takeWhile_append_dropWhile (p := isSlash true) (l := s)]
    exact List.drop_left
  simp only [ofSchemeRest, if_neg hfile, hspecial, if_true, hdrop]

/-- **A URL that has a host is read from its authority**, or from that of a file. -/
theorem exists_authority_of_ofText {raw : String} (h : Url.ofText raw = .ok u) {host : Host}
    (hhost : u.host = some host) (hne : host ≠ .name "") :
    u.scheme = "file" ∧ (∃ s, ofFileAuthority s = .ok u) ∨
      u.scheme ≠ "file" ∧ ∃ s, ofAuthority u.scheme s = .ok u := by
  have hroot : ∀ {s : List Char}, ofReference ofSchemeRest.root s = .ok u →
      ∃ s, ofFileAuthority s = .ok u := by
    intro s hs
    rcases (ofReference_eq_ok hs).2 with hsame | ⟨-, hread⟩ | ⟨hfile, -⟩
    · exact absurd (Option.some.inj (hhost.symm.trans hsame)) hne
    · exact hread
    · exact absurd rfl hfile
  unfold Url.ofText parse at h
  simp only at h
  split at h
  · rename_i scheme rest _
    obtain rfl := scheme_of_ofSchemeRest h
    unfold ofSchemeRest at h
    split at h
    · rename_i hfile
      refine .inl ⟨hfile, ?_⟩
      split at h
      · split at h
        · exact ⟨_, h⟩
        · exact hroot h
      · exact hroot h
    rename_i hfile
    refine .inr ⟨hfile, ?_⟩
    split at h
    · exact ⟨_, h⟩
    split at h
    · exact ⟨_, h⟩
    · -- without two slashes there is no host
      rw [← Except.ok.inj h] at hhost
      cases hhost
    · rw [← Except.ok.inj h] at hhost
      cases hhost
  · cases h

/-- The path of a URL that has a host begins at the root, and nothing in it ends it. -/
theorem exists_rooted_of_ofText {raw : String} (h : Url.ofText raw = .ok u) {host : Host}
    (hhost : u.host = some host) (hne : host ≠ .name "") :
    ∃ segments, u.path = .rooted segments ∧ ∀ t ∈ segments, IsPathText t := by
  rcases exists_authority_of_ofText h hhost hne with ⟨-, s, hs⟩ | ⟨-, s, hs⟩
  · obtain ⟨-, ⟨t, hpath⟩, -⟩ := ofFileAuthority_eq_ok hs
    rw [hpath]
    exact exists_rootedPath_eq_rooted _ t
  · obtain ⟨-, hpath, -⟩ := ofAuthority_eq_ok hs
    rw [hpath]
    exact exists_rootedPath_eq_rooted _ _

/-! ## Web URLs -/

/-- The schemes of web servers. -/
def IsWeb (scheme : String) : Prop :=
  scheme = "http" ∨ scheme = "https"

theorem IsWeb.isSpecial (h : IsWeb scheme) : isSpecial scheme = true := by
  rcases h with rfl | rfl <;> decide

theorem IsWeb.ne_file (h : IsWeb scheme) : scheme ≠ "file" := by
  rcases h with rfl | rfl <;> decide

/-- A URL of a web server, as it is after reading. -/
structure WebUrl (u : Url) (segments : List String) : Prop where
  host : ∃ host, u.host = some host ∧ ∀ c ∈ host.text.toList, IsAuthorityChar c
  path : u.path = .rooted segments
  settled : ∀ s ∈ segments, IsSettled s

/-- A path that is read has settled segments. -/
theorem exists_rootedPath_eq (hscheme : IsWeb scheme) (s : List Char) :
    ∃ segments, rootedPath scheme s = .rooted segments ∧ ∀ t ∈ segments, IsSettled t := by
  unfold rootedPath
  simp only [hscheme.isSpecial, if_true]
  split
  · refine ⟨[""], rfl, fun t ht => ?_⟩
    obtain rfl := List.mem_singleton.mp ht
    exact isSettled_empty
  · refine ⟨_, rfl, isSettled_of_mem_addSegments hscheme.ne_file
      (fun _ hp => not_mem_of_mem_splitPath hp) fun t ht => ?_⟩
    cases ht

/-- **What is read as a URL of a web server has a host and a settled path.** -/
theorem webUrl_of_ofText {raw : String} (h : Url.ofText raw = .ok u) (hscheme : IsWeb u.scheme) :
    ∃ segments, WebUrl u segments := by
  unfold Url.ofText parse at h
  simp only at h
  split at h
  · rename_i scheme rest _
    -- the scheme that is found in the text is the one of the URL, so the authority was read
    obtain rfl := scheme_of_ofSchemeRest h
    rw [ofSchemeRest_of_isSpecial hscheme.isSpecial hscheme.ne_file] at h
    obtain ⟨-, hpath, -, -, ⟨hspecial, -⟩ | ⟨t, host, hread, hhost⟩⟩ := ofAuthority_eq_ok h
    · exact absurd (hscheme.isSpecial.symm.trans hspecial) (by decide)
    obtain ⟨segments, hsegments, hsettled⟩ := exists_rootedPath_eq hscheme
      (pathPart (isSpecial u.scheme) (rest.dropWhile (isSlash true)))
    exact ⟨segments, ⟨host, hhost, (isHostText_of_hostOf hread).isAuthorityChar⟩,
      hpath.trans hsegments, hsettled⟩
  · cases h

/-! ## Reading a URL that is written -/

/-- Nothing is dropped from the front of a text that begins without spaces and controls. -/
theorem cleaned_append {front : List Char} (hne : front ≠ []) (h : ∀ c ∈ front, 0x20 < c.toNat)
    (rest : List Char) :
    cleaned (String.ofList (front ++ rest)) =
      front ++ (rest.reverse.dropWhile isEdge).reverse.filter
        fun c => !(c == '\t' || c == '\n' || c == '\r') := by
  have hedge : ∀ {l : List Char} (more : List Char), l ≠ [] → (∀ c ∈ l, c ∈ front) →
      (l ++ more).dropWhile isEdge = l ++ more := by
    intro l more hl hfront
    rcases l with _ | ⟨c, l⟩
    · exact absurd rfl hl
    · have hc := h c (hfront c List.mem_cons_self)
      exact List.dropWhile_cons_of_neg (by simp only [isEdge, decide_eq_true_eq]; omega)
  have hend : (front ++ rest).reverse.dropWhile isEdge =
      rest.reverse.dropWhile isEdge ++ front.reverse := by
    have hreverse := hedge [] (List.reverse_ne_nil_iff.mpr hne) fun c hc => List.mem_reverse.mp hc
    rw [List.append_nil] at hreverse
    rw [List.reverse_append, List.dropWhile_append, hreverse]
    split
    · rename_i hnil
      rw [List.isEmpty_iff.mp hnil, List.nil_append]
    · rfl
  unfold cleaned
  simp only
  rw [String.toList_ofList, hedge rest hne fun c hc => hc, hend, List.reverse_append,
    List.reverse_reverse, List.filter_append, List.filter_eq_self.mpr]
  -- tabs and line ends are controls
  intro c hc
  have hlt := h c hc
  have hne : ∀ d : Char, d.toNat ≤ 0x20 → (c == d) = false := by
    intro d hd
    refine beq_eq_false_iff_ne.mpr ?_
    rintro rfl
    omega
  rw [hne '\t' (by decide), hne '\n' (by decide), hne '\r' (by decide)]
  rfl

/-- Nothing is dropped from a text without spaces and controls. -/
theorem cleaned_eq {t : String} (h : ∀ c ∈ t.toList, 0x20 < c.toNat) : cleaned t = t.toList := by
  by_cases hne : t.toList = []
  · rw [String.toList_eq_nil_iff.mp hne]
    rfl
  · have hfront := cleaned_append hne h []
    rwa [List.append_nil, String.ofList_toList, List.reverse_nil, List.dropWhile_nil,
      List.reverse_nil, List.filter_nil, List.append_nil] at hfront

theorem IsWeb.space_lt (h : IsWeb scheme) : ∀ c ∈ scheme.toList, 0x20 < c.toNat := by
  have hall : ∀ c ∈ "https".toList, 0x20 < c.toNat := List.all_iff_forall_prop.mp (by decide)
  rcases h with rfl | rfl
  · exact fun c hc => hall c (List.mem_append_left ['s'] hc)
  · exact hall

theorem splitScheme_of_isWeb (h : IsWeb scheme) (rest : List Char) :
    splitScheme (scheme.toList ++ ':' :: rest) = some (scheme, rest) := by
  rcases h with rfl | rfl
  · rfl
  · rfl

/-- A query, with its mark, or nothing. -/
def queryText (query : Option String) : String :=
  match query with
  | some q => "?" ++ q
  | none => ""

theorem forall_mem_queryText {P : Char → Prop} {query : Option String} (hmark : P '?')
    (h : ∀ q, query = some q → ∀ c ∈ q.toList, P c) : ∀ c ∈ (queryText query).toList, P c := by
  intro c hc
  rcases query with _ | q
  · cases hc
  · rw [queryText, String.toList_append] at hc
    rcases List.mem_append.mp hc with hc | hc
    · obtain rfl := List.mem_singleton.mp hc
      exact hmark
    · exact h q rfl c hc

/-- The query is cut off. -/
theorem splitTail_append {s : List Char} {query : Option String}
    (hs : ∀ c ∈ s, c ≠ '?' ∧ c ≠ '#') (hquery : ∀ q, query = some q → ∀ c ∈ q.toList, c ≠ '#') :
    splitTail (s ++ (queryText query).toList) = (s, query.map String.toList, none) := by
  have hhash : ∀ c ∈ s ++ (queryText query).toList, (c != '#') = true := by
    intro c hc
    refine bne_iff_ne.mpr ?_
    rcases List.mem_append.mp hc with hc | hc
    · exact (hs c hc).2
    · exact forall_mem_queryText (P := (· ≠ '#')) (by decide) hquery c hc
  have hmark : ∀ c ∈ s, (c != '?') = true := fun c hc => bne_iff_ne.mpr (hs c hc).1
  have hall : (s ++ (queryText query).toList).takeWhile (· != '#') =
      s ++ (queryText query).toList := by
    rw [← List.append_nil (s ++ (queryText query).toList), List.takeWhile_append_of_pos hhash]
    rfl
  rw [splitTail]
  simp only [hall, List.drop_length, List.takeWhile_append_of_pos hmark]
  rcases query with _ | q
  · simp [queryText]
  · simp [queryText]

/-- No more slashes are dropped than those before the authority. -/
theorem dropWhile_slashes_append {authority : List Char} (hne : authority ≠ [])
    (h : ∀ c ∈ authority, IsAuthorityChar c) (s : List Char) :
    ('/' :: '/' :: (authority ++ s)).dropWhile (isSlash true) = authority ++ s := by
  rcases authority with _ | ⟨a, more⟩
  · exact absurd rfl hne
  · have hchar := h a List.mem_cons_self
    have hstop : ¬ isSlash true a = true := by
      simp [isSlash, hchar.ne_slash, hchar.ne_backslash]
    rw [List.dropWhile_cons_of_pos rfl, List.dropWhile_cons_of_pos rfl, List.cons_append,
      List.dropWhile_cons_of_neg hstop]

/-- Parts that can be put together to the text of a URL of a web server, each of which then ends
where it should. -/
structure Parts (scheme authority path : String) (query : Option String) : Prop where
  scheme : IsWeb scheme
  authority_ne_nil : authority.toList ≠ []
  authority : ∀ c ∈ authority.toList, IsAuthorityChar c
  rooted : ∃ rest, path.toList = '/' :: rest
  path : ∀ c ∈ path.toList, 0x20 < c.toNat ∧ c ≠ '?' ∧ c ≠ '#'
  query : ∀ q, query = some q → ∀ c ∈ q.toList, 0x20 < c.toNat ∧ c ≠ '#'

namespace Parts

variable {authority path : String} {query : Option String}

theorem space_lt (h : Parts scheme authority path query) :
    ∀ c ∈ (scheme ++ "://" ++ authority ++ path ++ queryText query).toList, 0x20 < c.toNat := by
  have hmarks : ∀ c ∈ "://".toList, 0x20 < c.toNat := List.all_iff_forall_prop.mp (by decide)
  intro c hc
  simp only [String.toList_append, List.mem_append] at hc
  rcases hc with (((hc | hc) | hc) | hc) | hc
  · exact h.scheme.space_lt c hc
  · exact hmarks c hc
  · exact (h.authority c hc).space_lt
  · exact (h.path c hc).1
  · exact forall_mem_queryText (P := fun c => 0x20 < c.toNat) (by decide)
      (fun q hq c hc => (h.query q hq c hc).1) c hc

/-- The text is read from the authority on, with the scheme that stands in it. -/
theorem ofText_eq (h : Parts scheme authority path query) :
    Url.ofText (scheme ++ "://" ++ authority ++ path ++ queryText query) =
      ofAuthority scheme (authority.toList ++ path.toList ++ (queryText query).toList) := by
  have hcleaned : cleaned (scheme ++ "://" ++ authority ++ path ++ queryText query) =
      scheme.toList ++ ':' :: '/' :: '/' :: (authority.toList ++
        (path.toList ++ (queryText query).toList)) := by
    rw [cleaned_eq h.space_lt]
    simp
  simp only [Url.ofText, parse, hcleaned, splitScheme_of_isWeb h.scheme]
  rw [ofSchemeRest_of_isSpecial h.scheme.isSpecial h.scheme.ne_file,
    dropWhile_slashes_append h.authority_ne_nil h.authority, List.append_assoc]

/-- Authority and path stand in front of the query. -/
theorem splitTail_eq (h : Parts scheme authority path query) :
    splitTail (authority.toList ++ path.toList ++ (queryText query).toList) =
      (authority.toList ++ path.toList, query.map String.toList, none) := by
  refine splitTail_append (fun c hc => ?_) fun q hq c hc => (h.query q hq c hc).2
  rcases List.mem_append.mp hc with hc | hc
  · exact ⟨(h.authority c hc).ne_question, (h.authority c hc).ne_hash⟩
  · exact (h.path c hc).2

/-- The path begins where the authority ends. -/
theorem pathPart_eq (h : Parts scheme authority path query) :
    pathPart true (authority.toList ++ path.toList ++ (queryText query).toList) =
      path.toList := by
  obtain ⟨rest, hrest⟩ := h.rooted
  have hinside : ∀ c ∈ authority.toList, (!isSlash true c) = true := by
    intro c hc
    simp [isSlash, (h.authority c hc).ne_slash, (h.authority c hc).ne_backslash]
  have hslash : (!isSlash true '/') ≠ true := by decide
  rw [pathPart, h.splitTail_eq, List.takeWhile_append_of_pos hinside, hrest, List.takeWhile_cons,
    if_neg hslash, List.append_nil, List.drop_left]

/-- **The path that is written in a URL of a web server is the one that is read.** -/
theorem path_eq (h : Parts scheme authority path query)
    (hread : Url.ofText (scheme ++ "://" ++ authority ++ path ++ queryText query) = .ok u) :
    u.path = rootedPath scheme path.toList := by
  rw [h.ofText_eq] at hread
  obtain ⟨-, hread, -⟩ := ofAuthority_eq_ok hread
  rw [hread, h.scheme.isSpecial, h.pathPart_eq]

/-- **The query that is written is read**, with what may not stand for itself percent-coded. -/
theorem query_eq (h : Parts scheme authority path query)
    (hread : Url.ofText (scheme ++ "://" ++ authority ++ path ++ queryText query) = .ok u) :
    u.query = query.map (Percent.encodeText (escapedInQuery true)) := by
  rw [h.ofText_eq] at hread
  obtain ⟨-, -, hread, -⟩ := ofAuthority_eq_ok hread
  rw [hread, h.scheme.isSpecial, h.splitTail_eq, Option.map_map]
  refine congrArg (query.map ·) (funext fun q => ?_)
  rw [Function.comp_apply, escapeChars, String.ofList_toList]

end Parts

end TokenKeeper.Url
