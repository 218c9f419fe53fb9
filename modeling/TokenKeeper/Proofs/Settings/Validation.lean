import Mathlib.Data.List.Basic
import TokenKeeper.Proxy.Backend
import TokenKeeper.Settings.Basic

/-!
# Which flags make sense

`Settings.ofFlags` accepts exactly the flags that make sense (`Flags.MakesSense`), whatever of them
is blank, empty or missing, and every refusal is about the configuration. Settings that were made of
flags hold what the flags give and nothing where they give nothing (`Settings.Follows`), and the URL
of their backend is one that a backend can be made of.
-/

namespace TokenKeeper

namespace Flags

/-- Whether a flag that may be missing gives a text: one that is not blank. -/
def Gives (value : Option String) (raw : String) : Prop :=
  value = some raw ∧ isBlankText raw = false

/-- Whether a path is given: one that is not empty. -/
def GivesPath (value : Option String) (path : String) : Prop :=
  value = some path ∧ path ≠ ""

/-- Whether one of the two flags for it gives a text as the URL of the backend. -/
def NamesBackend (f : Flags) (raw : String) : Prop :=
  Gives f.url raw ∨ Gives f.backendUrl raw

/-- Whether both flags give a URL for the backend. -/
def NamesBackendTwice (f : Flags) : Prop :=
  (∃ raw, Gives f.url raw) ∧ ∃ raw, Gives f.backendUrl raw

/-- Flags to which there are settings. -/
structure MakesSense (f : Flags) : Prop where
  once : ¬ f.NamesBackendTwice
  backend : ∀ raw, f.NamesBackend raw → ∃ url, Url.ofText raw = .ok url ∧ url.hostText?.isSome
  target : (∃ path, GivesPath f.file path) ∨ ∃ raw, f.NamesBackend raw
  issuer : isBlankText f.issuerUrl = false

end Flags

open Flags

/-- Whether an optional value is a given one, except that it is missing under a condition. -/
structure IsUnless {α : Type} (kept : Option α) (given : α) (missing : Prop) : Prop where
  none_iff : kept = none ↔ missing
  eq_given : ∀ a ∈ kept, a = given

/-- Whether settings say about a backend what the flags say. -/
structure BackendSettings.Follows (b : BackendSettings) (f : Flags) : Prop where
  url : ∃ raw, f.NamesBackend raw ∧ Url.ofText raw = .ok b.url
  accepted : ∃ backend, Backend.ofUrl b.url = .ok backend
  authority : ∀ path, b.authorityFile = some path ↔ GivesPath f.authorityFile path
  readTimeout : IsUnless b.readTimeout f.readTimeout (f.readTimeout.nanos = 0)
  writeTimeout : IsUnless b.writeTimeout f.writeTimeout (f.writeTimeout.nanos = 0)

/-- Whether a token file is where the flags say: without a path for staging that is the path with
`.tmp` behind. -/
structure TokenFile.Follows (file : TokenFile) (f : Flags) : Prop where
  path : GivesPath f.file file.path
  staging : GivesPath f.stagingFile file.stagingPath ∨
    (∀ path, ¬ GivesPath f.stagingFile path) ∧ file.stagingPath = file.path ++ ".tmp"

/-- Whether settings say what the flags say, where flags can be left out. -/
structure Settings.Follows (s : Settings) (f : Flags) : Prop where
  target : s.file.isSome ∨ s.backend.isSome
  file_iff : s.file.isSome ↔ ∃ path, GivesPath f.file path
  file : ∀ file ∈ s.file, file.Follows f
  backend_iff : s.backend.isSome ↔ ∃ raw, f.NamesBackend raw
  backend : ∀ b ∈ s.backend, b.Follows f
  audience : IsUnless s.account.audience f.audience (isBlankText f.audience)
  username : IsUnless s.account.username f.username (isBlankText f.username)
  password : IsUnless s.account.password f.password (isBlankText f.password)

namespace Settings

variable {f : Flags} {value : Option String} {raw : String}

/-! ## Values that count as not given -/

theorem unlessBlank_eq_some_iff : unlessBlank value = some raw ↔ Gives value raw := by
  rw [unlessBlank, Option.filter_eq_some_iff, Bool.not_eq_true', Gives]

theorem unlessEmpty_eq_some_iff : unlessEmpty value = some raw ↔ GivesPath value raw := by
  rw [unlessEmpty, Option.filter_eq_some_iff, decide_eq_true_iff, GivesPath]

theorem unlessEmpty_eq_none_iff : unlessEmpty value = none ↔ ∀ path, ¬ GivesPath value path := by
  rw [Option.eq_none_iff_forall_ne_some]
  exact forall_congr' fun raw => not_congr unlessEmpty_eq_some_iff

theorem isUnless_ite {α : Type} (given : α) (missing : Prop) [Decidable missing] :
    IsUnless (if missing then none else some given) given missing := by
  split
  · rename_i hmissing
    refine ⟨⟨fun _ => hmissing, fun _ => rfl⟩, fun a ha => ?_⟩
    cases ha
  · rename_i hgiven
    refine ⟨⟨fun h => ?_, fun h => absurd h hgiven⟩, fun a ha => ?_⟩
    · cases h
    · exact (Option.some.inj ha).symm

theorem unlessBlank_some (text : String) :
    unlessBlank (some text) = if isBlankText text then none else some text := by
  rw [unlessBlank, Option.filter_some]
  cases isBlankText text <;> rfl

theorem isUnless_unlessBlank (text : String) :
    IsUnless (unlessBlank (some text)) text (isBlankText text) := by
  rw [unlessBlank_some]
  exact isUnless_ite text _

theorem isUnless_unlessZero (d : Span) : IsUnless (unlessZero d) d (d.nanos = 0) :=
  isUnless_ite d _

/-! ## The backend -/

/-- The URL of a backend is one that can be read and has a host. -/
theorem backendUrl_eq_ok_iff {url : Url} :
    backendUrl raw = .ok url ↔ Url.ofText raw = .ok url ∧ url.hostText?.isSome := by
  rw [backendUrl]
  rcases Url.ofText raw with fault | url'
  · exact ⟨nofun, nofun⟩
  · dsimp only
    split
    · rename_i hnone
      refine ⟨nofun, ?_⟩
      rintro ⟨heq, hsome⟩
      cases heq
      rw [Option.isNone_iff_eq_none.mp hnone] at hsome
      cases hsome
    · rename_i hsome
      rw [Bool.not_eq_true, Option.isNone_eq_false_iff] at hsome
      refine ⟨fun heq => ?_, ?_⟩
      · cases heq
        exact ⟨rfl, hsome⟩
      · rintro ⟨heq, -⟩
        cases heq
        rfl

theorem backendUrl_eq_error {e : Error} (h : backendUrl raw = .error e) :
    ∃ fault, e = .config fault := by
  rw [backendUrl] at h
  split at h
  · cases h
    exact ⟨_, rfl⟩
  · split at h
    · cases h
      exact ⟨_, rfl⟩
    · cases h

theorem namesBackend_iff :
    f.NamesBackend raw ↔ unlessBlank f.url = some raw ∨ unlessBlank f.backendUrl = some raw := by
  rw [NamesBackend, unlessBlank_eq_some_iff, unlessBlank_eq_some_iff]

theorem namesBackendTwice_iff :
    f.NamesBackendTwice ↔
      (∃ raw, unlessBlank f.url = some raw) ∧ ∃ raw, unlessBlank f.backendUrl = some raw := by
  simp only [NamesBackendTwice, unlessBlank_eq_some_iff]

/-- What the flags can come to for the backend: two URLs, none or one. -/
theorem backendOfFlags_cases (f : Flags) :
    (f.NamesBackendTwice ∧ backendOfFlags f = .error (.config .twoBackends)) ∨
    ((∀ raw, ¬ f.NamesBackend raw) ∧ backendOfFlags f = .ok none) ∨
    ∃ raw, ¬ f.NamesBackendTwice ∧ (∀ raw', f.NamesBackend raw' ↔ raw' = raw) ∧
      backendOfFlags f = (backendUrl raw).map fun url =>
        some {
          url
          authorityFile := unlessEmpty f.authorityFile
          readTimeout := unlessZero f.readTimeout
          writeTimeout := unlessZero f.writeTimeout } := by
  simp only [namesBackend_iff, namesBackendTwice_iff]
  rw [backendOfFlags]
  rcases unlessBlank f.url with - | raw <;> rcases unlessBlank f.backendUrl with - | raw'
  case none.none =>
    refine .inr (.inl ⟨?_, rfl⟩)
    rintro raw (h | h) <;> cases h
  case none.some =>
    refine .inr (.inr ⟨raw', ?_, fun raw => ⟨?_, fun h => .inr (congrArg some h.symm)⟩, ?_⟩)
    · rintro ⟨⟨_, h⟩, -⟩
      cases h
    · rintro (h | h) <;> cases h
      rfl
    · rcases h : backendUrl raw' with e | url <;> simp only [h] <;> rfl
  case some.none =>
    refine .inr (.inr ⟨raw, ?_, fun raw' => ⟨?_, fun h => .inl (congrArg some h.symm)⟩, ?_⟩)
    · rintro ⟨-, _, h⟩
      cases h
    · rintro (h | h) <;> cases h
      rfl
    · rcases h : backendUrl raw with e | url <;> simp only [h] <;> rfl
  case some.some => exact .inl ⟨⟨⟨raw, rfl⟩, raw', rfl⟩, rfl⟩

/-- Every refusal of a backend is about the configuration. -/
theorem backendOfFlags_eq_error {e : Error} (h : backendOfFlags f = .error e) :
    ∃ fault, e = .config fault := by
  rcases backendOfFlags_cases f with ⟨-, heq⟩ | ⟨-, heq⟩ | ⟨raw, -, -, heq⟩ <;> rw [heq] at h
  · cases h
    exact ⟨_, rfl⟩
  · cases h
  · rcases hurl : backendUrl raw with e' | url <;> rw [hurl] at h <;> cases h
    exact backendUrl_eq_error hurl

/-- **When the flags can be followed for the backend**: if they do not name two, and the one that
they name has a URL with a host. -/
theorem exists_backendOfFlags_iff :
    (∃ b, backendOfFlags f = .ok b) ↔ ¬ f.NamesBackendTwice ∧
      ∀ raw, f.NamesBackend raw → ∃ url, Url.ofText raw = .ok url ∧ url.hostText?.isSome := by
  rcases backendOfFlags_cases f with ⟨htwice, heq⟩ | ⟨hnone, heq⟩ | ⟨raw, honce, hraw, heq⟩ <;>
    rw [heq]
  · refine ⟨?_, fun h => absurd htwice h.1⟩
    rintro ⟨b, h⟩
    cases h
  · refine ⟨fun _ => ⟨?_, fun raw h => absurd h (hnone raw)⟩, fun _ => ⟨none, rfl⟩⟩
    rintro ⟨⟨raw, hraw⟩, -⟩
    exact hnone raw (.inl hraw)
  · simp only [hraw, forall_eq, ← backendUrl_eq_ok_iff]
    rcases backendUrl raw with e | url
    · constructor
      · rintro ⟨b, h⟩
        cases h
      · rintro ⟨-, url, h⟩
        cases h
    · exact ⟨fun _ => ⟨honce, url, rfl⟩, fun _ => ⟨_, rfl⟩⟩

/-- **What the settings say about the backend follows the flags.** -/
theorem backend_of_backendOfFlags {backend : Option BackendSettings}
    (h : backendOfFlags f = .ok backend) :
    (backend.isSome ↔ ∃ raw, f.NamesBackend raw) ∧ ∀ b ∈ backend, b.Follows f := by
  rcases backendOfFlags_cases f with ⟨-, heq⟩ | ⟨hnone, heq⟩ | ⟨raw, -, hraw, heq⟩ <;> rw [heq] at h
  · cases h
  · cases h
    refine ⟨⟨fun h => ?_, ?_⟩, fun b hb => ?_⟩
    · cases h
    · rintro ⟨raw, hraw⟩
      exact absurd hraw (hnone raw)
    · cases hb
  · rcases hurl : backendUrl raw with e | url <;> rw [hurl] at h <;> cases h
    obtain ⟨hread, hhost⟩ := backendUrl_eq_ok_iff.mp hurl
    obtain ⟨host, hhost⟩ := Option.isSome_iff_exists.mp hhost
    have hnamed : f.NamesBackend raw := (hraw raw).mpr rfl
    refine ⟨⟨fun _ => ⟨raw, hnamed⟩, fun _ => rfl⟩, fun b hb => ?_⟩
    cases hb
    exact
      { url := ⟨raw, hnamed, hread⟩
        accepted := ⟨_, by rw [Backend.ofUrl, hhost]⟩
        authority := fun path => unlessEmpty_eq_some_iff
        readTimeout := isUnless_unlessZero f.readTimeout
        writeTimeout := isUnless_unlessZero f.writeTimeout }

/-! ## The token file -/

/-- What the settings say about the token file follows the flags. -/
theorem file_of_fileOfFlags (f : Flags) :
    ((fileOfFlags f).isSome ↔ ∃ path, GivesPath f.file path) ∧
      ∀ file ∈ fileOfFlags f, file.Follows f := by
  rw [fileOfFlags]
  refine ⟨?_, fun file hfile => ?_⟩
  · rw [Option.isSome_map, Option.isSome_iff_exists]
    exact exists_congr fun path => unlessEmpty_eq_some_iff
  · obtain ⟨path, hpath, rfl⟩ := Option.map_eq_some_iff.mp hfile
    refine ⟨unlessEmpty_eq_some_iff.mp hpath, ?_⟩
    rcases hstaging : unlessEmpty f.stagingFile with - | staging
    · exact .inr ⟨unlessEmpty_eq_none_iff.mp hstaging, rfl⟩
    · exact .inl (unlessEmpty_eq_some_iff.mp hstaging)

/-! ## All flags -/

/-- What checking flags can come to, in the order of the checks. -/
theorem ofFlags_cases (f : Flags) :
    (∃ e, backendOfFlags f = .error e ∧ ofFlags f = .error e) ∨
    (fileOfFlags f = none ∧ backendOfFlags f = .ok none ∧ ofFlags f = .error (.config .noTarget)) ∨
    ∃ backend, backendOfFlags f = .ok backend ∧ ((fileOfFlags f).isSome ∨ backend.isSome) ∧
      ((isBlankText f.issuerUrl = true ∧ ofFlags f = .error (.config .noIssuer)) ∨
        isBlankText f.issuerUrl = false ∧ ∃ s, ofFlags f = .ok s ∧ s.file = fileOfFlags f ∧
          s.backend = backend ∧ s.account = accountOfFlags f ∧
            s.scopes = splitScopes f.scopes) := by
  rw [ofFlags]
  rcases hbackend : backendOfFlags f with e | backend
  · exact .inl ⟨e, rfl, rfl⟩
  · rcases hfile : fileOfFlags f with - | file <;> rcases backend with - | b
    case ok.none.none => exact .inr (.inl ⟨rfl, rfl, rfl⟩)
    all_goals
      refine .inr (.inr ⟨_, rfl, by simp, ?_⟩)
      rcases hissuer : isBlankText f.issuerUrl with - | -
      · exact .inr ⟨rfl, _, rfl, rfl, rfl, rfl, rfl⟩
      · exact .inl ⟨rfl, rfl⟩

/-- What is known of flags that were accepted. -/
theorem of_ofFlags_eq_ok {s : Settings} (h : ofFlags f = .ok s) :
    backendOfFlags f = .ok s.backend ∧ s.file = fileOfFlags f ∧ s.account = accountOfFlags f ∧
      (s.file.isSome ∨ s.backend.isSome) ∧ isBlankText f.issuerUrl = false ∧
      s.scopes = splitScopes f.scopes := by
  rcases ofFlags_cases f with ⟨e, -, he⟩ | ⟨-, -, he⟩ |
    ⟨b, hb, htarget, ⟨-, he⟩ | ⟨hissuer, s', hs, hfile, hbackend, haccount, hscopes⟩⟩
  · cases h.symm.trans he
  · cases h.symm.trans he
  · cases h.symm.trans he
  · cases h.symm.trans hs
    subst hbackend
    rw [← hfile] at htarget
    exact ⟨hb, hfile, haccount, htarget, hissuer, hscopes⟩

/-- Flags are accepted exactly if they make sense. -/
theorem exists_ofFlags_iff : (∃ s, ofFlags f = .ok s) ↔ f.MakesSense := by
  obtain ⟨hfileIff, -⟩ := file_of_fileOfFlags f
  constructor
  · rintro ⟨s, hs⟩
    obtain ⟨hbackend, hfile, -, htarget, hissuer, -⟩ := of_ofFlags_eq_ok hs
    obtain ⟨honce, hread⟩ := exists_backendOfFlags_iff.mp ⟨_, hbackend⟩
    obtain ⟨hbackendIff, -⟩ := backend_of_backendOfFlags hbackend
    rw [hfile] at htarget
    exact ⟨honce, hread, htarget.imp hfileIff.mp hbackendIff.mp, hissuer⟩
  · rintro ⟨honce, hread, htarget, hissuer⟩
    obtain ⟨b, hb⟩ := exists_backendOfFlags_iff.mpr ⟨honce, hread⟩
    obtain ⟨hbackendIff, -⟩ := backend_of_backendOfFlags hb
    rcases ofFlags_cases f with
      ⟨e, he, -⟩ | ⟨hnofile, hnone, -⟩ | ⟨-, -, -, ⟨hblank, -⟩ | ⟨-, s, hs, -⟩⟩
    · cases hb.symm.trans he
    · cases hb.symm.trans hnone
      rcases htarget with hpath | hraw
      · rw [← hfileIff, hnofile] at hpath
        cases hpath
      · cases hbackendIff.mpr hraw
    · cases hblank.symm.trans hissuer
    · exact ⟨s, hs⟩

/-- Settings follow the flags that they were made of. -/
theorem follows_of_ofFlags {s : Settings} (h : ofFlags f = .ok s) : s.Follows f := by
  obtain ⟨hbackend, hfile, haccount, htarget, -⟩ := of_ofFlags_eq_ok h
  obtain ⟨hfileIff, hfileFollows⟩ := file_of_fileOfFlags f
  obtain ⟨hbackendIff, hbackendFollows⟩ := backend_of_backendOfFlags hbackend
  rw [← hfile] at hfileIff hfileFollows
  exact
    { target := htarget
      file_iff := hfileIff
      file := hfileFollows
      backend_iff := hbackendIff
      backend := hbackendFollows
      audience := by rw [haccount]; exact isUnless_unlessBlank f.audience
      username := by rw [haccount]; exact isUnless_unlessBlank f.username
      password := by rw [haccount]; exact isUnless_unlessBlank f.password }

/-- **Which flags make sense.** Flags are accepted exactly if they do not name two backends, the URL
that they name can be read and has a host, a path for the token file or the URL of a backend is
given, and the issuer's URL is not blank. Every refusal is about the configuration. Settings that
come of flags have a token file or a backend, and say what the flags say: the backend is there
exactly if a URL was named, and a backend can be made of its URL; the staging path is the given one,
or the path with `.tmp` behind; times are missing exactly if they are zero; audience, user name and
password are missing exactly if they are blank. -/
theorem flags_accepted_iff_make_sense (f : Flags) :
    ((∃ s, ofFlags f = .ok s) ↔ f.MakesSense) ∧
    (∀ e, ofFlags f = .error e → ∃ fault, e = .config fault) ∧
    ∀ s, ofFlags f = .ok s → s.Follows f := by
  refine ⟨exists_ofFlags_iff, fun e h => ?_, fun s h => follows_of_ofFlags h⟩
  rcases ofFlags_cases f with
    ⟨e', hbackend, he⟩ | ⟨-, -, he⟩ | ⟨-, -, -, ⟨-, he⟩ | ⟨-, s, hs, -⟩⟩
  · cases h.symm.trans he
    exact backendOfFlags_eq_error hbackend
  · cases h.symm.trans he
    exact ⟨_, rfl⟩
  · cases h.symm.trans he
    exact ⟨_, rfl⟩
  · cases h.symm.trans hs

/-- A blank URL beside that of the backend is no second one; one with a host is. -/
theorem blank_url_is_not_given :
    let flags : Flags :=
      { issuerUrl := "https://issuer.example", backendUrl := some "http://backend.example" }
    let blank := { flags with url := some " " }
    let double := { flags with url := some "http://other.example" }
    (∃ s, ofFlags blank = .ok s ∧ s.Follows blank ∧ s.backend.isSome) ∧
      ∃ e fault, ofFlags double = .error e ∧ e = .config fault := by
  intro flags blank double
  have hnamed : blank.NamesBackend "http://backend.example" := .inr ⟨rfl, by decide⟩
  have hnoUrl : ∀ raw, ¬ Gives blank.url raw := by
    rintro raw ⟨heq, hblank⟩
    cases heq
    exact absurd hblank (by decide)
  have hurl : Url.ofText "http://backend.example" =
      .ok { scheme := "http", host := some (.name "backend.example"), path := .rooted [""] } := by
    decide +kernel
  have hblank : blank.MakesSense := by
    refine ⟨?_, ?_, .inr ⟨_, hnamed⟩, by decide⟩
    · rintro ⟨⟨raw, hraw⟩, -⟩
      exact hnoUrl raw hraw
    · rintro raw (hraw | ⟨heq, -⟩)
      · exact absurd hraw (hnoUrl raw)
      · cases heq
        exact ⟨_, hurl, rfl⟩
  obtain ⟨hiff, -, hfollows⟩ := flags_accepted_iff_make_sense blank
  obtain ⟨s, hs⟩ := hiff.mpr hblank
  refine ⟨⟨s, hs, hfollows s hs, (hfollows s hs).backend_iff.mpr ⟨_, hnamed⟩⟩, ?_⟩
  have hdouble : ofFlags double = .error (.config .twoBackends) := rfl
  obtain ⟨fault, hfault⟩ := (flags_accepted_iff_make_sense double).2.1 _ hdouble
  exact ⟨_, fault, hdouble, hfault⟩

end Settings

end TokenKeeper
