import TokenKeeper.Proofs.Settings.Validation
import TokenKeeper.Proofs.Text.Pieces

/-!
# The grant that flags lead to

Four flags say on what ground the program asks for tokens, and any of them may be missing, empty or
made of blanks and separators. Whatever they are, the form of the request names the type of the
grant first and then has one set of parameters at most: a name and a password if both are given, or
else scopes, or else an audience (`grant_form_of_flags`). No value in it is blank.

What the flags say is told without the choice that is made from it: `GivesPassword`, `GivesScope`
and `GivesAudience` are about the texts of the flags alone. For scopes that takes a look at how
texts are split into words and joined again: what comes of it has the words of the flags in their
order, and none exactly if the flags hold nothing but separators (`splitScopes_eq_nil_iff`).
-/

namespace TokenKeeper

namespace Flags

/-- Whether a name and a password are given. -/
structure GivesPassword (f : Flags) : Prop where
  username : isBlankText f.username = false
  password : isBlankText f.password = false

/-- Whether a scope is given: something that is no separator. -/
def GivesScope (f : Flags) : Prop :=
  ∃ raw ∈ f.scopes, ∃ c ∈ raw.toList, Settings.isSeparator c = false

/-- Whether an audience is given. -/
def GivesAudience (f : Flags) : Prop :=
  isBlankText f.audience = false

/-- Whether the form of a request asks for a token as the flags say. Behind the type of the grant
stand the parameters of one kind, or none. -/
structure AskedBy (f : Flags) (form : List (String × String)) : Prop where
  password_type : f.GivesPassword → form.head? = some ("grant_type", "password")
  other_type : ¬ f.GivesPassword → form.head? = some ("grant_type", "client_credentials")
  nodup : (form.map Prod.fst).Nodup
  not_blank : ∀ pair ∈ form, isBlankText pair.2 = false
  password_iff :
    form.tail = [("username", f.username), ("password", f.password)] ↔ f.GivesPassword
  scope_iff : (∃ scope, form.tail = [("scope", scope)]) ↔ ¬ f.GivesPassword ∧ f.GivesScope
  /-- Whoever splits the scope again finds the scopes of the flags. -/
  scope : ∀ scope, form.tail = [("scope", scope)] →
    Settings.splitScopes [scope] = Settings.splitScopes f.scopes
  audience_iff : form.tail = [("audience", f.audience)] ↔
    ¬ f.GivesPassword ∧ ¬ f.GivesScope ∧ f.GivesAudience
  nothing_iff : form.tail = [] ↔ ¬ f.GivesPassword ∧ ¬ f.GivesScope ∧ ¬ f.GivesAudience

end Flags

open Flags

namespace Settings

variable {f : Flags} {raw : List String}

/-! ## Scopes -/

/-- The words in a text, between separators. -/
def words (s : List Char) : List (List Char) :=
  (s.splitOnP isSeparator).filter (· ≠ [])

theorem splitScopes_eq (raw : List String) :
    splitScopes raw = raw.flatMap fun s => (words s.toList).map String.ofList := rfl

/-- A word is not empty and has no separator in it. -/
theorem of_mem_words {s word : List Char} (h : word ∈ words s) :
    word ≠ [] ∧ ∀ c ∈ word, isSeparator c = false := by
  obtain ⟨hpiece, hne⟩ := List.mem_filter.mp h
  exact ⟨of_decide_eq_true hne, fun c hc => Pieces.not_of_mem_splitOnP hpiece hc⟩

/-- There are no words in a text exactly if it is made of separators. -/
theorem words_eq_nil_iff {s : List Char} : words s = [] ↔ ∀ c ∈ s, isSeparator c = true := by
  have hflatten := Pieces.flatten_splitOnP isSeparator s
  have hempty : words s = [] ↔ (s.splitOnP isSeparator).flatten = [] := by
    rw [words, List.filter_eq_nil_iff, List.flatten_eq_nil_iff]
    simp
  rw [hempty, hflatten, List.filter_eq_nil_iff]
  simp

/-- Words that were put together with a separator between them are found again. -/
theorem words_intercalate {ws : List (List Char)} {x : Char} (hx : isSeparator x = true)
    (h : ∀ word ∈ ws, word ≠ [] ∧ ∀ c ∈ word, isSeparator c = false) :
    words ([x].intercalate ws) = ws := by
  rcases eq_or_ne ws [] with rfl | hne
  · rw [List.intercalate_nil, words, List.splitOnP_nil]
    rfl
  · rw [words, Pieces.splitOnP_intercalate hx (fun word hword => (h word hword).2) hne,
      List.filter_eq_self.mpr fun word hword => decide_eq_true (h word hword).1]

theorem of_mem_splitScopes {scope : String} (h : scope ∈ splitScopes raw) :
    scope.toList ≠ [] ∧ ∀ c ∈ scope.toList, isSeparator c = false := by
  rw [splitScopes_eq] at h
  obtain ⟨s, -, hscope⟩ := List.mem_flatMap.mp h
  obtain ⟨word, hword, rfl⟩ := List.mem_map.mp hscope
  rw [String.toList_ofList]
  exact of_mem_words hword

/-- There are no scopes exactly if all that is given are separators. -/
theorem splitScopes_eq_nil_iff :
    splitScopes raw = [] ↔ ∀ s ∈ raw, ∀ c ∈ s.toList, isSeparator c = true := by
  simp only [splitScopes_eq, List.flatMap_eq_nil_iff, List.map_eq_nil_iff, words_eq_nil_iff]

theorem givesScope_iff : f.GivesScope ↔ splitScopes f.scopes ≠ [] := by
  rw [GivesScope, Ne, splitScopes_eq_nil_iff]
  push Not
  simp only [Bool.not_eq_true]

/-- The text of several scopes. -/
theorem toList_joined (scopes : List String) :
    (" ".intercalate scopes).toList = [' '].intercalate (scopes.map String.toList) := by
  rw [String.toList_intercalate]
  rfl

/-- Scopes that are joined are split again. -/
theorem splitScopes_joined (raw : List String) :
    splitScopes [" ".intercalate (splitScopes raw)] = splitScopes raw := by
  have hwords : ∀ word ∈ (splitScopes raw).map String.toList,
      word ≠ [] ∧ ∀ c ∈ word, isSeparator c = false := by
    intro word hword
    obtain ⟨scope, hscope, rfl⟩ := List.mem_map.mp hword
    exact of_mem_splitScopes hscope
  rw [splitScopes_eq [_], List.flatMap_singleton, toList_joined,
    words_intercalate (by decide) hwords, List.map_map]
  simp

/-- Scopes that are joined are not blank. -/
theorem isBlankText_joined (h : splitScopes raw ≠ []) :
    isBlankText (" ".intercalate (splitScopes raw)) = false := by
  obtain ⟨scope, hscope⟩ := List.exists_mem_of_ne_nil _ h
  obtain ⟨hne, hletters⟩ := of_mem_splitScopes hscope
  obtain ⟨c, hc⟩ := List.exists_mem_of_ne_nil _ hne
  have hletter : isBlank c = false := (Bool.or_eq_false_iff.mp (hletters c hc)).2
  have hmem : c ∈ (" ".intercalate (splitScopes raw)).toList := by
    rw [toList_joined]
    exact Pieces.mem_intercalate_of_mem (List.mem_map_of_mem hscope) hc
  rw [isBlankText, List.all_eq_false]
  exact ⟨c, hmem, by simp [hletter]⟩

/-! ## The choice -/

/-- The grant that flags choose. -/
def grantOfFlags (f : Flags) : Grant :=
  Grant.select (accountOfFlags f) (splitScopes f.scopes)

/-- **The cases of the choice**, in their order. -/
theorem grantOfFlags_cases (f : Flags) :
    (f.GivesPassword ∧ grantOfFlags f = .password f.username f.password) ∨
    (¬ f.GivesPassword ∧ f.GivesScope ∧
      grantOfFlags f = .scope (" ".intercalate (splitScopes f.scopes))) ∨
    (¬ f.GivesPassword ∧ ¬ f.GivesScope ∧ f.GivesAudience ∧
      grantOfFlags f = .audience f.audience) ∨
    (¬ f.GivesPassword ∧ ¬ f.GivesScope ∧ ¬ f.GivesAudience ∧
      grantOfFlags f = .clientCredentials) := by
  rw [givesScope_iff, grantOfFlags, Grant.select, accountOfFlags, GivesAudience]
  simp only [unlessBlank_some]
  -- a name without a password counts as little as a password without a name
  have hpassword : f.GivesPassword ↔
      isBlankText f.username = false ∧ isBlankText f.password = false :=
    ⟨fun h => ⟨h.username, h.password⟩, fun h => ⟨h.1, h.2⟩⟩
  rw [hpassword]
  rcases isBlankText f.username with - | - <;> rcases isBlankText f.password with - | -
  case false.false => exact .inl ⟨⟨rfl, rfl⟩, rfl⟩
  all_goals
    refine .inr ?_
    by_cases hscopes : splitScopes f.scopes = []
    · refine .inr ?_
      rcases isBlankText f.audience with - | -
      · exact .inl ⟨by simp, not_not.mpr hscopes, rfl, by simp [hscopes]⟩
      · exact .inr ⟨by simp, not_not.mpr hscopes, by simp, by simp [hscopes]⟩
    · exact .inl ⟨by simp, hscopes, by simp [hscopes]⟩

/-- The form of the grant that is chosen asks for what the flags say. -/
theorem askedBy_form (f : Flags) : f.AskedBy (grantOfFlags f).form := by
  have htype : ∀ type ∈ ["password", "client_credentials"], isBlankText type = false := by
    decide
  rcases grantOfFlags_cases f with ⟨hgiven, hgrant⟩ | ⟨hnone, hscope, hgrant⟩ |
    ⟨hnone, hnoScope, haudience, hgrant⟩ | ⟨hnone, hnoScope, hnoAudience, hgrant⟩ <;>
    rw [hgrant, Grant.form]
  · have hblank := htype "password" (by decide)
    constructor <;> simp [hgiven, hblank, hgiven.username, hgiven.password]
  · have hblank := htype "client_credentials" (by decide)
    have hjoined := isBlankText_joined (givesScope_iff.mp hscope)
    constructor <;> simp [hnone, hscope, hblank, hjoined, splitScopes_joined]
  · have hblank := htype "client_credentials" (by decide)
    have hvalue : isBlankText f.audience = false := haudience
    constructor <;> simp [hnone, hnoScope, haudience, hblank, hvalue]
  · have hblank := htype "client_credentials" (by decide)
    constructor <;> simp [hnone, hnoScope, hnoAudience, hblank]

/-- **The grant that flags lead to.** Take flags that were accepted, whatever is given, missing or
blank in them. The form of the grant that the settings choose starts with the type of the grant, no
key occurs twice and no value is blank. Behind the type stand

* the name and the password, exactly if the flags give both, and then the type is `password`, as it
  never is otherwise;
* else the scopes of the flags, exactly if something in them is no separator;
* else the audience, exactly if it is not blank;
* else nothing. -/
theorem grant_form_of_flags {f : Flags} {s : Settings} (h : ofFlags f = .ok s) :
    f.AskedBy (Grant.select s.account s.scopes).form := by
  obtain ⟨-, -, haccount, -, -, hscopes⟩ := of_ofFlags_eq_ok h
  rw [haccount, hscopes]
  exact askedBy_form f

/-- A password without a name is none, and separators alone make no scope: what is asked for are
the two scopes that stand among them, and not the audience. -/
theorem password_without_name_is_none :
    let f : Flags :=
      { issuerUrl := "https://issuer.example", file := some "token", username := " \t",
        password := "secret", scopes := [", ,", "", "a,,  b "], audience := "metrics" }
    ∃ s, ofFlags f = .ok s ∧ f.AskedBy (Grant.select s.account s.scopes).form ∧
      (Grant.select s.account s.scopes).form =
        [("grant_type", "client_credentials"), ("scope", "a b")] := by
  intro f
  have hflags : ofFlags f =
      .ok
        { account := accountOfFlags f, scopes := ["a", "b"], margin := .seconds 300
          file := some ⟨"token", "token.tmp"⟩, backend := none
          listen := "0.0.0.0:8080", listenInternal := "0.0.0.0:8081"
          logLevel := .info, logFormat := .logfmt, name := "token-refresher" } := by
    decide +kernel
  exact ⟨_, hflags, grant_form_of_flags hflags, by decide +kernel⟩

end Settings

end TokenKeeper
