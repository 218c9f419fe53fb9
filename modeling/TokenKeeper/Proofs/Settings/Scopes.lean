import TokenKeeper.Proofs.Settings.GrantShape

/-!
# Scopes as they are split

Scopes may be given one by one or many in a text, with commas or blanks between them, in any number
and at any place. What comes of them are the words of the texts in their order, whatever way they
are spread over texts, and the text in which they are sent has these words again
(`scopes_are_words`).

Which words a text has is told without splitting it (`HasWords`): it is read from its front, where
either a separator goes or a word that nothing but a separator ends. Splitting finds the words that a
text has and no others (`hasWords_iff`), and it may be done piece by piece wherever a separator
stands (`words_append_separator`).
-/

namespace TokenKeeper.Settings

/-! ## The words of a text -/

/-- The words of a text in their order: the longest runs of characters that are no separators. -/
inductive HasWords : List Char → List (List Char) → Prop where
  /-- Nothing has no words. -/
  | nil : HasWords [] []
  /-- A separator is part of none. -/
  | separator {c : Char} {s : List Char} {ws : List (List Char)} (hc : isSeparator c = true)
      (rest : HasWords s ws) : HasWords (c :: s) ws
  /-- A word goes on to the next separator or to the end. -/
  | word {w s : List Char} {ws : List (List Char)} (hne : w ≠ [])
      (hw : ∀ c ∈ w, isSeparator c = false) (hend : ∀ c ∈ s.head?, isSeparator c = true)
      (rest : HasWords s ws) : HasWords (w ++ s) (w :: ws)

variable {s w : List Char} {ws : List (List Char)} {c : Char}

/-- **A text can be split at any separator**, and what is on both sides be split by itself. -/
theorem words_append_separator (hc : isSeparator c = true) (x y : List Char) :
    words (x ++ c :: y) = words x ++ words y := by
  rw [words, List.splitOnP_append_cons x y hc, List.filter_append, words, words]

theorem words_nil : words [] = [] :=
  words_eq_nil_iff.mpr fun _ h => nomatch h

theorem words_cons_separator (hc : isSeparator c = true) (s : List Char) :
    words (c :: s) = words s := by
  have hcut := words_append_separator hc [] s
  rwa [List.nil_append, words_nil, List.nil_append] at hcut

/-- A word is the only one that it has. -/
theorem words_word (hne : w ≠ []) (hw : ∀ c ∈ w, isSeparator c = false) : words w = [w] := by
  rw [words, List.splitOnP_eq_singleton hw,
    List.filter_eq_self.mpr fun v hv => decide_eq_true (List.mem_singleton.mp hv ▸ hne)]

theorem words_word_append (hne : w ≠ []) (hw : ∀ c ∈ w, isSeparator c = false)
    (hend : ∀ c ∈ s.head?, isSeparator c = true) : words (w ++ s) = w :: words s := by
  cases s with
  | nil => rw [List.append_nil, words_word hne hw, words_nil]
  | cons c s =>
    have hc : isSeparator c = true := hend c rfl
    rw [words_append_separator hc, words_word hne hw, words_cons_separator hc,
      List.singleton_append]

/-- A text goes on without separators up to one, or to its end. -/
theorem exists_run (s : List Char) :
    ∃ w rest, s = w ++ rest ∧ (∀ d ∈ w, isSeparator d = false) ∧
      ∀ d ∈ rest.head?, isSeparator d = true := by
  refine ⟨s.takeWhile fun d => !isSeparator d, s.dropWhile fun d => !isSeparator d,
    List.takeWhile_append_dropWhile.symm, fun d hd => ?_, fun d hd => ?_⟩
  · simpa using List.all_eq_true.mp List.all_takeWhile d hd
  · have hkept := List.head?_dropWhile_not (fun d => !isSeparator d) s
    rw [hd] at hkept
    simpa using hkept

/-- Splitting finds words that the text has. -/
theorem hasWords_words (s : List Char) : HasWords s (words s) := by
  -- a word may be long, so the induction is on the length of what is left
  induction hn : s.length using Nat.strongRecOn generalizing s with
  | ind n ih =>
    subst hn
    rcases s with - | ⟨c, s⟩
    · rw [words_nil]
      exact .nil
    rcases hc : isSeparator c with - | -
    · obtain ⟨w, rest, rfl, hw, hend⟩ := exists_run s
      have hword : ∀ d ∈ c :: w, isSeparator d = false := List.forall_mem_cons.mpr ⟨hc, hw⟩
      have hshorter : rest.length < (c :: (w ++ rest)).length := by
        simp only [List.length_cons, List.length_append]
        omega
      rw [← List.cons_append, words_word_append (List.cons_ne_nil c w) hword hend]
      exact .word (List.cons_ne_nil c w) hword hend (ih _ hshorter rest rfl)
    · rw [words_cons_separator hc]
      exact .separator hc (ih _ (Nat.lt_succ_self _) s rfl)

/-- **The words of a text are those that splitting finds**, and no others in no other order. -/
theorem hasWords_iff : HasWords s ws ↔ words s = ws := by
  constructor
  · intro h
    induction h with
    | nil => exact words_nil
    | separator hc _ ih => rw [words_cons_separator hc, ih]
    | word hne hw hend _ ih => rw [words_word_append hne hw hend, ih]
  · rintro rfl
    exact hasWords_words s

/-! ## The scopes of several texts -/

theorem splitScopes_append (raw more : List String) :
    splitScopes (raw ++ more) = splitScopes raw ++ splitScopes more := by
  simp only [splitScopes_eq, List.flatMap_append]

theorem splitScopes_cons (x : String) (raw : List String) :
    splitScopes (x :: raw) = (words x.toList).map String.ofList ++ splitScopes raw := by
  simp only [splitScopes_eq, List.flatMap_cons]

/-- It makes no difference whether two texts are given apart or with a separator between them. -/
theorem splitScopes_append_separator (hc : isSeparator c = true) (x y : String)
    (raw : List String) :
    splitScopes ((x ++ String.singleton c ++ y) :: raw) = splitScopes (x :: y :: raw) := by
  have htext : (x ++ String.singleton c ++ y).toList = x.toList ++ c :: y.toList := by
    simp
  rw [splitScopes_cons, htext, words_append_separator hc, List.map_append, splitScopes_cons,
    splitScopes_cons, List.append_assoc]

/-- **Scopes are the words of all texts**, put behind one another with commas between them. -/
theorem words_intercalate_comma (raw : List String) :
    words (",".intercalate raw).toList = (splitScopes raw).map String.toList := by
  have hcomma : isSeparator ',' = true := by decide
  have hback : ∀ ws : List (List Char), (ws.map String.ofList).map String.toList = ws := by
    intro ws
    rw [List.map_map]
    exact (List.map_congr_left fun w _ => String.toList_ofList).trans (List.map_id ws)
  rw [String.toList_intercalate]
  induction raw with
  | nil => exact words_nil
  | cons x raw ih =>
    rw [splitScopes_cons, List.map_append, hback, ← ih]
    rcases raw with - | ⟨y, raw⟩
    · rw [List.map_singleton, List.intercalate_singleton, List.map_nil, List.intercalate_nil,
        words_nil, List.append_nil]
    · rw [List.map_cons, List.map_cons, List.intercalate_cons_cons, List.append_assoc]
      exact words_append_separator hcomma x.toList _

/-- A form has a scope only if it is that of all scopes. -/
theorem eq_joined_of_mem_form {account : IssuerAccount} {scopes : List String} {scope : String}
    (h : ("scope", scope) ∈ (Grant.select account scopes).form) :
    scope = " ".intercalate scopes := by
  rw [Grant.select] at h
  split at h
  · simp [Grant.form] at h
  split at h
  · simpa [Grant.form] using h
  · split at h <;> simp [Grant.form] at h

/-- **Scopes are the words of what is given.** Take any texts for scopes.

* The scopes are the words of these texts, behind one another with commas between them: the longest
  runs of characters that are no separators, in their order.
* So none of them is empty, and none has a comma or a blank in it.
* It is all the same how they are spread over the texts: the scopes of more texts come behind those
  of the first ones, and a text with a separator in it has the scopes of its two sides.
* Put together with single spaces, as they are sent in the form of a request, they are split into
  the same scopes again. -/
theorem scopes_are_words (raw more : List String) (x y : String)
    (hc : c = ',' ∨ isBlank c = true) (account : IssuerAccount) :
    HasWords (",".intercalate raw).toList ((splitScopes raw).map String.toList) ∧
      (∀ scope ∈ splitScopes raw, scope ≠ "" ∧ ∀ d ∈ scope.toList, d ≠ ',' ∧ isBlank d = false) ∧
      splitScopes (raw ++ more) = splitScopes raw ++ splitScopes more ∧
      splitScopes [x ++ String.singleton c ++ y] = splitScopes [x, y] ∧
      splitScopes [" ".intercalate (splitScopes raw)] = splitScopes raw ∧
      ∀ scope, ("scope", scope) ∈ (Grant.select account (splitScopes raw)).form →
        splitScopes [scope] = splitScopes raw := by
  have hseparator : isSeparator c = true := by
    rcases hc with rfl | hblank
    · decide
    · rw [isSeparator, hblank, Bool.or_true]
  refine ⟨hasWords_iff.mpr (words_intercalate_comma raw), fun scope hscope => ?_,
    splitScopes_append raw more, splitScopes_append_separator hseparator x y [],
    splitScopes_joined raw, fun scope hscope => ?_⟩
  · obtain ⟨hne, hletters⟩ := of_mem_splitScopes hscope
    refine ⟨fun hempty => hne (by rw [hempty]; rfl), fun d hd => ?_⟩
    obtain ⟨hcomma, hblank⟩ := Bool.or_eq_false_iff.mp (hletters d hd)
    exact ⟨beq_eq_false_iff_ne.mp hcomma, hblank⟩
  · rw [eq_joined_of_mem_form hscope, splitScopes_joined]

/-- The ideographic space is a blank too. Scopes with several separators around them, and texts of
separators alone, are sent as three words. -/
theorem scopes_are_words_wide_blanks :
    let raw := ["\t,openid,, profile\u3000", "", " , ", "email"]
    splitScopes raw = ["openid", "profile", "email"] ∧
      HasWords (",".intercalate raw).toList ["openid".toList, "profile".toList, "email".toList] ∧
      splitScopes ["a,b\u3000c"] = ["a", "b", "c"] ∧
      splitScopes ["openid profile email"] = ["openid", "profile", "email"] := by
  intro raw
  have hscopes : splitScopes raw = ["openid", "profile", "email"] := by decide +kernel
  obtain ⟨hwords, -, -, hsides, hjoined, -⟩ := scopes_are_words (c := Char.ofNat 0x3000) raw []
    "a,b" "c" (.inr (by decide)) { issuerUrl := "", clientId := "", clientSecret := "" }
  rw [hscopes] at hwords hjoined
  refine ⟨hscopes, hwords, ?_, ?_⟩
  · have htext : "a,b" ++ String.singleton (Char.ofNat 0x3000) ++ "c" = "a,b\u3000c" := by
      decide +kernel
    rw [htext] at hsides
    rw [hsides]
    decide +kernel
  · have htext : " ".intercalate ["openid", "profile", "email"] = "openid profile email" := by
      decide +kernel
    rwa [htext] at hjoined

end TokenKeeper.Settings
