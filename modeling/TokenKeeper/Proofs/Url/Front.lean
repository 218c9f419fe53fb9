import TokenKeeper.Proofs.Url.Reading

/-!
# The front of a URL

What is written in front of a URL is read back, whatever stands behind it. A scheme that was read
once is read as itself again (`exists_ofText_append`), and an authority without delimiters ends at
the slash that follows it (`authorityPart_append`).
-/

namespace TokenKeeper.Url

variable {scheme : String} {u : Url}

/-! ## Schemes -/

/-- A character of a scheme. -/
def isSchemeChar (c : Char) : Bool :=
  c.isAlphanum || c == '+' || c == '-' || c == '.'

theorem toNat_lt_of_isSchemeChar {c : Char} (h : isSchemeChar c = true) : c.toNat < 128 := by
  simp only [isSchemeChar, Bool.or_eq_true, beq_iff_eq] at h
  rcases h with ((h | rfl) | rfl) | rfl
  · have hranges : ((decide ('A'.val ≤ c.val ∧ c.val ≤ 'Z'.val) ||
        (decide ('a'.val ≤ c.val) && decide (c.val ≤ 'z'.val))) ||
        (decide ('0'.val ≤ c.val) && decide (c.val ≤ '9'.val))) = true := h
    simp only [Bool.or_eq_true, Bool.and_eq_true, decide_eq_true_eq, UInt32.le_iff_toNat_le]
      at hranges
    have hval : c.toNat = c.val.toNat := rfl
    have hupper : 'Z'.val.toNat = 90 := rfl
    have hlower : 'z'.val.toNat = 122 := rfl
    have hdigit : '9'.val.toNat = 57 := rfl
    omega
  all_goals decide

/-- A scheme in the form in which it is kept: a letter first, and all in lower case. -/
structure IsScheme (scheme : String) : Prop where
  letter : ∃ c rest, scheme.toList = c :: rest ∧ c.isAlpha = true
  chars : ∀ c ∈ scheme.toList, isSchemeChar c = true ∧ 0x20 < c.toNat ∧ c.toLower = c

/-- The lower case of a character of a scheme is one too, and its own lower case. -/
theorem isSchemeChar_toLower {c : Char} (h : isSchemeChar c = true) :
    isSchemeChar c.toLower = true ∧ 0x20 < c.toLower.toNat ∧ c.toLower.toLower = c.toLower ∧
      c.toLower.isAlpha = c.isAlpha := by
  have hall : ∀ n < 128, isSchemeChar (Char.ofNat n) = true →
      isSchemeChar (Char.ofNat n).toLower = true ∧ 0x20 < (Char.ofNat n).toLower.toNat ∧
        (Char.ofNat n).toLower.toLower = (Char.ofNat n).toLower ∧
        (Char.ofNat n).toLower.isAlpha = (Char.ofNat n).isAlpha := by
    decide +kernel
  have hc := hall c.toNat (toNat_lt_of_isSchemeChar h)
  rw [Char.ofNat_toNat] at hc
  exact hc h

theorem isScheme_of_splitScheme {s rest : List Char} (h : splitScheme s = some (scheme, rest)) :
    IsScheme scheme := by
  unfold splitScheme at h
  simp only at h
  split at h
  · rename_i c more after hfront _
    split at h
    · rename_i halpha
      obtain ⟨rfl, -⟩ := Prod.mk.inj (Option.some.inj h)
      have hchar : ∀ d ∈ c :: more, isSchemeChar d = true := by
        intro d hd
        rw [← hfront] at hd
        exact List.all_eq_true.mp List.all_takeWhile d hd
      rw [hfront]
      refine ⟨⟨c.toLower, more.map Char.toLower, ?_, ?_⟩, fun d hd => ?_⟩
      · rw [String.toList_ofList, List.map_cons]
      · rw [(isSchemeChar_toLower (hchar c List.mem_cons_self)).2.2.2, halpha]
      · rw [String.toList_ofList] at hd
        obtain ⟨e, he, rfl⟩ := List.mem_map.mp hd
        obtain ⟨hlower, hspace, hsame, -⟩ := isSchemeChar_toLower (hchar e he)
        exact ⟨hlower, hspace, hsame⟩
    · cases h
  · cases h

/-- The scheme of a URL that is read is in the form in which it is kept. -/
theorem isScheme_of_ofText {raw : String} (h : Url.ofText raw = .ok u) : IsScheme u.scheme := by
  unfold Url.ofText parse at h
  simp only at h
  split at h
  · rename_i scheme rest hsplit
    rw [scheme_of_ofSchemeRest h]
    exact isScheme_of_splitScheme hsplit
  · cases h

/-- A scheme in this form is split off as it is. -/
theorem IsScheme.splitScheme_append (h : IsScheme scheme) (rest : List Char) :
    splitScheme (scheme.toList ++ ':' :: rest) = some (scheme, rest) := by
  have htake : (scheme.toList ++ ':' :: rest).takeWhile isSchemeChar = scheme.toList := by
    have hcolon : ¬ isSchemeChar ':' = true := by decide
    rw [List.takeWhile_append_of_pos fun c hc => (h.chars c hc).1,
      List.takeWhile_cons_of_neg hcolon, List.append_nil]
  have hlower : scheme.toList.map Char.toLower = scheme.toList := by
    conv => rhs; rw [← List.map_id scheme.toList]
    exact List.map_congr_left fun c hc => (h.chars c hc).2.2
  obtain ⟨c, more, hscheme, halpha⟩ := h.letter
  unfold isSchemeChar at htake
  unfold splitScheme
  simp only [htake, List.drop_left, hlower, String.ofList_toList]
  rw [hscheme]
  simp only [halpha, if_true]

/-! ## What is read behind the scheme -/

/-- The scheme is taken off, and what stands behind it is read as it is up to where it may hold
something to drop. -/
theorem exists_ofText_append (h : IsScheme scheme) {front : String}
    (hfront : ∀ c ∈ front.toList, 0x20 < c.toNat) (rest : String) :
    ∃ x, Url.ofText (scheme ++ "://" ++ front ++ rest) =
      ofSchemeRest none scheme ('/' :: '/' :: (front.toList ++ x)) := by
  have hmarks : ∀ c ∈ "://".toList, 0x20 < c.toNat := List.all_iff_forall_prop.mp (by decide)
  have hspace : ∀ c ∈ (scheme ++ "://" ++ front).toList, 0x20 < c.toNat := by
    intro c hc
    simp only [String.toList_append, List.mem_append] at hc
    rcases hc with (hc | hc) | hc
    · exact (h.chars c hc).2.1
    · exact hmarks c hc
    · exact hfront c hc
  have hne : (scheme ++ "://" ++ front).toList ≠ [] := by simp
  obtain ⟨x, hx⟩ : ∃ x, cleaned (scheme ++ "://" ++ front ++ rest) =
      (scheme ++ "://" ++ front).toList ++ x := by
    have hcleaned := cleaned_append hne hspace rest.toList
    rw [← String.toList_append, String.ofList_toList] at hcleaned
    exact ⟨_, hcleaned⟩
  have hsplit : cleaned (scheme ++ "://" ++ front ++ rest) =
      scheme.toList ++ ':' :: '/' :: '/' :: (front.toList ++ x) := by
    rw [hx]
    simp
  refine ⟨x, ?_⟩
  unfold Url.ofText parse
  simp only [hsplit, h.splitScheme_append]

/-- An authority ends at the slash that follows it. -/
theorem authorityPart_append (special : Bool) {authority : List Char}
    (h : ∀ c ∈ authority, IsAuthorityChar c) (rest : List Char) :
    authorityPart special (authority ++ '/' :: rest) = authority := by
  have hinside : ∀ c ∈ authority, (c != '#') = true ∧ (c != '?') = true ∧
      (!isSlash special c) = true := by
    intro c hc
    simp [isSlash, (h c hc).ne_hash, (h c hc).ne_question, (h c hc).ne_slash, (h c hc).ne_backslash]
  have hhash : ('/' != '#') = true := by decide
  have hquestion : ('/' != '?') = true := by decide
  have hslash : ¬ (!isSlash special '/') = true := by simp [isSlash]
  simp only [authorityPart, splitTail]
  rw [List.takeWhile_append_of_pos fun c hc => (hinside c hc).1, List.takeWhile_cons,
    if_pos hhash, List.takeWhile_append_of_pos fun c hc => (hinside c hc).2.1,
    List.takeWhile_cons, if_pos hquestion,
    List.takeWhile_append_of_pos fun c hc => (hinside c hc).2.2, List.takeWhile_cons,
    if_neg hslash, List.append_nil]

end TokenKeeper.Url
