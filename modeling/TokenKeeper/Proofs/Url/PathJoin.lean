import Mathlib.Data.List.Basic
import TokenKeeper.Proofs.Text.Percent
import TokenKeeper.Url.WirePath

/-!
# Joining paths and their forms on the wire

A path can be joined to another one before its form on the wire is read or after, and the outcome is
the same (`join_ofWire`).

Every join puts one slash between what the first text has before the seam (`stem`) and what the
second has behind it (`leaf`). At a slash both percent coding and UTF-8 can be cut, so path and form
are joined piece by piece. What remains is that a form that has to be kept stays one that has to be
kept: escaping afresh writes no fewer slashes than were there (`slashes_le`), so where it gives a
joined form back it has put each slash where it was, and has given back both parts.
-/

namespace TokenKeeper.WirePath

/-! ## The seam -/

/-- A text without the slash at its end, if there is one. -/
def stem (a : String) : String :=
  if endsInSlash a then String.ofList a.toList.dropLast else a

/-- A text without the slash at its start, if there is one. -/
def leaf (b : String) : String :=
  if startsWithSlash b then withoutFirst b else b

theorem eq_stem_append {a : String} (h : endsInSlash a = true) : a = stem a ++ "/" := by
  rw [stem, if_pos h]
  apply String.toList_inj.mp
  rw [String.toList_append, String.toList_ofList]
  exact (List.dropLast_append_getLast? '/' (by simpa [endsInSlash] using h)).symm

theorem stem_of_not_endsInSlash {a : String} (h : endsInSlash a = false) : stem a = a := by
  rw [stem, h, if_neg Bool.false_ne_true]

theorem eq_append_leaf {b : String} (h : startsWithSlash b = true) : b = "/" ++ leaf b := by
  rw [leaf, if_pos h]
  apply String.toList_inj.mp
  simp only [startsWithSlash, beq_iff_eq] at h
  rw [String.toList_append]
  simp only [withoutFirst]
  rcases hb : b.toList with _ | ⟨c, rest⟩ <;> rw [hb] at h
  · cases h
  · obtain rfl : c = '/' := Option.some.inj h
    simp only [String.toList_ofList]
    rfl

theorem leaf_of_not_startsWithSlash {b : String} (h : startsWithSlash b = false) : leaf b = b := by
  rw [leaf, h, if_neg Bool.false_ne_true]

@[simp] theorem endsInSlash_append_slash (a : String) : endsInSlash (a ++ "/") = true := by
  simp [endsInSlash]

@[simp] theorem startsWithSlash_slash_append (b : String) : startsWithSlash ("/" ++ b) = true := by
  simp [startsWithSlash]

@[simp] theorem withoutFirst_slash_append (b : String) : withoutFirst ("/" ++ b) = b := by
  simp [withoutFirst]

@[simp] theorem withoutFirstByte_slash_append (b : String) : withoutFirstByte ("/" ++ b) = b := by
  simp [withoutFirstByte]

@[simp] theorem stem_append_slash (a : String) : stem (a ++ "/") = a := by
  simp [stem]

@[simp] theorem leaf_slash_append (b : String) : leaf ("/" ++ b) = b := by
  simp [leaf]

/-- **The seam.** A join is stem, slash and leaf. -/
theorem joinTexts_eq (a b : String) : joinTexts a b = stem a ++ "/" ++ leaf b := by
  rw [joinTexts]
  rcases ha : endsInSlash a with - | - <;> rcases hb : startsWithSlash b with - | -
  · rw [stem_of_not_endsInSlash ha, leaf_of_not_startsWithSlash hb]
    rfl
  · refine Eq.trans ?_ String.append_assoc.symm
    rw [stem_of_not_endsInSlash ha, ← eq_append_leaf hb]
    rfl
  · rw [leaf_of_not_startsWithSlash hb, ← eq_stem_append ha]
    rfl
  · rw [leaf, hb, if_pos rfl, ← eq_stem_append ha]
    rfl

/-- What is joined to a path that is empty or starts with a slash starts with a slash. -/
theorem exists_joinTexts_eq {a : String} (h : a = "" ∨ startsWithSlash a = true) (b : String) :
    ∃ rest, joinTexts a b = "/" ++ rest := by
  rw [joinTexts_eq]
  rcases h with rfl | h
  · exact ⟨leaf b, by rw [stem_of_not_endsInSlash rfl, String.empty_append]⟩
  · have hfirst := eq_append_leaf h
    rcases he : endsInSlash a with - | -
    · rw [stem_of_not_endsInSlash he, hfirst]
      exact ⟨leaf a ++ "/" ++ leaf b, by simp only [String.append_assoc]⟩
    · rw [← eq_stem_append he, hfirst]
      exact ⟨leaf a ++ leaf b, by simp only [String.append_assoc]⟩

/-- A join holds no characters but those of both texts and the slash between them. -/
theorem mem_joinTexts {a b : String} {c : Char} (h : c ∈ (joinTexts a b).toList) :
    c ∈ a.toList ∨ c = '/' ∨ c ∈ b.toList := by
  rw [joinTexts] at h
  split at h
  · rw [String.toList_append, withoutFirst, String.toList_ofList] at h
    rcases List.mem_append.mp h with h | h
    · exact .inl h
    · exact .inr (.inr (List.mem_of_mem_tail h))
  split at h
  · rw [String.toList_append, String.toList_append] at h
    rcases List.mem_append.mp h with h | h
    · rcases List.mem_append.mp h with h | h
      · exact .inl h
      · exact .inr (.inl (List.mem_singleton.mp h))
    · exact .inr (.inr h)
  · rw [String.toList_append] at h
    rcases List.mem_append.mp h with h | h
    · exact .inl h
    · exact .inr (.inr h)

/-! ## Cutting forms at a slash -/

theorem plainForm_append (p q : String) : plainForm (p ++ q) = plainForm p ++ plainForm q :=
  Percent.encodeText_append isEscaped p q

theorem plainForm_slash : plainForm "/" = "/" := by
  decide

/-- The path of a form is read on both sides of a slash by itself. -/
theorem decodeText_append_slash (a b : String) :
    Percent.decodeText (a ++ "/" ++ b) =
      Percent.decodeText a ++ "/" ++ Percent.decodeText b := by
  have hslash : Utf8.ofText "/" = [0x2F] := by decide
  apply String.toList_inj.mp
  simp only [Percent.decodeText, Utf8.toTextLossy, Utf8.ofText_append, hslash,
    String.toList_append, String.toList_ofList, List.append_assoc, List.singleton_append,
    Percent.decode_append _ (show (0x2F : UInt8) ≠ 0x25 by decide) rfl,
    Utf8.decodeLossy_append_ascii _ (show (0x2F : UInt8) < 0x80 by decide)]
  rfl

/-! ## Counting slashes -/

/-- The number of slashes in a text. -/
def slashes (s : String) : Nat :=
  s.toList.count '/'

@[simp] theorem slashes_append (a b : String) : slashes (a ++ b) = slashes a + slashes b := by
  simp only [slashes, String.toList_append, List.count_append]

/-- A character is written with a slash only if it is one. -/
theorem count_encodeChar (c : Char) :
    (Percent.encodeChar isEscaped c).count '/' = [c].count '/' := by
  by_cases hc : c = '/'
  · subst hc
    decide
  · rw [List.count_eq_zero.mpr fun h => ?_, List.count_eq_zero.mpr (by simpa using Ne.symm hc)]
    rcases Percent.mem_encodeChar h with ⟨h, -⟩ | h
    · exact hc h.symm
    · exact absurd h (by decide)

/-- Escaping adds no slash and takes none away. -/
theorem slashes_plainForm (p : String) : slashes (plainForm p) = slashes p := by
  simp only [slashes, plainForm, Percent.toList_encodeText]
  induction p.toList with
  | nil => rfl
  | cons c rest ih =>
    rw [List.flatMap_cons, List.count_append, ih, count_encodeChar, ← List.count_append]
    rfl

/-- A text with slashes is cut at one of them. -/
theorem exists_eq_append_slash {w : String} (h : 0 < slashes w) : ∃ a b, w = a ++ "/" ++ b := by
  obtain ⟨x, y, hxy⟩ := List.append_of_mem (List.count_pos_iff.mp h)
  refine ⟨String.ofList x, String.ofList y, String.toList_inj.mp ?_⟩
  simp [hxy]

/-- Every slash of a form is one of its path. A path may have more, which were escaped. -/
theorem slashes_le (w : String) : slashes w ≤ slashes (Percent.decodeText w) := by
  induction hn : slashes w using Nat.strongRecOn generalizing w with
  | ind n ih =>
    subst hn
    rcases Nat.eq_zero_or_pos (slashes w) with hzero | hpos
    · rw [hzero]
      exact Nat.zero_le _
    · obtain ⟨a, b, rfl⟩ := exists_eq_append_slash hpos
      have hone : slashes "/" = 1 := by decide
      have ha := ih (slashes a) (by simp only [slashes_append]; omega) a rfl
      have hb := ih (slashes b) (by simp only [slashes_append]; omega) b rfl
      simp only [decodeText_append_slash, slashes_append]
      omega

/-- Two cuts of a list at the same element, with as many of it in front, are the same cut. -/
theorem eq_of_append_cons_eq {c : Char} {x x' y y' : List Char} (hc : x.count c = x'.count c)
    (h : x ++ c :: y = x' ++ c :: y') : x = x' ∧ y = y' := by
  rcases List.append_eq_append_iff.mp h with ⟨z, rfl, hy⟩ | ⟨z, rfl, hy⟩
  all_goals
    rcases z with _ | ⟨d, z⟩
    · simpa [eq_comm] using hy
    · obtain ⟨rfl, -⟩ := List.cons.inj hy
      simp only [List.count_append, List.count_cons_self] at hc
      omega

theorem append_slash_inj {a a' b b' : String} (hs : slashes a = slashes a')
    (h : a ++ "/" ++ b = a' ++ "/" ++ b') : a = a' ∧ b = b' := by
  have h' := congrArg String.toList h
  simp only [String.toList_append, List.append_assoc] at h'
  obtain ⟨ha, hb⟩ := eq_of_append_cons_eq hs h'
  exact ⟨String.toList_inj.mp ha, String.toList_inj.mp hb⟩

/-! ## Plain forms -/

/-- Whether a form is the one that plain escaping writes for its path. -/
def IsPlain (w : String) : Prop :=
  plainForm (Percent.decodeText w) = w

instance (w : String) : Decidable (IsPlain w) :=
  inferInstanceAs (Decidable (plainForm (Percent.decodeText w) = w))

theorem ofWire_eq (w : String) :
    ofWire w = { path := Percent.decodeText w, raw := if IsPlain w then none else some w } := rfl

theorem raw_ofWire_eq_none_iff (w : String) : (ofWire w).raw = none ↔ IsPlain w := by
  simp [ofWire_eq]

/-- No form is lost. -/
@[simp] theorem wire_ofWire (w : String) : (ofWire w).wire = w := by
  simp only [ofWire_eq, wire]
  split
  · assumption
  · rfl

/-- **A form is plain if and only if both of its parts at a slash are.** -/
theorem isPlain_append_slash (a b : String) : IsPlain (a ++ "/" ++ b) ↔ IsPlain a ∧ IsPlain b := by
  simp only [IsPlain, decodeText_append_slash, plainForm_append, plainForm_slash]
  refine ⟨fun h => ?_, fun ⟨ha, hb⟩ => by rw [ha, hb]⟩
  -- each part has at least as many slashes afresh as before, and together they have as many
  have hcount := congrArg slashes h
  have hle := slashes_le a
  have hle' := slashes_le b
  simp only [slashes_append, slashes_plainForm] at hcount
  exact append_slash_inj (by rw [slashes_plainForm]; omega) h

theorem isPlain_empty : IsPlain "" := by
  simp [IsPlain, Percent.decodeText, Utf8.ofText, Utf8.encode, Percent.decode, Utf8.toTextLossy,
    plainForm, Percent.encodeText, Percent.encode, Percent.asciiText]

theorem isPlain_stem (a : String) : IsPlain (stem a) ↔ IsPlain a := by
  rcases ha : endsInSlash a with - | -
  · rw [stem_of_not_endsInSlash ha]
  · have h := isPlain_append_slash (stem a) ""
    rw [String.append_empty, ← eq_stem_append ha] at h
    exact ⟨fun hs => h.mpr ⟨hs, isPlain_empty⟩, fun hp => (h.mp hp).1⟩

theorem isPlain_leaf (b : String) : IsPlain (leaf b) ↔ IsPlain b := by
  rcases hb : startsWithSlash b with - | -
  · rw [leaf_of_not_startsWithSlash hb]
  · have h := isPlain_append_slash "" (leaf b)
    rw [String.empty_append, ← eq_append_leaf hb] at h
    exact ⟨fun hs => h.mpr ⟨isPlain_empty, hs⟩, fun hp => (h.mp hp).2⟩

/-! ## Joining -/

/-- A slash at the end of a form is one at the end of its path. -/
theorem decodeText_of_endsInSlash {a : String} (h : endsInSlash a = true) :
    Percent.decodeText a = Percent.decodeText (stem a) ++ "/" := by
  have hcut := decodeText_append_slash (stem a) ""
  rwa [String.append_empty, ← eq_stem_append h, show Percent.decodeText "" = "" by cbv,
    String.append_empty] at hcut

/-- A slash at the start of a form is one at the start of its path. -/
theorem decodeText_of_startsWithSlash {b : String} (h : startsWithSlash b = true) :
    Percent.decodeText b = "/" ++ Percent.decodeText (leaf b) := by
  have hcut := decodeText_append_slash "" (leaf b)
  rwa [String.empty_append, ← eq_append_leaf h, show Percent.decodeText "" = "" by cbv,
    String.empty_append] at hcut

/-- The path of a plain form ends in a slash only if the form does. -/
theorem stem_decodeText {a : String} (ha : IsPlain a) :
    stem (Percent.decodeText a) = Percent.decodeText (stem a) := by
  rcases he : endsInSlash a with - | -
  · rw [stem_of_not_endsInSlash he, stem_of_not_endsInSlash]
    refine Bool.eq_false_iff.mpr fun h => ?_
    rw [IsPlain, eq_stem_append h, plainForm_append, plainForm_slash] at ha
    rw [← ha, endsInSlash_append_slash] at he
    cases he
  · rw [decodeText_of_endsInSlash he, stem_append_slash]

/-- The path of a plain form starts with a slash only if the form does. -/
theorem leaf_decodeText {b : String} (hb : IsPlain b) :
    leaf (Percent.decodeText b) = Percent.decodeText (leaf b) := by
  rcases hs : startsWithSlash b with - | -
  · rw [leaf_of_not_startsWithSlash hs, leaf_of_not_startsWithSlash]
    refine Bool.eq_false_iff.mpr fun h => ?_
    rw [IsPlain, eq_append_leaf h, plainForm_append, plainForm_slash] at hb
    rw [← hb, startsWithSlash_slash_append] at hs
    cases hs
  · rw [decodeText_of_startsWithSlash hs, leaf_slash_append]

/-- Joining two plain forms joins their paths. -/
theorem join_of_isPlain {a b : String} (ha : IsPlain a) (hb : IsPlain b) :
    (ofWire a).join (ofWire b) =
      { path := Percent.decodeText (joinTexts a b), raw := none } := by
  simp only [ofWire_eq, if_pos ha, if_pos hb, join, Option.isNone_none, Bool.and_self, if_true,
    joinTexts_eq, stem_decodeText ha, leaf_decodeText hb, decodeText_append_slash]

/-- Joining two forms of which one has to be kept joins the forms, and the paths at the same
place. -/
theorem join_of_not_isPlain {a b : String} (h : ¬ (IsPlain a ∧ IsPlain b)) :
    (ofWire a).join (ofWire b) =
      { path := Percent.decodeText (joinTexts a b), raw := some (joinTexts a b) } := by
  have hraw : ¬ ((ofWire a).raw.isNone && (ofWire b).raw.isNone) = true := by
    simpa only [Bool.and_eq_true, Option.isNone_iff_eq_none, raw_ofWire_eq_none_iff] using h
  have ha : (ofWire a).path = Percent.decodeText a := rfl
  have hb : (ofWire b).path = Percent.decodeText b := rfl
  rw [join, if_neg hraw]
  simp only [wire_ofWire, ha, hb, joinTexts_eq, decodeText_append_slash]
  rcases he : endsInSlash a with - | - <;> rcases hs : startsWithSlash b with - | -
  · rw [stem_of_not_endsInSlash he, leaf_of_not_startsWithSlash hs]
    rfl
  · simp only [String.append_assoc]
    rw [stem_of_not_endsInSlash he, ← decodeText_of_startsWithSlash hs, ← eq_append_leaf hs]
    rfl
  · rw [leaf_of_not_startsWithSlash hs, ← decodeText_of_endsInSlash he, ← eq_stem_append he]
    rfl
  · have hbyte : withoutFirstByte (Percent.decodeText b) = Percent.decodeText (leaf b) := by
      rw [decodeText_of_startsWithSlash hs, withoutFirstByte_slash_append]
    have hchar : withoutFirst b = leaf b := by rw [leaf, if_pos hs]
    rw [← decodeText_of_endsInSlash he, ← eq_stem_append he, hbyte, hchar]
    rfl

/-- A joined form is plain if and only if both forms are. -/
theorem isPlain_joinTexts (a b : String) : IsPlain (joinTexts a b) ↔ IsPlain a ∧ IsPlain b := by
  rw [joinTexts_eq, isPlain_append_slash, isPlain_stem, isPlain_leaf]

/-- The form of a join is the joined form. -/
theorem wire_join_ofWire (a b : String) : ((ofWire a).join (ofWire b)).wire = joinTexts a b := by
  by_cases h : IsPlain a ∧ IsPlain b
  · rw [join_of_isPlain h.1 h.2]
    exact (isPlain_joinTexts a b).mpr h
  · rw [join_of_not_isPlain h]
    rfl

/-- A join is what the joined form is read as. -/
theorem join_ofWire_eq (a b : String) : (ofWire a).join (ofWire b) = ofWire (joinTexts a b) := by
  simp only [ofWire_eq (joinTexts a b), isPlain_joinTexts]
  split
  · rename_i h
    exact join_of_isPlain h.1 h.2
  · rename_i h
    exact join_of_not_isPlain h

/-- **Joining before reading and after is the same.** The path of a join is what the joined form
decodes to, and the joined form is kept unless both forms are plain. -/
theorem join_ofWire (a b : String) :
    (ofWire a).join (ofWire b) = ofWire (joinTexts a b) ∧
      (ofWire a).join (ofWire b) =
        { path := Percent.decodeText (joinTexts a b)
          raw := if (ofWire a).raw = none ∧ (ofWire b).raw = none then none
            else some (joinTexts a b) } := by
  refine ⟨join_ofWire_eq a b, ?_⟩
  simp only [join_ofWire_eq, ofWire_eq (joinTexts a b), raw_ofWire_eq_none_iff, isPlain_joinTexts]

end TokenKeeper.WirePath
