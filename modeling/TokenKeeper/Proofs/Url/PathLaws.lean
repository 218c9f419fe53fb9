import TokenKeeper.Proofs.Url.PathJoin

/-!
# The laws of paths on the wire

Two laws that paths keep whatever stands in them. A form on the wire is not lost when its path is
read, and neither is a path when it is written plainly (`forms_read_back`). And of three paths that
are joined it does not matter which two are joined first (`join_assoc_ofWire`).

The second law is one of texts. A join is stem, slash and leaf, so of a text in the middle both its
slashes at the ends are lost, and nothing else. Only where nothing is left of it does one of the two
slashes beside it go as well (`joinTexts_joinTexts`): a middle that is empty or a single slash is as
good as none, and one of two slashes is not.
-/

namespace TokenKeeper.WirePath

/-! ## Forms and paths -/

theorem decodeText_plainForm (q : String) : Percent.decodeText (plainForm q) = q :=
  Percent.decodeText_encodeText (by decide) q

/-- The plain form of a path is plain. -/
theorem isPlain_plainForm (q : String) : IsPlain (plainForm q) := by
  rw [IsPlain, decodeText_plainForm]

theorem ofWire_plainForm (q : String) : ofWire (plainForm q) = { path := q, raw := none } := by
  rw [ofWire_eq, decodeText_plainForm, if_pos (isPlain_plainForm q)]

/-- **Forms and paths are read back.** Whatever stands on the wire, its path is written as it came,
so different forms have different paths. And whatever a path is, the form in which it is written
when no other is kept leads back to it, and need not be kept. -/
theorem forms_read_back (v w q : String) :
    (ofWire w).wire = w ∧ (ofWire v = ofWire w ↔ v = w) ∧
      ofWire (wire { path := q, raw := none }) = { path := q, raw := none } := by
  refine ⟨wire_ofWire w, ⟨fun h => ?_, congrArg ofWire⟩, ofWire_plainForm q⟩
  have hwire := congrArg wire h
  rwa [wire_ofWire, wire_ofWire] at hwire

/-- An escaped slash is kept, and a path in which a percent sign stands is not mistaken for one. -/
example : ofWire "/a%2Fb" = { path := "/a/b", raw := some "/a%2Fb" } ∧
    plainForm "/a%2Fb" = "/a%252Fb" := by
  decide +kernel

/-! ## The ends of a text with a slash in it -/

/-- The end of a text is that of what follows a slash in it. -/
theorem endsInSlash_append_slash_append {b : String} (hne : b ≠ "") (a : String) :
    endsInSlash (a ++ "/" ++ b) = endsInSlash b := by
  have hb : b.toList ≠ [] := fun h => hne (String.toList_eq_nil_iff.mp h)
  rw [endsInSlash, String.toList_append, List.getLast?_append_of_ne_nil _ hb, endsInSlash]

theorem startsWithSlash_append_slash_append {a : String} (hne : a ≠ "") (b : String) :
    startsWithSlash (a ++ "/" ++ b) = startsWithSlash a := by
  obtain ⟨c, rest, ha⟩ := List.exists_cons_of_ne_nil
    fun h => hne (String.toList_eq_nil_iff.mp h)
  simp [startsWithSlash, ha]

/-- What stands in front of a slash stays when the slash at the end goes. -/
theorem stem_append_slash_append {b : String} (hne : b ≠ "") (a : String) :
    stem (a ++ "/" ++ b) = a ++ "/" ++ stem b := by
  have hb : b.toList ≠ [] := fun h => hne (String.toList_eq_nil_iff.mp h)
  have hend := endsInSlash_append_slash_append hne a
  rcases he : endsInSlash b with - | -
  · rw [stem_of_not_endsInSlash he, stem_of_not_endsInSlash (hend.trans he)]
  · rw [stem, stem, hend, he, if_pos rfl, if_pos rfl]
    apply String.toList_inj.mp
    simp only [String.toList_append, String.toList_ofList, List.dropLast_append_of_ne_nil hb]

/-- What stands behind a slash stays when the slash at the start goes. -/
theorem leaf_append_slash_append {a : String} (hne : a ≠ "") (b : String) :
    leaf (a ++ "/" ++ b) = leaf a ++ "/" ++ b := by
  have hstart := startsWithSlash_append_slash_append hne b
  rcases hs : startsWithSlash a with - | -
  · rw [leaf_of_not_startsWithSlash hs, leaf_of_not_startsWithSlash (hstart.trans hs)]
  · rw [leaf, hstart, hs, if_pos rfl]
    nth_rewrite 1 [eq_append_leaf hs]
    rw [String.append_assoc, String.append_assoc, withoutFirst_slash_append, String.append_assoc]

/-! ## A text in the middle -/

/-- What is left of a text when the slashes at both its ends go. -/
def middle (b : String) : String :=
  stem (leaf b)

/-- It does not matter which of the two goes first. -/
theorem leaf_stem (b : String) : leaf (stem b) = middle b := by
  rw [middle]
  rcases hs : startsWithSlash b with - | -
  · rw [leaf_of_not_startsWithSlash hs, leaf_of_not_startsWithSlash]
    -- the stem is the front of the text, and has no slash at its start either
    refine Bool.eq_false_iff.mpr fun h => ?_
    rcases he : endsInSlash b with - | -
    · rw [stem_of_not_endsInSlash he, hs] at h
      cases h
    · rw [eq_stem_append he, eq_append_leaf h, String.append_assoc,
        startsWithSlash_slash_append] at hs
      cases hs
  · have hb : b = "" ++ "/" ++ leaf b := by rw [String.empty_append, ← eq_append_leaf hs]
    by_cases hleaf : leaf b = ""
    · rw [hleaf, String.append_empty, String.empty_append] at hb
      rw [hleaf, hb]
      decide
    · have hstem := stem_append_slash_append hleaf ""
      rw [← hb, String.empty_append] at hstem
      rw [hstem, leaf_slash_append]

/-- No stem is left exactly where no leaf is: of a text that is empty or a single slash. -/
theorem stem_eq_empty_iff (b : String) : stem b = "" ↔ leaf b = "" := by
  constructor
  · intro h
    rcases he : endsInSlash b with - | -
    · rw [stem_of_not_endsInSlash he] at h
      rw [h]
      decide
    · rw [eq_stem_append he, h]
      decide
  · intro h
    rcases hs : startsWithSlash b with - | -
    · rw [leaf_of_not_startsWithSlash hs] at h
      rw [h]
      decide
    · rw [eq_append_leaf hs, h]
      decide

/-- **Three texts.** Of the one in the middle the slashes at its ends are lost, and if nothing else
is there it is as good as none. -/
theorem joinTexts_joinTexts (a b c : String) :
    joinTexts (joinTexts a b) c =
      if leaf b = "" then joinTexts a c else stem a ++ "/" ++ middle b ++ "/" ++ leaf c := by
  rw [joinTexts_eq a b, joinTexts_eq _ c]
  split
  · rename_i hleaf
    rw [hleaf, String.append_empty, stem_append_slash, joinTexts_eq]
  · rename_i hleaf
    rw [stem_append_slash_append hleaf, middle]

/-- The same text comes of joining the other two first. -/
theorem joinTexts_joinTexts_right (a b c : String) :
    joinTexts a (joinTexts b c) =
      if leaf b = "" then joinTexts a c else stem a ++ "/" ++ middle b ++ "/" ++ leaf c := by
  rw [joinTexts_eq b c, joinTexts_eq a]
  split
  · rename_i hleaf
    rw [(stem_eq_empty_iff b).mpr hleaf, String.empty_append, leaf_slash_append, joinTexts_eq]
  · rename_i hleaf
    rw [leaf_append_slash_append (mt (stem_eq_empty_iff b).mp hleaf), leaf_stem]
    simp only [String.append_assoc]

theorem joinTexts_assoc (a b c : String) :
    joinTexts (joinTexts a b) c = joinTexts a (joinTexts b c) := by
  rw [joinTexts_joinTexts, joinTexts_joinTexts_right]

/-! ## Joining three paths -/

/-- **Joining is associative.** Three paths that were read from the wire give the same path and the
same form whichever two of them are joined first: those of the three forms put together with one
slash at each seam. -/
theorem join_assoc_ofWire (a b c : String) :
    ((ofWire a).join (ofWire b)).join (ofWire c) = (ofWire a).join ((ofWire b).join (ofWire c)) ∧
      ((ofWire a).join (ofWire b)).join (ofWire c) =
        ofWire (if leaf b = "" then joinTexts a c
          else stem a ++ "/" ++ middle b ++ "/" ++ leaf c) := by
  rw [join_ofWire_eq a b, join_ofWire_eq b c, join_ofWire_eq, join_ofWire_eq, joinTexts_assoc,
    joinTexts_joinTexts_right]
  exact ⟨rfl, rfl⟩

end TokenKeeper.WirePath
