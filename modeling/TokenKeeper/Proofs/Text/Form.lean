import Mathlib.Data.List.Nodup
import TokenKeeper.Proofs.Text.Percent
import TokenKeeper.Proofs.Text.Pieces
import TokenKeeper.Text.Form

/-!
# Reading form pairs

The pairs that are written in a form are the pairs that are read from it (`decode_encode`): no name
or value contains the marks that stand between them. Of the pairs of one name the last is found
(`lastValue?_append`), so of pairs with different names each one (`lastValue?_of_mem`).
-/

namespace TokenKeeper.Form

/-! ## Components -/

/-- The bytes of a component: those that stand for themselves, and those of escapes and spaces. -/
theorem mem_encodeComponent {bytes : List UInt8} {d : UInt8} (h : d ∈ encodeComponent bytes) :
    isPlain d = true ∨ d = 0x25 ∨ d = 0x2B := by
  obtain ⟨b, -, hd⟩ := List.mem_flatMap.mp h
  split at hd
  · exact .inr (.inr (List.mem_singleton.mp hd))
  split at hd
  · rename_i hplain
    rw [List.mem_singleton.mp hd]
    exact .inl hplain
  · rcases Percent.mem_escape hd with rfl | hd
    · exact .inr (.inl rfl)
    · exact .inl (by rw [isPlain, hd, Bool.true_or])

theorem not_mem_encodeComponent {d : UInt8} (hplain : isPlain d = false) (hpercent : d ≠ 0x25)
    (hplus : d ≠ 0x2B) (bytes : List UInt8) : d ∉ encodeComponent bytes := by
  intro h
  rcases mem_encodeComponent h with h | h | h
  · rw [hplain] at h
    cases h
  · exact hpercent h
  · exact hplus h

/-- The reading of a plus as a space. -/
def plusToSpace (b : UInt8) : UInt8 :=
  if b == 0x2B then 0x20 else b

/-- No plus stands in an escape. -/
theorem map_plusToSpace_escape (b : UInt8) :
    (Percent.escape b).map plusToSpace = Percent.escape b := by
  have hread : ∀ d ∈ Percent.escape b, plusToSpace d = d := by
    intro d hd
    have hplus : d ≠ 0x2B := by
      rintro rfl
      exact (Percent.mem_escape hd).elim (by decide) (by decide)
    simp [plusToSpace, hplus]
  rw [List.map_congr_left hread, List.map_id']

theorem decode_map_plusToSpace_encodeComponent (bytes : List UInt8) :
    Percent.decode ((encodeComponent bytes).map plusToSpace) = bytes := by
  induction bytes with
  | nil => rfl
  | cons b rest ih =>
    rw [encodeComponent] at ih
    rw [encodeComponent, List.flatMap_cons, List.map_append]
    split
    · rename_i hspace
      obtain rfl := beq_iff_eq.mp hspace
      have hplus : [(0x2B : UInt8)].map plusToSpace = [0x20] := rfl
      rw [hplus, List.singleton_append, Percent.decode_cons_of_ne (by decide), ih]
    split
    · rename_i hplain
      have hne : ∀ d, isPlain d = false → b ≠ d := by
        rintro d hd rfl
        rw [hplain] at hd
        cases hd
      have hb : [b].map plusToSpace = [b] := by
        simp [plusToSpace, hne 0x2B (by decide)]
      rw [hb, List.singleton_append, Percent.decode_cons_of_ne (hne 0x25 (by decide)), ih]
    · rw [map_plusToSpace_escape, Percent.decode_escape_append, ih]

theorem decodeComponent_encodeComponent (s : String) :
    decodeComponent (encodeComponent (Utf8.ofText s)) = s := by
  rw [decodeComponent]
  exact (congrArg Utf8.toTextLossy (decode_map_plusToSpace_encodeComponent _)).trans
    (Utf8.toTextLossy_ofText s)

/-! ## Pairs -/

theorem decodePair_encodePair (pair : String × String) : decodePair (encodePair pair) = pair := by
  have hequals : 0x3D ∉ encodeComponent (Utf8.ofText pair.1) :=
    not_mem_encodeComponent (by decide) (by decide) (by decide) _
  rw [decodePair, encodePair, Pieces.takeWhile_append_cons hequals,
    Pieces.drop_dropWhile_append_cons hequals, decodeComponent_encodeComponent,
    decodeComponent_encodeComponent]

theorem ampersand_not_mem_encodePair (pair : String × String) : 0x26 ∉ encodePair pair := by
  have hcomponent := not_mem_encodeComponent (d := 0x26) (by decide) (by decide) (by decide)
  intro h
  rcases List.mem_append.mp h with h | h
  · exact hcomponent _ h
  · rcases List.mem_cons.mp h with h | h
    · exact absurd h (by decide)
    · exact hcomponent _ h

theorem encodePair_ne_nil (pair : String × String) : encodePair pair ≠ [] :=
  List.append_ne_nil_of_right_ne_nil _ (List.cons_ne_nil _ _)

/-- **Pairs are read back**, in their order. -/
theorem decode_encode (pairs : List (String × String)) : decode (encode pairs) = pairs := by
  cases pairs with
  | nil => rfl
  | cons pair rest =>
    have hsplit : (encode (pair :: rest)).splitOn 0x26 = (pair :: rest).map encodePair := by
      refine List.splitOn_intercalate _ ?_ (List.cons_ne_nil _ _)
      intro piece hpiece
      obtain ⟨p, -, rfl⟩ := List.mem_map.mp hpiece
      exact ampersand_not_mem_encodePair p
    have hfull : ((pair :: rest).map encodePair).filter (· ≠ []) =
        (pair :: rest).map encodePair := by
      refine List.filter_eq_self.mpr fun piece hpiece => ?_
      obtain ⟨p, -, rfl⟩ := List.mem_map.mp hpiece
      exact decide_eq_true (encodePair_ne_nil p)
    rw [decode, hsplit, hfull, List.map_map]
    exact List.map_id'' decodePair_encodePair _

/-! ## Last values -/

/-- The last value under a name is one of the pairs behind, if there is any, or else of those in
front. -/
theorem lastValue?_append (before after : List (String × String)) (name : String) :
    lastValue? (before ++ after) name = (lastValue? after name).or (lastValue? before name) := by
  rw [lastValue?, List.reverse_append, List.find?_append, Option.map_or]
  rfl

theorem lastValue?_singleton (pair : String × String) (name : String) :
    lastValue? [pair] name = if pair.1 = name then some pair.2 else none := by
  by_cases hname : pair.1 = name
  · simp [lastValue?, hname]
  · simp [lastValue?, hname]

theorem lastValue?_cons (pair : String × String) (rest : List (String × String)) (name : String) :
    lastValue? (pair :: rest) name =
      (lastValue? rest name).or (if pair.1 = name then some pair.2 else none) := by
  rw [← lastValue?_singleton, ← lastValue?_append, List.singleton_append]

theorem lastValue?_eq_none_iff {pairs : List (String × String)} {name : String} :
    lastValue? pairs name = none ↔ name ∉ pairs.map Prod.fst := by
  rw [lastValue?, Option.map_eq_none_iff, List.find?_eq_none]
  simp only [List.mem_reverse, beq_iff_eq, List.mem_map, not_exists, not_and]

/-- A pair is found under its name, if no other has the same. -/
theorem lastValue?_of_mem {pairs : List (String × String)} {name value : String}
    (hnames : (pairs.map Prod.fst).Nodup) (h : (name, value) ∈ pairs) :
    lastValue? pairs name = some value := by
  rw [lastValue?]
  -- the pair that is found is in the list as well, so it is the one with that name
  rcases hfound : pairs.reverse.find? (·.1 == name) with - | ⟨name', value'⟩
  · have hnone := List.find?_eq_none.mp hfound _ (List.mem_reverse.mpr h)
    exact absurd (beq_self_eq_true name) hnone
  · obtain rfl : name' = name := by simpa using List.find?_some hfound
    have hmem := List.mem_reverse.mp (List.mem_of_find?_eq_some hfound)
    have hsame := List.inj_on_of_nodup_map hnames hmem h rfl
    rw [hfound, Option.map_some, (Prod.mk.inj hsame).2]

end TokenKeeper.Form
