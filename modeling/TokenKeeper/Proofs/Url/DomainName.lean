import Mathlib.Data.Bool.AllAny
import TokenKeeper.Proofs.Text.Pieces
import TokenKeeper.Proofs.Url.Punycode
import TokenKeeper.Url.DomainName

/-!
# Domain names in ASCII

The form in ASCII of a domain name is its own form in ASCII (`toAscii?_of_toAscii?`). Of the mapping
this needs that it writes no capital letter, and of a label in Punycode that it is read back and so
is found to be one that is written.
-/

namespace TokenKeeper.DomainName

/-! ## Mapping -/

/-- A character of ASCII that the mapping leaves as it is. -/
def IsPlain (c : Char) : Prop :=
  c.toNat < 0x80 ∧ c.toLower = c

instance (c : Char) : Decidable (IsPlain c) :=
  inferInstanceAs (Decidable (_ ∧ _))

theorem mapChar_of_isPlain {c : Char} (h : IsPlain c) : mapChar c = [c] := by
  rw [mapChar, if_pos h.1, h.2]

theorem flatMap_mapChar {s : List Char} (h : ∀ c ∈ s, IsPlain c) : s.flatMap mapChar = s := by
  induction s with
  | nil => rfl
  | cons c rest ih =>
    rw [List.flatMap_cons, mapChar_of_isPlain (h c List.mem_cons_self),
      ih fun d hd => h d (List.mem_cons_of_mem c hd), List.singleton_append]

/-- What the mapping writes in ASCII is no capital letter. -/
theorem isPlain_of_mem_mapChar {c d : Char} (h : d ∈ mapChar c) (hd : d.toNat < 0x80) :
    IsPlain d := by
  have hlower : ∀ n < 0x80, (Char.ofNat n).toLower.toLower = (Char.ofNat n).toLower := by
    decide +kernel
  have hrows : ∀ r ∈ rows, ∀ i < r.last + 1 - r.first,
      (Char.ofNat (r.target + i)).toNat < 0x80 → IsPlain (Char.ofNat (r.target + i)) := by
    decide +kernel
  rw [mapChar] at h
  split at h
  · rename_i hc
    obtain rfl := List.mem_singleton.mp h
    have := hlower c.toNat hc
    rw [Char.ofNat_toNat] at this
    exact ⟨hd, this⟩
  split at h
  · cases h
  rename_i hc _
  split at h
  · rename_i r hr
    obtain rfl := List.mem_singleton.mp h
    have hholds := List.find?_some hr
    simp only [Row.holds, Bool.and_eq_true, decide_eq_true_eq] at hholds
    exact hrows r (List.mem_of_find?_eq_some hr) _ (by omega) hd
  · obtain rfl := List.mem_singleton.mp h
    exact absurd hd hc

/-! ## Labels -/

/-- A label in ASCII. -/
structure IsAsciiLabel (label : List Char) : Prop where
  plain : ∀ c ∈ label, IsPlain c
  point_not_mem : '.' ∉ label
  fixed : asciiLabel? label = some label

/-- A label that is written in Punycode is one in ASCII. -/
theorem isAsciiLabel_encode {label : List Char} (hlabel : isLabel label = true)
    (hplain : ∀ c ∈ label, c.toNat < 0x80 → IsPlain c) (hpoint : '.' ∉ label) :
    IsAsciiLabel (codeMark ++ Punycode.encode label) := by
  have hdigit : ∀ d < 36, IsPlain (Punycode.digitChar d) ∧ Punycode.digitChar d ≠ '.' := by decide
  have hmark : ∀ c ∈ '-' :: codeMark, IsPlain c ∧ c ≠ '.' :=
    List.all_iff_forall_prop.mp (by decide)
  have hout : ∀ c ∈ codeMark ++ Punycode.encode label, IsPlain c ∧ c ≠ '.' := by
    intro c hc
    rcases List.mem_append.mp hc with hc | hc
    · exact hmark c (List.mem_cons_of_mem '-' hc)
    · rcases Punycode.mem_encode hc with hc | rfl | ⟨d, hd, rfl⟩
      · obtain ⟨hmem, hc⟩ := List.mem_filter.mp hc
        refine ⟨hplain c hmem (of_decide_eq_true hc), ?_⟩
        rintro rfl
        exact hpoint hmem
      · exact hmark '-' List.mem_cons_self
      · exact hdigit d hd
  have hascii : (codeMark ++ Punycode.encode label).all isAscii = true :=
    List.all_eq_true.mpr fun c hc => decide_eq_true (hout c hc).1.1
  have hcode : codeMark.isPrefixOf (codeMark ++ Punycode.encode label) = true :=
    List.isPrefixOf_iff_prefix.mpr (List.prefix_append _ _)
  refine ⟨fun c hc => (hout c hc).1, fun hc => (hout '.' hc).2 rfl, ?_⟩
  rw [asciiLabel?, if_pos hascii, if_pos hcode, List.drop_left, Punycode.decode?_encode,
    Option.any_some, if_pos hlabel]

/-- **A label in ASCII is its own form in ASCII.** -/
theorem isAsciiLabel_of_asciiLabel? {label out : List Char} (h : asciiLabel? label = some out)
    (hplain : ∀ c ∈ label, c.toNat < 0x80 → IsPlain c) (hpoint : '.' ∉ label) :
    IsAsciiLabel out := by
  have hsame := h
  rw [asciiLabel?] at h
  split at h
  · rename_i hascii
    have hall : ∀ c ∈ label, IsPlain c := fun c hc =>
      hplain c hc (of_decide_eq_true (List.all_eq_true.mp hascii c hc))
    -- a label of ASCII stays as it is, whether or not it is written in Punycode
    have hout : out = label := by
      split at h
      · split at h
        · exact (Option.some.inj h).symm
        · cases h
      · exact (Option.some.inj h).symm
    subst hout
    exact ⟨hall, hpoint, hsame⟩
  · split at h
    · rename_i hlabel
      obtain rfl := Option.some.inj h
      exact isAsciiLabel_encode hlabel hplain hpoint
    · cases h

/-! ## Names -/

theorem isPlain_of_mem_intercalate {labels : List (List Char)}
    (h : ∀ label ∈ labels, IsAsciiLabel label) : ∀ c ∈ ['.'].intercalate labels, IsPlain c := by
  have hpoint : IsPlain '.' := by decide
  intro c hc
  rcases Pieces.mem_of_mem_intercalate hc with rfl | ⟨label, hlabel, hc⟩
  · exact hpoint
  · exact (h label hlabel).plain c hc

/-- A name whose labels are in ASCII is in ASCII. -/
theorem toAscii?_intercalate {labels : List (List Char)} (hne : labels ≠ [])
    (h : ∀ label ∈ labels, IsAsciiLabel label) :
    toAscii? (['.'].intercalate labels) = some (['.'].intercalate labels) := by
  have hfixed := Pieces.mapM_eq_some_self fun label hlabel => (h label hlabel).fixed
  rw [toAscii?, flatMap_mapChar (isPlain_of_mem_intercalate h),
    List.splitOn_intercalate '.' (fun label hlabel => (h label hlabel).point_not_mem) hne, hfixed]
  rfl

/-- A name in ASCII is made of labels in ASCII. -/
theorem exists_of_toAscii? {s domain : List Char} (h : toAscii? s = some domain) :
    ∃ labels, labels ≠ [] ∧ (∀ label ∈ labels, IsAsciiLabel label) ∧
      domain = ['.'].intercalate labels := by
  rw [toAscii?] at h
  obtain ⟨labels, hlabels, h⟩ := Option.bind_eq_some_iff.mp h
  obtain rfl := Option.some.inj h
  obtain ⟨hlength, hread⟩ := Pieces.exists_of_mapM_eq_some hlabels
  refine ⟨labels, ?_, fun label hlabel => ?_, rfl⟩
  · rintro rfl
    exact List.splitOn_ne_nil _ _ (List.eq_nil_of_length_eq_zero hlength.symm)
  · obtain ⟨piece, hpiece, hlabel⟩ := hread label hlabel
    refine isAsciiLabel_of_asciiLabel? hlabel (fun c hc hascii => ?_)
      (Pieces.not_mem_of_mem_splitOn hpiece)
    obtain ⟨d, -, hd⟩ := List.mem_flatMap.mp (Pieces.mem_of_mem_splitOn hpiece hc)
    exact isPlain_of_mem_mapChar hd hascii

/-- A name in ASCII is made of characters that the mapping leaves as they are. -/
theorem isPlain_of_mem_toAscii? {s domain : List Char} (h : toAscii? s = some domain) :
    ∀ c ∈ domain, IsPlain c := by
  obtain ⟨labels, -, hlabels, rfl⟩ := exists_of_toAscii? h
  exact isPlain_of_mem_intercalate hlabels

/-- **The form in ASCII of a name is its own form in ASCII.** -/
theorem toAscii?_of_toAscii? {s domain : List Char} (h : toAscii? s = some domain) :
    toAscii? domain = some domain := by
  obtain ⟨labels, hne, hlabels, rfl⟩ := exists_of_toAscii? h
  exact toAscii?_intercalate hne hlabels

end TokenKeeper.DomainName
