import Mathlib.Data.Bool.AllAny
import TokenKeeper.Http.Client
import TokenKeeper.Proofs.Http.Header
import TokenKeeper.Proofs.Text.Percent

/-!
# Fields of one hop

A message says under `connection` which of its fields are for one hop: the name of each stands in
one of the pieces between the commas of a value that is visible text, in either case and with any
blanks around it (`Lists`). This does not mention that names are read from the pieces, and pieces
that spell no name are left out; for the names of fields it comes to the same
(`mem_connectionNames_iff`). So what is passed on of a header is known from the names alone
(`withoutHopFields_eq_filter`).

A client that is added to the chain under `x-forwarded-for` makes one value of it, which is visible
text and so a legal value (`Header.appendForwardedFor_eq_insert`).

The fields of a header that was read from a connection have such names (`isFieldName_of_send`).
-/

namespace TokenKeeper.Http

/-! ## Names -/

/-- Whether a text is the name of a field, as it is kept: a legal one in lower case. -/
def IsFieldName (name : String) : Prop :=
  fieldName? (Utf8.ofText name) = some name

instance (name : String) : Decidable (IsFieldName name) :=
  inferInstanceAs (Decidable (_ = _))

/-- A character that a name may hold. -/
structure IsNameChar (c : Char) : Prop where
  isAscii : c.toNat < 0x80
  isTokenByte : isTokenByte c.toNat.toUInt8 = true

theorem lt_of_isTokenByte {b : UInt8} (h : isTokenByte b = true) : b < 0x80 := by
  have hall : ∀ n < 0x100, isTokenByte n.toUInt8 = true → n < 0x80 := by
    decide +kernel
  have hb := hall b.toNat b.toNat_lt
  rw [Nat.toUInt8, UInt8.ofNat_toNat] at hb
  exact hb h

/-- In lower case a character is one of a name exactly if it is in its own case. -/
theorem isNameChar_toLower {c : Char} : IsNameChar c.toLower ↔ IsNameChar c := by
  have hall : ∀ n < 0x80, (Char.ofNat n).toLower.toNat < 0x80 ∧
      isTokenByte (Char.ofNat n).toLower.toNat.toUInt8 = isTokenByte n.toUInt8 := by
    decide +kernel
  by_cases hc : c.toNat < 0x80
  · obtain ⟨hascii, htoken⟩ := hall c.toNat hc
    rw [Char.ofNat_toNat] at hascii htoken
    exact ⟨fun h => ⟨hc, htoken ▸ h.isTokenByte⟩, fun h => ⟨hascii, htoken ▸ h.isTokenByte⟩⟩
  · -- only letters of ASCII have another lower case
    have hsame : c.toLower = c := by
      refine dif_neg fun h => hc ?_
      exact Nat.lt_of_le_of_lt h.2 (by decide)
    rw [hsame]

theorem toLower_toLower {c : Char} (h : IsNameChar c) : c.toLower.toLower = c.toLower := by
  have hall : ∀ n < 0x80, (Char.ofNat n).toLower.toLower = (Char.ofNat n).toLower := by
    decide +kernel
  rw [← Char.ofNat_toNat c]
  exact hall c.toNat h.isAscii

/-- The bytes of a text are those of a name if its characters are. -/
theorem isToken_ofText_iff (s : String) :
    isToken (Utf8.ofText s) = true ↔ s.toList ≠ [] ∧ ∀ c ∈ s.toList, IsNameChar c := by
  rw [isToken, Bool.and_eq_true, decide_eq_true_eq, List.all_eq_true, Utf8.ofText]
  constructor
  · intro h
    obtain ⟨hne, hbytes⟩ := h
    refine ⟨fun hnil => hne (by rw [hnil]; rfl), fun c hc => ?_⟩
    have hmem : ∀ b ∈ Utf8.encodeChar c, isTokenByte b = true := fun b hb =>
      hbytes b (List.mem_flatMap.mpr ⟨c, hc, hb⟩)
    by_cases hascii : c.toNat < 0x80
    · refine ⟨hascii, hmem _ ?_⟩
      rw [Utf8.encodeChar_ascii hascii]
      exact List.mem_singleton_self _
    · obtain ⟨b, rest, hb, hlarge⟩ := Utf8.exists_encodeChar_eq_cons hascii
      have hsmall := lt_of_isTokenByte (hmem b (hb ▸ List.mem_cons_self))
      exact absurd hsmall (UInt8.not_lt.mpr hlarge)
  · intro h
    obtain ⟨hne, hchars⟩ := h
    rw [Utf8.encode_ascii fun c hc => (hchars c hc).isAscii]
    refine ⟨fun hnil => hne (List.map_eq_nil_iff.mp hnil), fun b hb => ?_⟩
    obtain ⟨c, hc, rfl⟩ := List.mem_map.mp hb
    exact (hchars c hc).isTokenByte

/-- **A text spells a name** if its characters may stand in one, and it is that name in lower
case. -/
theorem fieldName?_ofText_eq_some_iff {s name : String} :
    fieldName? (Utf8.ofText s) = some name ↔
      (s.toList ≠ [] ∧ ∀ c ∈ s.toList, IsNameChar c) ∧ s.toList.map Char.toLower = name.toList := by
  rw [← isToken_ofText_iff, fieldName?]
  split
  · rename_i htoken
    have hchars := ((isToken_ofText_iff s).mp htoken).2
    have hread : Percent.asciiText (Utf8.ofText s) = s := by
      rw [Percent.asciiText, Utf8.ofText, Utf8.map_encode_ascii fun c hc => (hchars c hc).isAscii,
        String.ofList_toList]
    rw [hread, Option.some_inj, ← String.toList_inj, String.toList_map, and_iff_right htoken]
  · rename_i htoken
    exact iff_of_false (by simp) fun h => htoken h.1

/-- The characters of a name. -/
theorem isFieldName_iff {name : String} :
    IsFieldName name ↔ (name.toList ≠ [] ∧ ∀ c ∈ name.toList, IsNameChar c) ∧
      name.toList.map Char.toLower = name.toList :=
  fieldName?_ofText_eq_some_iff

/-- Whatever has the letters of a name in either case spells the name. -/
theorem IsFieldName.fieldName?_eq_some_iff {s name : String} (h : IsFieldName name) :
    fieldName? (Utf8.ofText s) = some name ↔ s.toList.map Char.toLower = name.toList := by
  rw [fieldName?_ofText_eq_some_iff]
  refine and_iff_right_of_imp fun hlower => ?_
  obtain ⟨hne, hchars⟩ := (isFieldName_iff.mp h).1
  rw [← hlower] at hne hchars
  refine ⟨fun hnil => hne (by rw [hnil]; rfl), fun c hc => ?_⟩
  exact isNameChar_toLower.mp (hchars _ (List.mem_map_of_mem hc))

/-- What is read as a name is one. -/
theorem isFieldName_of_fieldName? {bytes : List UInt8} {name : String}
    (h : fieldName? bytes = some name) : IsFieldName name := by
  rw [fieldName?] at h
  split at h
  · rename_i htoken
    rw [isToken, Bool.and_eq_true, decide_eq_true_eq, List.all_eq_true] at htoken
    have hname := Option.some.inj h
    rw [← String.toList_inj, String.toList_map, Percent.asciiText, String.toList_ofList,
      List.map_map] at hname
    have hbyte : ∀ b ∈ bytes, IsNameChar (Char.ofNat b.toNat) := by
      intro b hb
      have hsmall := lt_of_isTokenByte (htoken.2 b hb)
      have hnat : (Char.ofNat b.toNat).toNat = b.toNat :=
        Utf8.toNat_ofNat (.inl (Nat.lt_trans (UInt8.lt_iff_toNat_lt.mp hsmall) (by decide)))
      constructor
      · rw [hnat]
        exact hsmall
      · rw [hnat, Nat.toUInt8, UInt8.ofNat_toNat]
        exact htoken.2 b hb
    rw [isFieldName_iff, ← hname]
    refine ⟨⟨fun hnil => htoken.1 (List.map_eq_nil_iff.mp hnil), fun c hc => ?_⟩, ?_⟩
    · obtain ⟨b, hb, rfl⟩ := List.mem_map.mp hc
      exact isNameChar_toLower.mpr (hbyte b hb)
    · rw [List.map_map]
      exact List.map_congr_left fun b hb => toLower_toLower (hbyte b hb)
  · cases h

/-! ## What a header lists -/

namespace Header

variable (h : Header) {name : String}

/-- Whether a header lists a name under `connection`: a value there that is visible text has it
between commas, in either case and with any blanks around it. -/
def Lists (name : String) : Prop :=
  ∃ text ∈ h.visibleTexts "connection", ∃ piece ∈ text.toList.splitOn ',',
    (trimBlanks piece).map Char.toLower = name.toList

instance (name : String) : Decidable (h.Lists name) :=
  inferInstanceAs (Decidable (∃ text ∈ h.visibleTexts "connection",
    ∃ piece ∈ text.toList.splitOn ',', (trimBlanks piece).map Char.toLower = name.toList))

/-- Whether the fields of a name are meant for one hop: always, or because the header lists it. -/
def IsForHop (name : String) : Prop :=
  name ∈ hopNames ∨ h.Lists name

instance (name : String) : Decidable (h.IsForHop name) :=
  inferInstanceAs (Decidable (_ ∨ _))

theorem mem_connectionNames_iff (hname : IsFieldName name) :
    name ∈ h.connectionNames ↔ h.Lists name := by
  simp only [connectionNames, listed, Lists, List.mem_filterMap, List.mem_flatMap, List.mem_map,
    hname.fieldName?_eq_some_iff]
  constructor
  · intro hmem
    obtain ⟨s, ⟨text, htext, piece, hpiece, rfl⟩, hlower⟩ := hmem
    rw [String.toList_ofList] at hlower
    exact ⟨text, htext, piece, hpiece, hlower⟩
  · intro hlists
    obtain ⟨text, htext, piece, hpiece, hlower⟩ := hlists
    refine ⟨_, ⟨text, htext, piece, hpiece, rfl⟩, ?_⟩
    rwa [String.toList_ofList]

/-- The fields of a name that are left are all of them, or none. -/
theorem getAll_withoutHopFields_eq (hname : IsFieldName name) :
    h.withoutHopFields.getAll name = if h.IsForHop name then [] else h.getAll name := by
  rw [withoutHopFields, getAll_eraseAll, getAll_eraseAll]
  simp only [mem_connectionNames_iff h hname]
  by_cases hhop : name ∈ hopNames
  · rw [if_pos hhop, if_pos (.inl hhop)]
  · rw [if_neg hhop]
    simp only [IsForHop, hhop, false_or]

/-- **What is left of a header**, in its order: the fields that are not meant for one hop. -/
theorem withoutHopFields_eq_filter (hlegal : ∀ f ∈ h, IsFieldName f.name) :
    h.withoutHopFields = h.filter fun f => ¬ h.IsForHop f.name := by
  rw [withoutHopFields, eraseAll, eraseAll, List.filter_filter]
  refine List.filter_congr fun f hf => ?_
  rw [Bool.eq_iff_iff]
  simp [IsForHop, mem_connectionNames_iff h (hlegal f hf)]

end Header

/-! ## The chain of clients -/

/-- A character of visible text. -/
def IsVisible (c : Char) : Prop :=
  0x20 ≤ c.toNat ∧ c.toNat < 0x7F ∨ c.toNat = 0x09

theorem IsVisible.isAscii {c : Char} (h : IsVisible c) : c.toNat < 0x80 := by
  rw [IsVisible] at h
  omega

/-- Whether a value is visible text: bytes of ASCII without its controls, and tabs. -/
def IsVisibleValue (value : List UInt8) : Prop :=
  ∀ b ∈ value, 0x20 ≤ b ∧ b < 0x7F ∨ b = 0x09

instance (value : List UInt8) : Decidable (IsVisibleValue value) :=
  inferInstanceAs (Decidable (∀ b ∈ value, _))

namespace IsVisibleValue

variable {value : List UInt8}

theorem isAscii (h : IsVisibleValue value) : ∀ b ∈ value, b < 0x80 := by
  intro b hb
  rcases h b hb with ⟨-, hlt⟩ | rfl
  · exact UInt8.lt_trans hlt (by decide)
  · decide

/-- Visible text is a legal value. -/
theorem isValue (h : IsVisibleValue value) : isValue value = true := by
  rw [Http.isValue, List.all_eq_true]
  intro b hb
  rw [isValueByte, Bool.or_eq_true, Bool.and_eq_true, decide_eq_true_eq, bne_iff_ne, beq_iff_eq]
  rcases h b hb with ⟨hge, hlt⟩ | htab
  · refine .inl ⟨hge, ?_⟩
    rintro rfl
    exact absurd hlt (by decide)
  · exact .inr htab

end IsVisibleValue

theorem isVisibleValue_ofText {text : String} (h : ∀ c ∈ text.toList, IsVisible c) :
    IsVisibleValue (Utf8.ofText text) := by
  rw [Utf8.ofText, Utf8.encode_ascii fun c hc => (h c hc).isAscii]
  intro b hb
  obtain ⟨c, hc, rfl⟩ := List.mem_map.mp hb
  have hnat : c.toNat.toUInt8.toNat = c.toNat := Utf8.toNat_toUInt8_ascii (h c hc).isAscii
  have hvisible := h c hc
  rw [IsVisible] at hvisible
  simp only [UInt8.le_iff_toNat_le, UInt8.lt_iff_toNat_lt, ← UInt8.toNat_inj, hnat,
    UInt8.reduceToNat]
  exact hvisible

theorem visibleText?_eq (value : List UInt8) :
    visibleText? value = if IsVisibleValue value then some (Percent.asciiText value) else none := by
  have hall : (value.all fun b => (0x20 ≤ b && b < 0x7F) || b == 0x09) = true ↔
      IsVisibleValue value := by
    simp [IsVisibleValue]
  exact if_congr hall rfl rfl

/-- The texts of values are those of the values that are visible text. -/
theorem map_ofText_filterMap_visibleText? (values : List (List UInt8)) :
    (values.filterMap visibleText?).map Utf8.ofText = values.filter (IsVisibleValue ·) := by
  induction values with
  | nil => rfl
  | cons value rest ih =>
    have htext := visibleText?_eq value
    by_cases hvalue : IsVisibleValue value
    · rw [if_pos hvalue] at htext
      rw [List.filterMap_cons_some htext, List.map_cons, ih,
        Percent.ofText_asciiText hvalue.isAscii, List.filter_cons, if_pos (decide_eq_true hvalue)]
    · rw [if_neg hvalue] at htext
      rw [List.filterMap_cons_none htext, ih, List.filter_cons, if_neg (by simpa using hvalue)]

/-- The texts of a chain with a client behind them, and commas between. -/
def chainText (values : List (List UInt8)) (client : String) : String :=
  ", ".intercalate (values.filterMap visibleText? ++ [client])

/-- In bytes a chain is made of the values that are visible text, and the client. -/
theorem ofText_chainText (values : List (List UInt8)) (client : String) :
    Utf8.ofText (chainText values client) =
      (Utf8.ofText ", ").intercalate (values.filter (IsVisibleValue ·) ++ [Utf8.ofText client]) := by
  rw [chainText, Utf8.ofText_intercalate, List.map_append, map_ofText_filterMap_visibleText?,
    List.map_singleton]

/-- A chain is visible text if the client behind it is. -/
theorem isVisibleValue_chainText (values : List (List UInt8)) {client : String}
    (hclient : ∀ c ∈ client.toList, IsVisible c) :
    IsVisibleValue (Utf8.ofText (chainText values client)) := by
  rw [ofText_chainText]
  intro b hb
  rcases Pieces.mem_or_of_mem_intercalate hb with hsep | ⟨piece, hpiece, hb⟩
  · have hcomma : IsVisibleValue (Utf8.ofText ", ") := by decide +kernel
    exact hcomma b hsep
  · rcases List.mem_append.mp hpiece with hvalue | hpiece
    · exact of_decide_eq_true (List.mem_filter.mp hvalue).2 b hb
    · obtain rfl := List.mem_singleton.mp hpiece
      exact isVisibleValue_ofText hclient b hb

/-- A client can always be added to the chain, which becomes one value. -/
theorem Header.appendForwardedFor_eq_insert (h : Header) {client : String}
    (hclient : ∀ c ∈ client.toList, IsVisible c) :
    h.appendForwardedFor client =
      h.insert forwardedFor (Utf8.ofText (chainText (h.getAll forwardedFor) client)) :=
  if_pos (isVisibleValue_chainText _ hclient).isValue

/-! ## Headers that arrive -/

theorem isFieldName_of_field? {line : List UInt8} {f : Field} (h : Wire.field? line = some f) :
    IsFieldName f.name := by
  rw [Wire.field?] at h
  obtain ⟨name, hname, h⟩ := Option.bind_eq_some_iff.mp h
  split at h
  · split at h
    · obtain rfl := Option.some.inj h
      exact isFieldName_of_fieldName? hname
    · cases h
  · cases h

theorem isFieldName_of_responseFrom? {method : String} {s : List UInt8} {fuel : Nat}
    {response : Response} (h : Wire.responseFrom? method s fuel = some response) :
    ∀ f ∈ response.header, IsFieldName f.name := by
  -- informational responses are passed over, so the induction is on the fuel
  induction fuel generalizing s with
  | zero => cases h
  | succ fuel ih =>
    rw [Wire.responseFrom?] at h
    obtain ⟨⟨lines, rest⟩, -, h⟩ := Option.bind_eq_some_iff.mp h
    obtain ⟨⟨minor, status⟩, -, h⟩ := Option.bind_eq_some_iff.mp h
    obtain ⟨header, hheader, h⟩ := Option.bind_eq_some_iff.mp h
    split at h
    · exact ih h
    · obtain ⟨body, -, h⟩ := Option.bind_eq_some_iff.mp h
      obtain rfl := Option.some.inj h
      intro f hf
      obtain ⟨line, -, hline⟩ := (Pieces.exists_of_mapM_eq_some hheader).2 f hf
      exact isFieldName_of_field? hline

namespace Network

variable {n n' : Network} {r : Request} {response : Response}

theorem isFieldName_of_answer {seen : SeenRequest}
    (h : n.answer seen = (.response response, n')) : ∀ f ∈ response.header, IsFieldName f.name := by
  rw [answer] at h
  split at h
  · cases h
  · split at h
    · rename_i hread
      cases h
      exact isFieldName_of_responseFrom? hread
    · cases h

theorem isFieldName_of_exchange (h : n.exchange r = (.response response, n')) :
    ∀ f ∈ response.header, IsFieldName f.name := by
  rw [exchange] at h
  simp only at h
  split at h
  · split at h
    · cases h
    · cases h
    · exact isFieldName_of_answer h
  · cases h

/-- The response to a request has fields with names. -/
theorem isFieldName_of_send (h : n.send r = (some (.ok response), n')) :
    ∀ f ∈ response.header, IsFieldName f.name := by
  rw [send] at h
  split at h
  · split at h <;> cases h
    rename_i hexchange
    exact isFieldName_of_exchange hexchange
  · cases h

end Network

end TokenKeeper.Http
