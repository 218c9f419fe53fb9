import Mathlib.Data.Bool.AllAny
import TokenKeeper.Proofs.Text.Utf8
import TokenKeeper.Text.Percent

/-!
# Percent coding piece by piece

Percent coding is local. Writing goes byte by byte, so it commutes with putting texts together
(`encodeText_append`). Reading looks ahead for two digits, so it commutes only where no escape can
reach across: at a byte that is neither `%` nor a digit (`decode_append`), such as a slash.

What has been written is read back if `%` itself is escaped (`decode_encode`). If only bytes are
escaped at which bytes can be cut, what is written is read as what was there before
(`decode_encode_of_not_digit`).
-/

namespace TokenKeeper.Percent

/-! ## Writing -/

@[simp] theorem encode_append (escaped : UInt8 → Bool) (x y : List UInt8) :
    encode escaped (x ++ y) = encode escaped x ++ encode escaped y :=
  List.flatMap_append

theorem encode_cons (escaped : UInt8 → Bool) (b : UInt8) (rest : List UInt8) :
    encode escaped (b :: rest) =
      (if b ≥ 0x80 || escaped b then escape b else [b]) ++ encode escaped rest :=
  List.flatMap_cons

/-- What is written for one character. -/
def encodeChar (escaped : UInt8 → Bool) (c : Char) : List Char :=
  (encode escaped (Utf8.encodeChar c)).map fun b => Char.ofNat b.toNat

/-- Writing goes character by character. -/
theorem toList_encodeText (escaped : UInt8 → Bool) (s : String) :
    (encodeText escaped s).toList = s.toList.flatMap (encodeChar escaped) := by
  simp only [encodeText, asciiText, Utf8.ofText, Utf8.encode, String.toList_ofList]
  induction s.toList with
  | nil => rfl
  | cons c rest ih =>
    rw [List.flatMap_cons, encode_append, List.map_append, ih, List.flatMap_cons]
    rfl

@[simp] theorem encodeText_append (escaped : UInt8 → Bool) (s t : String) :
    encodeText escaped (s ++ t) = encodeText escaped s ++ encodeText escaped t := by
  apply String.toList_inj.mp
  simp only [toList_encodeText, String.toList_append, List.flatMap_append]

/-- The characters that escapes are made of. -/
def escapeAlphabet : List Char :=
  "%0123456789ABCDEF".toList

/-- An escape is made of those characters. -/
theorem ofNat_mem_escapeAlphabet {b d : UInt8} (h : d ∈ escape b) :
    Char.ofNat d.toNat ∈ escapeAlphabet := by
  have hdigit : ∀ n < 16, Char.ofNat (hexDigit n).toNat ∈ escapeAlphabet := by decide
  have hb := b.toNat_lt
  simp only [escape, List.mem_cons, List.not_mem_nil, or_false] at h
  rcases h with rfl | rfl | rfl
  · decide
  · exact hdigit _ (by omega)
  · exact hdigit _ (by omega)

/-- What is written for a character is that character, if it may stand for itself, or an escape. -/
theorem mem_encodeChar {escaped : UInt8 → Bool} {c d : Char} (h : d ∈ encodeChar escaped c) :
    (d = c ∧ c.toNat < 0x80 ∧ escaped c.toNat.toUInt8 = false) ∨ d ∈ escapeAlphabet := by
  obtain ⟨b, hb, rfl⟩ := List.mem_map.mp h
  obtain ⟨a, ha, hb⟩ := List.mem_flatMap.mp hb
  split at hb
  · exact .inr (ofNat_mem_escapeAlphabet hb)
  · rename_i hplain
    obtain rfl := List.mem_singleton.mp hb
    simp only [ge_iff_le, Bool.or_eq_true, decide_eq_true_eq, not_or, UInt8.not_le,
      Bool.not_eq_true] at hplain
    have hc := Utf8.toNat_of_mem_encodeChar ha hplain.1
    have hlt : b.toNat < 0x80 := hplain.1
    refine .inl ⟨by rw [hc, Char.ofNat_toNat], by omega, ?_⟩
    rw [← hc, Nat.toUInt8, UInt8.ofNat_toNat]
    exact hplain.2

theorem encodeChar_of_not_escaped {escaped : UInt8 → Bool} {c : Char} (hc : c.toNat < 0x80)
    (h : escaped c.toNat.toUInt8 = false) : encodeChar escaped c = [c] := by
  have hbyte := Utf8.toNat_toUInt8_ascii hc
  have hlt : ¬ 0x80 ≤ c.toNat.toUInt8 := by
    rw [UInt8.not_le, UInt8.lt_iff_toNat_lt, hbyte]
    exact hc
  simp only [encodeChar, encode, Utf8.encodeChar_ascii hc, List.flatMap_cons, List.flatMap_nil,
    h, ge_iff_le, hlt, decide_false, Bool.or_self, Bool.false_eq_true, if_false, List.append_nil,
    List.map_cons, List.map_nil, hbyte, Char.ofNat_toNat]

/-- A text in which nothing has to be escaped is written as it is. -/
theorem encodeText_of_not_escaped {escaped : UInt8 → Bool} {s : String}
    (h : ∀ c ∈ s.toList, c.toNat < 0x80 ∧ escaped c.toNat.toUInt8 = false) :
    encodeText escaped s = s := by
  apply String.toList_inj.mp
  rw [toList_encodeText]
  generalize s.toList = l at h
  induction l with
  | nil => rfl
  | cons c rest ih =>
    obtain ⟨hc, hplain⟩ := h c List.mem_cons_self
    rw [List.flatMap_cons, encodeChar_of_not_escaped hc hplain,
      ih fun d hd => h d (List.mem_cons_of_mem c hd), List.singleton_append]

/-- What escapes are made of may stand for itself. -/
def KeepsEscapes (escaped : UInt8 → Bool) : Prop :=
  ∀ c ∈ escapeAlphabet, escaped c.toNat.toUInt8 = false

/-- **A text is written as it is exactly if nothing in it has to be escaped**, where what escapes
are made of need not be. -/
theorem encodeText_eq_self_iff {escaped : UInt8 → Bool} (h : KeepsEscapes escaped) {s : String} :
    encodeText escaped s = s ↔
      ∀ c ∈ s.toList, c.toNat < 0x80 ∧ escaped c.toNat.toUInt8 = false := by
  have halphabet : ∀ c ∈ escapeAlphabet, c.toNat < 0x80 := List.all_iff_forall_prop.mp (by decide)
  refine ⟨fun hsame c hc => ?_, encodeText_of_not_escaped⟩
  -- every character of the text is one that has been written
  rw [← hsame, toList_encodeText] at hc
  obtain ⟨d, -, hc⟩ := List.mem_flatMap.mp hc
  rcases mem_encodeChar hc with ⟨rfl, hplain⟩ | hc
  · exact hplain
  · exact ⟨halphabet c hc, h c hc⟩

/-- Only what has to be escaped of the characters in a text decides how it is written. -/
theorem encodeText_congr {escaped escaped' : UInt8 → Bool} {s : String}
    (h : ∀ c ∈ s.toList, c.toNat < 0x80 →
      escaped c.toNat.toUInt8 = escaped' c.toNat.toUInt8) :
    encodeText escaped s = encodeText escaped' s := by
  rw [encodeText, encodeText, Utf8.ofText, Utf8.encode, encode, encode]
  refine congrArg asciiText (congrArg List.flatten (List.map_congr_left fun b hb => ?_))
  obtain ⟨c, hc, hb⟩ := List.mem_flatMap.mp hb
  by_cases hascii : b < 0x80
  · have hbyte := Utf8.toNat_of_mem_encodeChar hb hascii
    have hsame : escaped b = escaped' b := by
      have hc := h c hc (hbyte ▸ hascii)
      rwa [← hbyte, Nat.toUInt8, UInt8.ofNat_toNat] at hc
    rw [hsame]
  · have hlarge : b ≥ 0x80 := UInt8.not_lt.mp hascii
    simp only [hlarge, decide_true, Bool.true_or, if_true]

/-- The characters of the escape of a byte. -/
def escapeText (b : UInt8) : List Char :=
  (escape b).map fun d => Char.ofNat d.toNat

/-- A character is written as it is, or begins with the escape of a byte that has to be escaped. -/
theorem encodeChar_cases (escaped : UInt8 → Bool) (c : Char) :
    encodeChar escaped c = [c] ∨
      ∃ b post, encodeChar escaped c = escapeText b ++ post ∧ (0x80 ≤ b ∨ escaped b = true) := by
  by_cases hc : c.toNat < 0x80
  · rcases he : escaped c.toNat.toUInt8 with - | -
    · exact .inl (encodeChar_of_not_escaped hc he)
    · refine .inr ⟨c.toNat.toUInt8, [], ?_, .inr he⟩
      simp only [encodeChar, encode, Utf8.encodeChar_ascii hc, List.flatMap_cons, he, Bool.or_true,
        if_true, List.flatMap_nil, List.append_nil, escapeText]
  · obtain ⟨b, rest, hbytes, hb⟩ := Utf8.exists_encodeChar_eq_cons hc
    refine .inr ⟨b, (encode escaped rest).map fun d => Char.ofNat d.toNat, ?_, .inl hb⟩
    simp only [encodeChar, hbytes, encode, List.flatMap_cons, ge_iff_le, hb, decide_true,
      Bool.true_or, if_true, List.map_append, escapeText]

/-! ## Reading -/

/-- A byte other than `%` stands for itself. -/
theorem decode_cons_of_ne {b : UInt8} (hb : b ≠ 0x25) (rest : List UInt8) :
    decode (b :: rest) = b :: decode rest := by
  rcases rest with _ | ⟨h, _ | ⟨l, rest⟩⟩
  · rfl
  · rfl
  · rw [decode, if_neg (by simpa using hb)]

/-- Text of ASCII without `%` stands for itself. -/
theorem decode_encode_ascii {s : List Char} (h : ∀ c ∈ s, c.toNat < 0x80 ∧ c ≠ '%') :
    decode (Utf8.encode s) = Utf8.encode s := by
  induction s with
  | nil => rfl
  | cons c rest ih =>
    obtain ⟨hc, hne⟩ := h c List.mem_cons_self
    have hbyte : c.toNat.toUInt8 ≠ 0x25 := by
      intro heq
      refine hne (Char.toNat_inj.mp ?_)
      rw [← Utf8.toNat_toUInt8_ascii hc, heq]
      rfl
    have hrest := ih fun d hd => h d (List.mem_cons_of_mem c hd)
    rw [Utf8.encode] at hrest
    rw [Utf8.encode, List.flatMap_cons, Utf8.encodeChar_ascii hc, List.singleton_append,
      decode_cons_of_ne hbyte, hrest]

/-- A byte that no two digits follow stands for itself. -/
theorem decode_cons_of_hexValue?_none {b h : UInt8} (hh : hexValue? h = none)
    (rest : List UInt8) : decode (b :: h :: rest) = b :: decode (h :: rest) := by
  rcases rest with _ | ⟨l, rest⟩
  · rfl
  · rw [decode, hh]
    simp only [ite_self]

/-- Bytes can be cut in front of a byte that is no digit. -/
theorem decode_append_cons (x : List UInt8) {c : UInt8} (hc : hexValue? c = none)
    (y : List UInt8) : decode (x ++ c :: y) = decode x ++ decode (c :: y) := by
  fun_induction decode x with
  | case1 => rfl
  | case2 b => simp only [List.cons_append, List.nil_append, decode_cons_of_hexValue?_none hc]
  | case3 b d =>
    -- an escape would need the byte `c` as its second digit
    have hstep : decode (b :: d :: c :: y) = b :: decode (d :: c :: y) := by
      by_cases hb : b = 0x25
      · rw [decode, if_pos (by simpa using hb), hc]
        cases hexValue? d <;> rfl
      · exact decode_cons_of_ne hb _
    simp only [List.cons_append, List.nil_append, hstep, decode_cons_of_hexValue?_none hc]
  | case4 b h l rest hb hi lo hhi hlo ih =>
    rw [List.cons_append, List.cons_append, List.cons_append, decode, if_pos hb, hhi, hlo]
    simp only [ih, List.cons_append]
  | case5 b h l rest hb hno ih =>
    rw [List.cons_append, List.cons_append, List.cons_append, decode, if_pos hb]
    split
    · rename_i hi lo hhi hlo
      exact absurd hlo (hno hi lo hhi)
    · exact congrArg (b :: ·) ih
  | case6 b h l rest hb ih =>
    rw [List.cons_append, List.cons_append, List.cons_append, decode, if_neg hb]
    exact congrArg (b :: ·) ih

/-- **Bytes can be cut where no escape can reach across**, at a byte that is neither `%` nor a
digit. -/
theorem decode_append (x : List UInt8) {c : UInt8} (hne : c ≠ 0x25) (hc : hexValue? c = none)
    (y : List UInt8) : decode (x ++ c :: y) = decode x ++ c :: decode y := by
  rw [decode_append_cons x hc, decode_cons_of_ne hne]

/-! ## Reading what has been written -/

theorem hexValue?_hexDigit : ∀ n < 16, hexValue? (hexDigit n) = some n := by
  decide

/-- An escape is read as the byte that it stands for. -/
theorem decode_escape_append (b : UInt8) (rest : List UInt8) :
    decode (escape b ++ rest) = b :: decode rest := by
  have hb := b.toNat_lt
  have hbyte : (b.toNat / 16 * 16 + b.toNat % 16).toUInt8 = b := by
    rw [Nat.div_add_mod', Nat.toUInt8, UInt8.ofNat_toNat]
  simp only [escape, List.cons_append, List.nil_append, decode, beq_self_eq_true, if_true,
    hexValue?_hexDigit _ (show b.toNat / 16 < 16 by omega),
    hexValue?_hexDigit _ (show b.toNat % 16 < 16 by omega), hbyte]

/-- **Bytes are read back**, if `%` never stands for itself. -/
theorem decode_encode {escaped : UInt8 → Bool} (hpercent : escaped 0x25 = true)
    (bytes : List UInt8) : decode (encode escaped bytes) = bytes := by
  induction bytes with
  | nil => rfl
  | cons b rest ih =>
    rw [encode_cons]
    split
    · rw [decode_escape_append, ih]
    · rename_i hplain
      have hb : b ≠ 0x25 := by
        rintro rfl
        exact hplain (by rw [hpercent, Bool.or_true])
      rw [List.singleton_append, decode_cons_of_ne hb, ih]

/-- No digit is outside ASCII. -/
theorem hexValue?_of_not_ascii {b : UInt8} (h : 0x80 ≤ b) : hexValue? b = none := by
  have hb : 0x80 ≤ b.toNat := h
  simp only [hexValue?, Bool.and_eq_true, decide_eq_true_eq, UInt8.le_iff_toNat_le,
    UInt8.reduceToNat]
  rw [if_neg (by omega), if_neg (by omega), if_neg (by omega)]

/-- **What bytes stand for stays the same** when some are escaped that are neither `%` nor digits:
no escape reaches across any of them. -/
theorem decode_encode_of_not_digit {escaped : UInt8 → Bool}
    (h : ∀ b, escaped b = true → b ≠ 0x25 ∧ hexValue? b = none) (bytes : List UInt8) :
    decode (encode escaped bytes) = decode bytes := by
  have hbyte : ∀ b : UInt8, (b ≥ 0x80 || escaped b) = true → b ≠ 0x25 ∧ hexValue? b = none := by
    intro b hescaped
    rcases Bool.or_eq_true_iff.mp hescaped with hlarge | hescaped
    · have hlarge : 0x80 ≤ b := of_decide_eq_true hlarge
      refine ⟨?_, hexValue?_of_not_ascii hlarge⟩
      rintro rfl
      exact absurd hlarge (by decide)
    · exact h b hescaped
  -- what stands in front may end in a part of an escape, so it is carried along
  suffices hfront : ∀ front, decode (front ++ encode escaped bytes) = decode (front ++ bytes) from
    hfront []
  induction bytes with
  | nil => exact fun _ => rfl
  | cons b rest ih =>
    intro front
    rw [encode_cons]
    split
    · rename_i hescaped
      obtain ⟨hne, hdigit⟩ := hbyte b hescaped
      have hrest : decode (encode escaped rest) = decode rest := ih []
      have hcut : decode (front ++ (escape b ++ encode escaped rest)) =
          decode front ++ decode (escape b ++ encode escaped rest) :=
        decode_append_cons front (by decide) _
      rw [hcut, decode_escape_append, hrest, decode_append front hne hdigit]
    · have hnext := ih (front ++ [b])
      rw [List.append_assoc, List.append_assoc] at hnext
      exact hnext

/-- A byte that is written is one that stands for itself, or one of an escape. -/
theorem mem_encode {escaped : UInt8 → Bool} {bytes : List UInt8} {d : UInt8}
    (h : d ∈ encode escaped bytes) : escaped d = false ∨ ∃ b, d ∈ escape b := by
  obtain ⟨b, -, hd⟩ := List.mem_flatMap.mp h
  split at hd
  · exact .inr ⟨b, hd⟩
  · rename_i hplain
    obtain rfl := List.mem_singleton.mp hd
    simp only [Bool.or_eq_true, not_or, Bool.not_eq_true] at hplain
    exact .inl hplain.2

/-- An escape is made of `%` and digits and letters. -/
theorem mem_escape {b d : UInt8} (h : d ∈ escape b) : d = 0x25 ∨ isAlphanumeric d = true := by
  have hdigit : ∀ n < 16, isAlphanumeric (hexDigit n) = true := by decide
  have hb := b.toNat_lt
  simp only [escape, List.mem_cons, List.not_mem_nil, or_false] at h
  rcases h with rfl | rfl | rfl
  · exact .inl rfl
  · exact .inr (hdigit _ (by omega))
  · exact .inr (hdigit _ (by omega))

/-- What is written is ASCII. -/
theorem lt_of_mem_encode {escaped : UInt8 → Bool} {bytes : List UInt8} {d : UInt8}
    (h : d ∈ encode escaped bytes) : d < 0x80 := by
  obtain ⟨b, -, hd⟩ := List.mem_flatMap.mp h
  split at hd
  · rcases mem_escape hd with rfl | hd
    · decide
    · simp only [isAlphanumeric, Bool.or_eq_true, Bool.and_eq_true, decide_eq_true_eq,
        UInt8.le_iff_toNat_le, UInt8.reduceToNat] at hd
      simp only [UInt8.lt_iff_toNat_lt, UInt8.reduceToNat]
      omega
  · rename_i hplain
    obtain rfl := List.mem_singleton.mp hd
    simp only [ge_iff_le, Bool.or_eq_true, decide_eq_true_eq, not_or, UInt8.not_le] at hplain
    exact hplain.1

theorem ofText_asciiText {bytes : List UInt8} (h : ∀ b ∈ bytes, b < 0x80) :
    Utf8.ofText (asciiText bytes) = bytes := by
  have hnat : ∀ b : UInt8, (Char.ofNat b.toNat).toNat = b.toNat := fun b =>
    Utf8.toNat_ofNat (.inl (Nat.lt_trans b.toNat_lt (by decide)))
  have hchars : ∀ c ∈ bytes.map fun b => Char.ofNat b.toNat, c.toNat < 0x80 := by
    intro c hc
    obtain ⟨b, hb, rfl⟩ := List.mem_map.mp hc
    rw [hnat]
    exact h b hb
  rw [Utf8.ofText, asciiText, String.toList_ofList, Utf8.encode_ascii hchars, List.map_map]
  refine (List.map_congr_left fun b _ => ?_).trans (List.map_id bytes)
  rw [Function.comp_apply, hnat, Nat.toUInt8, UInt8.ofNat_toNat, id]

theorem ofText_encodeText (escaped : UInt8 → Bool) (s : String) :
    Utf8.ofText (encodeText escaped s) = encode escaped (Utf8.ofText s) :=
  ofText_asciiText fun _ hd => lt_of_mem_encode hd

/-- **Text is read back**, if `%` never stands for itself. -/
theorem decodeText_encodeText {escaped : UInt8 → Bool} (hpercent : escaped 0x25 = true)
    (s : String) : decodeText (encodeText escaped s) = s := by
  rw [decodeText, ofText_encodeText, decode_encode hpercent, Utf8.toTextLossy_ofText]

end TokenKeeper.Percent
