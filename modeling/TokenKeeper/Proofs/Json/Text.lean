import Mathlib.Data.List.Forall2
import TokenKeeper.Json.Reader
import TokenKeeper.Proofs.Text.Utf8

/-!
# Spellings of JSON strings

A text may be spelled in many ways between the quotes of a JSON string: a character by itself, by
an escape of one letter, by the digits of its number in either case, and beyond U+FFFF by a
surrogate pair. `Spells` is the relation of a text to all its spellings. Each of them is found
between its quotes (`stringRest?_of_spells`) and is read as the text (`decode?_of_spells`), and
every text has one in which nothing is escaped but what has to be (`spells_encode`).
-/

namespace TokenKeeper.JsonText

/-- The letters that may follow a backslash, each with the character that it stands for. -/
def letters : List (Char × Char) :=
  [('"', '"'), ('\\', '\\'), ('/', '/'), ('b', '\x08'), ('f', '\x0C'), ('n', '\n'), ('r', '\r'),
    ('t', '\t')]

/-- A hexadecimal digit in either case, and its value. -/
def IsHexDigit (d : Char) (n : Nat) : Prop :=
  "0123456789abcdef".toList[n]? = some d ∨ "0123456789ABCDEF".toList[n]? = some d

instance (d : Char) (n : Nat) : Decidable (IsHexDigit d n) :=
  inferInstanceAs (Decidable (_ ∨ _))

/-- Four digits of a number of 16 bits. -/
def SpellsUnit (n : Nat) (w : List Char) : Prop :=
  List.Forall₂ IsHexDigit w [n / 4096, n / 256 % 16, n / 16 % 16, n % 16]

/-- A character, and what may be written for it. -/
inductive SpellsChar : Char → List Char → Prop where
  | plain {c : Char} (hcontrol : 0x20 ≤ c.toNat) (hquote : c ≠ '"') (hbackslash : c ≠ '\\') :
      SpellsChar c [c]
  | letter {c e : Char} (h : (e, c) ∈ letters) : SpellsChar c ['\\', e]
  | unit {c : Char} {w : List Char} (h : SpellsUnit c.toNat w) : SpellsChar c ('\\' :: 'u' :: w)
  | halves {c : Char} {v w : List Char} (hbeyond : 0x10000 ≤ c.toNat)
      (hhigh : SpellsUnit (0xD800 + (c.toNat - 0x10000) / 0x400) v)
      (hlow : SpellsUnit (0xDC00 + (c.toNat - 0x10000) % 0x400) w) :
      SpellsChar c ('\\' :: 'u' :: v ++ '\\' :: 'u' :: w)

/-- A text, and what may be written for it. -/
inductive Spells : List Char → List Char → Prop where
  | nil : Spells [] []
  | cons {c : Char} {s v w : List Char} (hc : SpellsChar c v) (hs : Spells s w) :
      Spells (c :: s) (v ++ w)

/-! ## Digits -/

theorem hexValue?_of_isHexDigit {d : Char} {n : Nat} (h : IsHexDigit d n) :
    hexValue? d = some n := by
  have hlower : ∀ n < 16, ("0123456789abcdef".toList[n]?).all (hexValue? · = some n) := by decide
  have hupper : ∀ n < 16, ("0123456789ABCDEF".toList[n]?).all (hexValue? · = some n) := by decide
  rcases h with h | h
  · have hread := hlower n (List.getElem?_eq_some_iff.mp h).1
    rw [h] at hread
    exact of_decide_eq_true hread
  · have hread := hupper n (List.getElem?_eq_some_iff.mp h).1
    rw [h] at hread
    exact of_decide_eq_true hread

/-- A digit is one byte, which is a digit for the reader of bytes. -/
theorem encodeChar_of_isHexDigit {d : Char} {n : Nat} (h : IsHexDigit d n) :
    Utf8.encodeChar d = [d.toNat.toUInt8] ∧ Json.isHex d.toNat.toUInt8 = true := by
  have hvalue := hexValue?_of_isHexDigit h
  rw [hexValue?] at hvalue
  split at hvalue
  · rename_i hascii
    exact ⟨Utf8.encodeChar_ascii hascii, by rw [Json.isHex, hvalue, Option.isSome_some]⟩
  · cases hvalue

/-- Four digits are read as the number that they spell. -/
theorem number?_of_spellsUnit {n : Nat} {w : List Char} (h : SpellsUnit n w) :
    ∃ a b c d, w = [a, b, c, d] ∧ number? a b c d = some n := by
  rcases h with - | @⟨a, _, _, _, ha, - | @⟨b, _, _, _, hb, - | @⟨c, _, _, _, hc,
    - | @⟨d, _, _, _, hd, ⟨⟩⟩⟩⟩⟩
  refine ⟨a, b, c, d, rfl, ?_⟩
  rw [number?, hexValue?_of_isHexDigit ha, hexValue?_of_isHexDigit hb,
    hexValue?_of_isHexDigit hc, hexValue?_of_isHexDigit hd]
  refine congrArg some ?_
  omega

/-- Four digits are found behind their backslash. -/
theorem stringRest?_unit_append {n : Nat} {w : List Char} (h : SpellsUnit n w)
    (rest : List UInt8) :
    Json.stringRest? (Utf8.encode ('\\' :: 'u' :: w) ++ rest) =
      Json.consed (Utf8.encode ('\\' :: 'u' :: w)) (Json.stringRest? rest) := by
  rcases h with - | ⟨ha, - | ⟨hb, - | ⟨hc, - | ⟨hd, ⟨⟩⟩⟩⟩⟩
  obtain ⟨hbytesa, hhexa⟩ := encodeChar_of_isHexDigit ha
  obtain ⟨hbytesb, hhexb⟩ := encodeChar_of_isHexDigit hb
  obtain ⟨hbytesc, hhexc⟩ := encodeChar_of_isHexDigit hc
  obtain ⟨hbytesd, hhexd⟩ := encodeChar_of_isHexDigit hd
  have hback : Utf8.encodeChar '\\' = [0x5C] := by decide
  have hu : Utf8.encodeChar 'u' = [0x75] := by decide
  simp only [Utf8.encode, List.flatMap_cons, List.flatMap_nil, hback, hu, hbytesa, hbytesb,
    hbytesc, hbytesd, List.cons_append, List.nil_append]
  rw [Json.stringRest?, if_pos]
  rw [hhexa, hhexb, hhexc, hhexd]
  rfl

/-! ## Letters -/

/-- A letter is read as its character, by the reader of characters and by that of bytes. -/
theorem read_of_mem_letters {e c : Char} (h : (e, c) ∈ letters) :
    e ≠ 'u' ∧ escaped? e = some c ∧
      ∃ b, Utf8.encodeChar e = [b] ∧ b ≠ 0x75 ∧ Json.isEscapeLetter b = true := by
  have hall : ∀ p ∈ letters, p.1 ≠ 'u' ∧ escaped? p.1 = some p.2 ∧
      Utf8.encodeChar p.1 = [p.1.toNat.toUInt8] ∧ p.1.toNat.toUInt8 ≠ 0x75 ∧
      Json.isEscapeLetter p.1.toNat.toUInt8 = true := by
    decide
  obtain ⟨hu, hread, hbytes⟩ := hall (e, c) h
  exact ⟨hu, hread, _, hbytes⟩

/-! ## Resolving the escapes -/

theorem not_isHalf_of_char (c : Char) :
    isHighHalf c.toNat = false ∧ isLowHalf c.toNat = false := by
  have hvalid := c.valid
  simp only [UInt32.isValidChar, Nat.isValidChar] at hvalid
  simp only [isHighHalf, isLowHalf, Bool.and_eq_false_iff, decide_eq_false_iff_not, Char.toNat]
  omega

/-- **What is written for a character is read as it**, whatever follows. -/
theorem unescape_append_of_spellsChar {c : Char} {v : List Char} (h : SpellsChar c v)
    (w : List Char) : unescape (v ++ w) = (unescape w).map (c :: ·) := by
  cases h with
  | plain hcontrol hquote hbackslash =>
    rw [List.singleton_append, unescape, if_neg hbackslash]
    · exact fun a b d e rest h => absurd h hbackslash
    · exact fun c rest h => absurd h hbackslash
  | letter h =>
    obtain ⟨hu, hread, -⟩ := read_of_mem_letters h
    rw [List.cons_append, List.singleton_append, unescape, hread]
    exact fun a b d e rest h => absurd h hu
  | unit h =>
    obtain ⟨a, b, d, e, rfl, hnumber⟩ := number?_of_spellsUnit h
    obtain ⟨hhigh, hlow⟩ := not_isHalf_of_char c
    simp only [List.cons_append, List.nil_append]
    rw [unescape, hnumber]
    simp only [hhigh, hlow, Char.ofNat_toNat]
    rfl
  | halves hbeyond hhigh hlow =>
    obtain ⟨a, b, d, e, rfl, hnumber⟩ := number?_of_spellsUnit hhigh
    obtain ⟨a', b', d', e', rfl, hnumber'⟩ := number?_of_spellsUnit hlow
    have htop := Utf8.toNat_lt_top c
    have hfirst : isHighHalf (0xD800 + (c.toNat - 0x10000) / 0x400) = true := by
      simp only [isHighHalf, Bool.and_eq_true, decide_eq_true_eq]
      omega
    have hsecond : isLowHalf (0xDC00 + (c.toNat - 0x10000) % 0x400) = true := by
      simp only [isLowHalf, Bool.and_eq_true, decide_eq_true_eq]
      omega
    have hwhole : 0x10000 + (0xD800 + (c.toNat - 0x10000) / 0x400 - 0xD800) * 0x400 +
        (0xDC00 + (c.toNat - 0x10000) % 0x400 - 0xDC00) = c.toNat := by
      omega
    simp only [List.cons_append, List.nil_append]
    rw [unescape, hnumber]
    simp only [hfirst, hnumber', hsecond, if_true, hwhole, Char.ofNat_toNat]

theorem unescape_of_spells {s w : List Char} (h : Spells s w) : unescape w = some s := by
  induction h with
  | nil => rw [unescape]
  | cons hc hs ih => rw [unescape_append_of_spellsChar hc, ih, Option.map_some]

/-- **A spelling is read as the text** that it spells. -/
theorem decode?_of_spells {s : String} {w : List Char} (h : Spells s.toList w) :
    decode? (Utf8.encode w) = some s := by
  rw [decode?, Utf8.decode?_encode, Option.bind_eq_bind, Option.bind_some, unescape_of_spells h]
  exact congrArg some String.ofList_toList

/-! ## The end of a string -/

/-- A byte that may stand in a string by itself. -/
theorem stringRest?_cons {b : UInt8} (hcontrol : ¬ b < 0x20) (hquote : b ≠ 0x22)
    (hbackslash : b ≠ 0x5C) (rest : List UInt8) :
    Json.stringRest? (b :: rest) = Json.consed [b] (Json.stringRest? rest) := by
  rw [Json.stringRest?, if_neg]
  · simp [hcontrol, hbackslash]
  · exact hquote
  · exact fun a b d e rest h => absurd h hbackslash
  · exact fun e rest h => absurd h hbackslash

theorem consed_consed (v w : List UInt8) (r : Option (List UInt8 × List UInt8)) :
    Json.consed v (Json.consed w r) = Json.consed (v ++ w) r := by
  rcases r with - | ⟨raw, rest⟩
  · rfl
  · simp only [Json.consed, Option.map_some, List.append_assoc]

/-- Bytes that may stand in a string by themselves. -/
theorem stringRest?_append {front : List UInt8}
    (h : ∀ b ∈ front, ¬ b < 0x20 ∧ b ≠ 0x22 ∧ b ≠ 0x5C) (rest : List UInt8) :
    Json.stringRest? (front ++ rest) = Json.consed front (Json.stringRest? rest) := by
  induction front with
  | nil =>
    rw [List.nil_append, Json.consed]
    exact Option.map_id'.symm
  | cons b front ih =>
    obtain ⟨hcontrol, hquote, hbackslash⟩ := h b List.mem_cons_self
    rw [List.cons_append, stringRest?_cons hcontrol hquote hbackslash,
      ih fun d hd => h d (List.mem_cons_of_mem b hd), consed_consed, List.singleton_append]

/-- The bytes of a character that stands for itself may stand in a string by themselves. -/
theorem plain_of_mem_encodeChar {c : Char} (hcontrol : 0x20 ≤ c.toNat) (hquote : c ≠ '"')
    (hbackslash : c ≠ '\\') {b : UInt8} (hb : b ∈ Utf8.encodeChar c) :
    ¬ b < 0x20 ∧ b ≠ 0x22 ∧ b ≠ 0x5C := by
  have hquote : c.toNat ≠ 0x22 := fun h => hquote (Char.toNat_inj.mp h)
  have hbackslash : c.toNat ≠ 0x5C := fun h => hbackslash (Char.toNat_inj.mp h)
  have hsame := Utf8.toNat_of_mem_encodeChar hb
  simp only [ne_eq, ← UInt8.toNat_inj, UInt8.lt_iff_toNat_lt, UInt8.reduceToNat] at hsame ⊢
  omega

/-- **What is written for a character is passed over**, whatever follows. -/
theorem stringRest?_append_of_spellsChar {c : Char} {v : List Char} (h : SpellsChar c v)
    (rest : List UInt8) :
    Json.stringRest? (Utf8.encode v ++ rest) =
      Json.consed (Utf8.encode v) (Json.stringRest? rest) := by
  cases h with
  | plain hcontrol hquote hbackslash =>
    rw [Utf8.encode, List.flatMap_singleton]
    exact stringRest?_append (fun b hb => plain_of_mem_encodeChar hcontrol hquote hbackslash hb) _
  | letter h =>
    obtain ⟨-, -, b, hbytes, hu, hletter⟩ := read_of_mem_letters h
    have hback : Utf8.encodeChar '\\' = [0x5C] := by decide
    simp only [Utf8.encode, List.flatMap_cons, List.flatMap_nil, hback, hbytes, List.cons_append,
      List.nil_append]
    rw [Json.stringRest?, if_pos hletter]
    exact fun a b d e rest h => absurd h hu
  | unit h => exact stringRest?_unit_append h rest
  | halves hbeyond hhigh hlow =>
    rw [Utf8.encode_append, List.append_assoc, stringRest?_unit_append hhigh,
      stringRest?_unit_append hlow, consed_consed]

theorem stringRest?_append_of_spells {s w : List Char} (h : Spells s w) (rest : List UInt8) :
    Json.stringRest? (Utf8.encode w ++ rest) =
      Json.consed (Utf8.encode w) (Json.stringRest? rest) := by
  induction h with
  | nil => exact stringRest?_append (fun b hb => absurd hb List.not_mem_nil) rest
  | cons hc hs ih =>
    rw [Utf8.encode_append, List.append_assoc, stringRest?_append_of_spellsChar hc, ih,
      consed_consed]

/-- **A spelling ends at the quote behind it.** -/
theorem stringRest?_of_spells {s w : List Char} (h : Spells s w) (rest : List UInt8) :
    Json.stringRest? (Utf8.encode w ++ 0x22 :: rest) = some (Utf8.encode w, rest) := by
  rw [stringRest?_append_of_spells h, Json.stringRest?, Json.consed, Option.map_some]
  simp only [List.append_nil]

/-! ## The plainest spelling -/

/-- The four digits of a number of 16 bits. -/
def hex4 (n : Nat) : List Char :=
  [n / 4096 % 16, n / 256 % 16, n / 16 % 16, n % 16].map fun d =>
    Char.ofNat (Percent.hexDigit d).toNat

/-- One character between the quotes: quote, backslash and controls are escaped. -/
def encodeChar (c : Char) : List Char :=
  if c = '"' then ['\\', '"']
  else if c = '\\' then ['\\', '\\']
  else if c.toNat < 0x20 then '\\' :: 'u' :: hex4 c.toNat
  else [c]

theorem spellsUnit_hex4 {n : Nat} (h : n < 0x10000) : SpellsUnit n (hex4 n) := by
  have hdigit : ∀ d < 16, IsHexDigit (Char.ofNat (Percent.hexDigit d).toNat) d := by decide
  have hmod : ∀ m, m % 16 < 16 := fun m => Nat.mod_lt m (by decide)
  have hfirst : n / 4096 = n / 4096 % 16 := by omega
  rw [SpellsUnit, hfirst]
  exact .cons (hdigit _ (hmod _)) (.cons (hdigit _ (hmod _)) (.cons (hdigit _ (hmod _))
    (.cons (hdigit _ (hmod _)) .nil)))

theorem spellsChar_encodeChar (c : Char) : SpellsChar c (encodeChar c) := by
  fun_cases encodeChar c with
  | case1 hquote =>
    subst hquote
    exact .letter (by decide)
  | case2 hquote hbackslash =>
    subst hbackslash
    exact .letter (by decide)
  | case3 hquote hbackslash hcontrol => exact .unit (spellsUnit_hex4 (by omega))
  | case4 hquote hbackslash hcontrol =>
    exact .plain (Nat.le_of_not_lt hcontrol) hquote hbackslash

/-- Every text has a spelling. -/
theorem spells_encode (s : List Char) : Spells s (s.flatMap encodeChar) := by
  induction s with
  | nil => exact .nil
  | cons c s ih => exact .cons (spellsChar_encodeChar c) ih

end TokenKeeper.JsonText
