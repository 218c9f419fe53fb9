import TokenKeeper.Text.Utf8

/-!
# Reading UTF-8 piece by piece

Characters that have been written are read back, one by one (`decode?_encode`). A byte of ASCII
never continues a character, so any bytes can be cut there: what stands before it is read as if
nothing followed, broken characters included, and what follows is read by itself
(`decodeLossy_append_ascii`).
-/

namespace TokenKeeper.Utf8

/-! ## Writing -/

@[simp] theorem encode_append (a b : List Char) : encode (a ++ b) = encode a ++ encode b :=
  List.flatMap_append

@[simp] theorem ofText_append (a b : String) : ofText (a ++ b) = ofText a ++ ofText b := by
  simp only [ofText, String.toList_append, encode_append]

/-- Texts are put together byte by byte as well. -/
theorem ofText_intercalate (separator : String) (texts : List String) :
    ofText (separator.intercalate texts) = (ofText separator).intercalate (texts.map ofText) := by
  induction texts with
  | nil => rfl
  | cons t rest ih =>
    rcases rest with _ | ⟨u, rest⟩
    · rw [String.intercalate_singleton, List.map_singleton, List.intercalate_singleton]
    · rw [String.intercalate_cons_cons, ofText_append, ofText_append, ih, List.map_cons, List.map_cons,
        List.map_cons, List.intercalate_cons_cons]

theorem toNat_lt_top (c : Char) : c.toNat < 0x110000 := by
  have := c.valid
  simp only [UInt32.isValidChar, Nat.isValidChar] at this
  simp only [Char.toNat]
  omega

/-- A byte of ASCII stands for nothing but itself. -/
theorem toNat_of_mem_encodeChar {c : Char} {b : UInt8} (h : b ∈ encodeChar c) (hb : b < 0x80) :
    b.toNat = c.toNat := by
  have hc := toNat_lt_top c
  simp only [UInt8.lt_iff_toNat_lt, UInt8.reduceToNat] at hb
  unfold encodeChar at h
  simp only at h
  -- the bytes of a longer character all have their highest bit set
  repeat' split at h
  all_goals
    simp only [List.mem_cons, List.not_mem_nil, or_false] at h
    rcases h with rfl | rfl | rfl | rfl
  all_goals
    simp only [Nat.toUInt8, UInt8.toNat_ofNat'] at hb ⊢
    omega

theorem toNat_toUInt8 {n : Nat} (h : n < 0x100) : n.toUInt8.toNat = n := by
  simp only [Nat.toUInt8, UInt8.toNat_ofNat']
  omega

theorem toNat_toUInt8_ascii {c : Char} (hc : c.toNat < 0x80) :
    c.toNat.toUInt8.toNat = c.toNat :=
  toNat_toUInt8 (Nat.lt_trans hc (by decide))

theorem encodeChar_ascii {c : Char} (hc : c.toNat < 0x80) : encodeChar c = [c.toNat.toUInt8] := by
  simp only [encodeChar, if_pos hc]

/-- A character outside ASCII starts with a byte outside ASCII. -/
theorem exists_encodeChar_eq_cons {c : Char} (hc : ¬ c.toNat < 0x80) :
    ∃ b rest, encodeChar c = b :: rest ∧ 0x80 ≤ b := by
  rcases h : encodeChar c with _ | ⟨b, rest⟩
  · unfold encodeChar at h
    simp only at h
    repeat' split at h
    all_goals cases h
  · refine ⟨b, rest, rfl, UInt8.not_lt.mp fun hb => hc ?_⟩
    have hmem : b ∈ encodeChar c := by
      rw [h]
      exact List.mem_cons_self
    rw [← toNat_of_mem_encodeChar hmem hb]
    exact hb

/-! ## The head of some bytes -/

/-- The number of bytes that a head takes after the first one. -/
def Head.taken : Head → Nat
  | char _ n => n
  | invalid n => n

/-- The character that is read for a head. -/
def Head.read : Head → Char
  | char c _ => c
  | invalid _ => replacement

@[simp] theorem decodeLossy_nil : decodeLossy [] = [] := by
  rw [decodeLossy]

/-- Reading goes from head to head. -/
theorem decodeLossy_cons (b : UInt8) (rest : List UInt8) :
    decodeLossy (b :: rest) =
      (head b rest).read :: decodeLossy (rest.drop (head b rest).taken) := by
  rw [decodeLossy]
  cases head b rest <;> rfl

/-- A byte of ASCII is a character by itself. -/
theorem head_ascii {b : UInt8} (hb : b < 0x80) (rest : List UInt8) :
    head b rest = .char (Char.ofNat b.toNat) 0 := by
  simp only [head, if_pos hb]

/-- What the first byte of a longer character tells: the second is no byte of ASCII, and the bounds
of both rule out that the character is one of ASCII or a surrogate. -/
theorem leadClass_eq_some {b lo hi : UInt8} {more : Nat} (h : leadClass b = some (more, lo, hi)) :
    0x80 ≤ lo.toNat ∧ hi.toNat ≤ 0xBF ∧
      (more = 1 ∧ 0xC2 ≤ b.toNat ∧ b.toNat ≤ 0xDF ∨
        more = 2 ∧ 0xE0 ≤ b.toNat ∧ b.toNat ≤ 0xEF ∧ (b.toNat = 0xE0 → 0xA0 ≤ lo.toNat) ∧
          (b.toNat = 0xED → hi.toNat ≤ 0x9F) ∨
        more = 3 ∧ 0xF0 ≤ b.toNat ∧ b.toNat ≤ 0xF4 ∧ (b.toNat = 0xF0 → 0x90 ≤ lo.toNat) ∧
          (b.toNat = 0xF4 → hi.toNat ≤ 0x8F)) := by
  rw [leadClass] at h
  simp only [Bool.and_eq_true, decide_eq_true_eq, UInt8.le_iff_toNat_le, UInt8.reduceToNat,
    beq_iff_eq, ← UInt8.toNat_inj] at h
  repeat' split at h
  all_goals cases h
  all_goals
    simp only [UInt8.reduceToNat, true_and]
    omega

/-- A head takes no more than there is. -/
theorem taken_head_le (b : UInt8) (rest : List UInt8) : (head b rest).taken ≤ rest.length := by
  rw [head]
  rcases rest with _ | ⟨c₁, _ | ⟨c₂, _ | ⟨c₃, rest⟩⟩⟩ <;> grind [Head.taken]

/-- What follows a byte of ASCII has no influence on a head in front of it. -/
theorem head_append_ascii (b : UInt8) (rest : List UInt8) {c : UInt8} (hc : c < 0x80)
    (y : List UInt8) : head b (rest ++ c :: y) = head b rest := by
  have hcont : isContinuation c = false := by
    simp only [isContinuation, Bool.and_eq_false_iff, decide_eq_false_iff_not]
    exact .inl (UInt8.not_le.mpr hc)
  unfold head
  split
  · rfl
  rcases hlead : leadClass b with _ | ⟨more, lo, hi⟩
  · rfl
  have hlo : ¬ lo ≤ c := by
    obtain ⟨hlo, -⟩ := leadClass_eq_some hlead
    exact UInt8.not_le.mpr (UInt8.lt_of_lt_of_le hc (UInt8.le_iff_toNat_le.mpr hlo))
  rcases rest with _ | ⟨c₁, _ | ⟨c₂, _ | ⟨c₃, rest⟩⟩⟩
  · simp [hlo]
  · simp [hcont]
  · simp [hcont]
  · rfl

theorem toNat_ofNat {n : Nat} (h : n < 0xD800 ∨ 0xE000 ≤ n ∧ n < 0x110000) :
    (Char.ofNat n).toNat = n := by
  rw [Char.ofNat, dif_pos]
  · rfl
  · simp only [Nat.isValidChar]
    omega

/-- A character of ASCII is read from its own byte only. -/
theorem toNat_of_head {b : UInt8} {rest : List UInt8} {c : Char} {taken : Nat}
    (h : head b rest = .char c taken) (hc : c.toNat < 0x80) : b.toNat = c.toNat := by
  have hb := b.toNat_lt
  rw [head] at h
  split at h
  · cases h
    exact (toNat_ofNat (by omega)).symm
  -- a longer character is too large, and each of its forms gives a number that is a character
  exfalso
  split at h
  · cases h
  rename_i more lo hi hlead
  obtain ⟨hlo, hhi, hlead⟩ := leadClass_eq_some hlead
  split at h
  · cases h
  rename_i c₁ rest₁
  split at h
  · cases h
  rename_i hrange
  simp only [Bool.not_eq_true', Bool.not_eq_false, Bool.and_eq_true, decide_eq_true_eq,
    UInt8.le_iff_toNat_le] at hrange
  split at h
  · rename_i hone
    obtain rfl := beq_iff_eq.mp hone
    cases h
    simp only [payload] at hc
    rw [toNat_ofNat] at hc <;> omega
  rename_i hone
  have hone : more ≠ 1 := by simpa using hone
  split at h
  · cases h
  split at h
  · cases h
  split at h
  · rename_i htwo
    obtain rfl := beq_iff_eq.mp htwo
    cases h
    simp only [payload] at hc
    rw [toNat_ofNat] at hc <;> omega
  rename_i htwo
  have htwo : more ≠ 2 := by simpa using htwo
  split at h
  · cases h
  split at h
  · cases h
  · cases h
    simp only [payload] at hc
    rw [toNat_ofNat] at hc <;> omega

/-- A character of ASCII in a text that is read stands there as its byte. -/
theorem exists_of_mem_toText? {bytes : List UInt8} {t : String} (h : toText? bytes = some t)
    {c : Char} (hmem : c ∈ t.toList) (hc : c.toNat < 0x80) : ∃ b ∈ bytes, b.toNat = c.toNat := by
  obtain ⟨s, hs, rfl⟩ := Option.map_eq_some_iff.mp h
  rw [String.toList_ofList] at hmem
  clear h
  fun_induction decode? bytes generalizing s with
  | case1 =>
    obtain rfl := Option.some.inj hs
    cases hmem
  | case2 b rest d taken hhead ih =>
    obtain ⟨s', hs', rfl⟩ := Option.map_eq_some_iff.mp hs
    rcases List.mem_cons.mp hmem with rfl | hmem
    · exact ⟨b, List.mem_cons_self, toNat_of_head hhead hc⟩
    · obtain ⟨a, ha, hac⟩ := ih s' hs' hmem
      exact ⟨a, List.mem_cons_of_mem b (List.drop_subset taken rest ha), hac⟩
  | case3 b rest taken hhead => cases hs

/-! ## Reading what has been written -/

theorem leadClass_two {b : UInt8} (h : 0xC2 ≤ b.toNat) (h' : b.toNat ≤ 0xDF) :
    leadClass b = some (1, 0x80, 0xBF) := by
  simp only [leadClass, UInt8.le_iff_toNat_le, UInt8.reduceToNat, ← UInt8.toNat_inj, beq_iff_eq,
    Bool.and_eq_true, decide_eq_true_eq]
  grind

theorem leadClass_three {b : UInt8} (h : 0xE0 ≤ b.toNat) (h' : b.toNat ≤ 0xEF) :
    leadClass b =
      some (2, if b.toNat = 0xE0 then 0xA0 else 0x80, if b.toNat = 0xED then 0x9F else 0xBF) := by
  simp only [leadClass, UInt8.le_iff_toNat_le, UInt8.reduceToNat, ← UInt8.toNat_inj, beq_iff_eq,
    Bool.and_eq_true, decide_eq_true_eq]
  grind

theorem leadClass_four {b : UInt8} (h : 0xF0 ≤ b.toNat) (h' : b.toNat ≤ 0xF4) :
    leadClass b =
      some (3, if b.toNat = 0xF0 then 0x90 else 0x80, if b.toNat = 0xF4 then 0x8F else 0xBF) := by
  simp only [leadClass, UInt8.le_iff_toNat_le, UInt8.reduceToNat, ← UInt8.toNat_inj, beq_iff_eq,
    Bool.and_eq_true, decide_eq_true_eq]
  grind

section

variable {b c₁ c₂ c₃ lo hi : UInt8} {more : Nat}

/-- A byte with a class is none of ASCII. -/
theorem not_lt_of_leadClass (h : leadClass b = some (more, lo, hi)) : ¬ b < 0x80 := by
  obtain ⟨-, -, hmore⟩ := leadClass_eq_some h
  simp only [UInt8.lt_iff_toNat_lt, UInt8.reduceToNat]
  omega

theorem head_two (hlead : leadClass b = some (1, lo, hi)) (hlo : lo ≤ c₁) (hhi : c₁ ≤ hi)
    (rest : List UInt8) :
    head b (c₁ :: rest) = .char (Char.ofNat (b.toNat % 0x20 * 0x40 + payload c₁)) 1 := by
  simp [head, not_lt_of_leadClass hlead, hlead, hlo, hhi]

theorem head_three (hlead : leadClass b = some (2, lo, hi)) (hlo : lo ≤ c₁) (hhi : c₁ ≤ hi)
    (h₂ : isContinuation c₂) (rest : List UInt8) :
    head b (c₁ :: c₂ :: rest) =
      .char (Char.ofNat (b.toNat % 0x10 * 0x1000 + payload c₁ * 0x40 + payload c₂)) 2 := by
  simp [head, not_lt_of_leadClass hlead, hlead, hlo, hhi, h₂]

theorem head_four (hlead : leadClass b = some (3, lo, hi)) (hlo : lo ≤ c₁) (hhi : c₁ ≤ hi)
    (h₂ : isContinuation c₂) (h₃ : isContinuation c₃) (rest : List UInt8) :
    head b (c₁ :: c₂ :: c₃ :: rest) =
      .char (Char.ofNat (b.toNat % 0x08 * 0x40000 + payload c₁ * 0x1000 + payload c₂ * 0x40 +
        payload c₃)) 3 := by
  simp [head, not_lt_of_leadClass hlead, hlead, hlo, hhi, h₂, h₃]

end

theorem isContinuation_iff (b : UInt8) : isContinuation b ↔ 0x80 ≤ b.toNat ∧ b.toNat ≤ 0xBF := by
  simp [isContinuation, UInt8.le_iff_toNat_le]

/-- **A character is read from its own bytes**, whatever follows. -/
theorem head_encodeChar (c : Char) :
    ∃ b more, encodeChar c = b :: more ∧
      ∀ rest, head b (more ++ rest) = .char c more.length := by
  have htop := toNat_lt_top c
  have hsurrogate : c.toNat < 0xD800 ∨ 0xDFFF < c.toNat := by
    have hvalid := c.valid
    simp only [UInt32.isValidChar, Nat.isValidChar] at hvalid
    simp only [Char.toNat]
    omega
  have hread : ∀ {n}, n = c.toNat → Char.ofNat n = c := by
    rintro n rfl
    exact Char.ofNat_toNat c
  unfold encodeChar
  simp only
  generalize c.toNat = n at *
  split
  · have h₀ := toNat_toUInt8 (n := n) (by omega)
    refine ⟨_, _, rfl, fun rest => ?_⟩
    have hlt : n.toUInt8 < 0x80 := by
      rw [UInt8.lt_iff_toNat_lt, h₀]
      assumption
    rw [head_ascii hlt, hread h₀, List.length_nil]
  split
  · have h₀ := toNat_toUInt8 (n := 0xC0 + n / 0x40) (by omega)
    have h₁ := toNat_toUInt8 (n := 0x80 + n % 0x40) (by omega)
    refine ⟨_, _, rfl, fun rest => ?_⟩
    rw [List.cons_append, head_two (leadClass_two (by omega) (by omega)), hread]
    · rfl
    · rw [payload, h₀, h₁]
      omega
    all_goals
      simp only [UInt8.le_iff_toNat_le, UInt8.reduceToNat, h₁]
      omega
  split
  · have h₀ := toNat_toUInt8 (n := 0xE0 + n / 0x1000) (by omega)
    have h₁ := toNat_toUInt8 (n := 0x80 + n / 0x40 % 0x40) (by omega)
    have h₂ := toNat_toUInt8 (n := 0x80 + n % 0x40) (by omega)
    refine ⟨_, _, rfl, fun rest => ?_⟩
    rw [List.cons_append, List.cons_append, head_three (leadClass_three (by omega) (by omega)),
      hread]
    · rfl
    · rw [payload, payload, h₀, h₁, h₂]
      omega
    -- the second byte is in the narrower range: nothing overlong, no surrogate
    · rw [UInt8.le_iff_toNat_le, h₀, h₁]
      split <;> simp only [UInt8.reduceToNat] <;> omega
    · rw [UInt8.le_iff_toNat_le, h₀, h₁]
      split <;> simp only [UInt8.reduceToNat] <;> omega
    · rw [isContinuation_iff, h₂]
      omega
  · have h₀ := toNat_toUInt8 (n := 0xF0 + n / 0x40000) (by omega)
    have h₁ := toNat_toUInt8 (n := 0x80 + n / 0x1000 % 0x40) (by omega)
    have h₂ := toNat_toUInt8 (n := 0x80 + n / 0x40 % 0x40) (by omega)
    have h₃ := toNat_toUInt8 (n := 0x80 + n % 0x40) (by omega)
    refine ⟨_, _, rfl, fun rest => ?_⟩
    rw [List.cons_append, List.cons_append, List.cons_append,
      head_four (leadClass_four (by omega) (by omega)), hread]
    · rfl
    · rw [payload, payload, payload, h₀, h₁, h₂, h₃]
      omega
    · rw [UInt8.le_iff_toNat_le, h₀, h₁]
      split <;> simp only [UInt8.reduceToNat] <;> omega
    · rw [UInt8.le_iff_toNat_le, h₀, h₁]
      split <;> simp only [UInt8.reduceToNat] <;> omega
    · rw [isContinuation_iff, h₂]
      omega
    · rw [isContinuation_iff, h₃]
      omega

theorem decodeLossy_encodeChar_append (c : Char) (rest : List UInt8) :
    decodeLossy (encodeChar c ++ rest) = c :: decodeLossy rest := by
  obtain ⟨b, more, hbytes, hhead⟩ := head_encodeChar c
  rw [hbytes, List.cons_append, decodeLossy_cons, hhead]
  simp only [Head.read, Head.taken, List.drop_left]

theorem decode?_encodeChar_append (c : Char) (rest : List UInt8) :
    decode? (encodeChar c ++ rest) = (decode? rest).map (c :: ·) := by
  obtain ⟨b, more, hbytes, hhead⟩ := head_encodeChar c
  rw [hbytes, List.cons_append, decode?, hhead]
  simp only [List.drop_left]

/-- **Characters are read back**, also by who puts up with broken ones. -/
theorem decodeLossy_encode (s : List Char) : decodeLossy (encode s) = s := by
  induction s with
  | nil => exact decodeLossy_nil
  | cons c rest ih =>
    rw [encode] at ih
    rw [encode, List.flatMap_cons, decodeLossy_encodeChar_append, ih]

theorem decode?_encode (s : List Char) : decode? (encode s) = some s := by
  induction s with
  | nil => rw [encode, List.flatMap_nil, decode?]
  | cons c rest ih =>
    rw [encode] at ih
    rw [encode, List.flatMap_cons, decode?_encodeChar_append, ih, Option.map_some]

theorem encode_ascii {s : List Char} (h : ∀ c ∈ s, c.toNat < 0x80) :
    encode s = s.map fun c => c.toNat.toUInt8 := by
  induction s with
  | nil => rfl
  | cons c s ih =>
    rw [encode] at ih
    rw [encode, List.flatMap_cons, encodeChar_ascii (h c List.mem_cons_self),
      ih fun d hd => h d (List.mem_cons_of_mem c hd), List.map_cons, List.singleton_append]

/-- Characters of ASCII have the numbers of their bytes. -/
theorem map_encode_ascii {s : List Char} (h : ∀ c ∈ s, c.toNat < 0x80) :
    ((encode s).map fun b => Char.ofNat b.toNat) = s := by
  have hread : ∀ c ∈ s, Char.ofNat c.toNat.toUInt8.toNat = c := fun c hc => by
    rw [toNat_toUInt8_ascii (h c hc), Char.ofNat_toNat]
  rw [encode_ascii h, List.map_map]
  exact (List.map_congr_left hread).trans (List.map_id s)

theorem toTextLossy_ofText (s : String) : toTextLossy (ofText s) = s := by
  rw [toTextLossy, ofText, decodeLossy_encode, String.ofList_toList]

theorem toText?_ofText (s : String) : toText? (ofText s) = some s := by
  rw [toText?, ofText, decode?_encode, Option.map_some, String.ofList_toList]

/-! ## Cutting at a byte of ASCII -/

/-- **Bytes can be cut at any byte of ASCII.** -/
theorem decodeLossy_append_ascii (x : List UInt8) {c : UInt8} (hc : c < 0x80) (y : List UInt8) :
    decodeLossy (x ++ c :: y) = decodeLossy x ++ Char.ofNat c.toNat :: decodeLossy y := by
  -- reading a head may take several bytes, so the induction is on the length of what is left
  induction hn : x.length using Nat.strongRecOn generalizing x with
  | ind n ih =>
    subst hn
    cases x with
    | nil =>
      rw [List.nil_append, decodeLossy_cons, head_ascii hc, decodeLossy_nil]
      rfl
    | cons b rest =>
      have hle := taken_head_le b rest
      rw [List.cons_append, decodeLossy_cons, decodeLossy_cons, head_append_ascii b rest hc y,
        List.drop_append_of_le_length hle, List.cons_append,
        ih _ (by simp only [List.length_drop, List.length_cons]; omega) _ rfl]

end TokenKeeper.Utf8
