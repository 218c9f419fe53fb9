import TokenKeeper.Text.Base64

/-!
# Reading base64

The bytes that are written in base64 are the bytes that are read from it (`decode?_encode`). Four
digits are read at a time, and only the last four may end in pads.
-/

namespace TokenKeeper.Base64

/-- A digit is read as the six bits that it stands for. -/
theorem digitValue?_digit : ∀ n < 64, digitValue? (digit n) = some n := by
  decide

theorem digit_ne_pad : ∀ n < 64, (digit n == pad) = false := by
  decide

variable {w x y z : Nat}

/-- Four digits are three bytes. -/
theorem decode?_digits (hw : w < 64) (hx : x < 64) (hy : y < 64) (hz : z < 64)
    (rest : List UInt8) :
    decode? (digit w :: digit x :: digit y :: digit z :: rest) =
      (decode? rest).map fun more =>
        (w * 4 + x / 16).toUInt8 :: (x % 16 * 16 + y / 4).toUInt8 ::
          (y % 4 * 64 + z).toUInt8 :: more := by
  rw [decode?, digitValue?_digit w hw, digitValue?_digit x hx, digitValue?_digit y hy,
    digitValue?_digit z hz, digit_ne_pad y hy, digit_ne_pad z hz]
  simp only [Bool.and_false, Bool.false_eq_true, if_false]
  rcases decode? rest with - | more <;> rfl

/-- Three digits and a pad are two bytes, if no bit is left over. -/
theorem decode?_one_pad (hw : w < 64) (hx : x < 64) (hy : y < 64) (hleft : y % 4 = 0) :
    decode? [digit w, digit x, digit y, pad] =
      some [(w * 4 + x / 16).toUInt8, (x % 16 * 16 + y / 4).toUInt8] := by
  simp [decode?, digitValue?_digit w hw, digitValue?_digit x hx, digitValue?_digit y hy,
    digit_ne_pad y hy, hleft]

/-- Two digits and two pads are one byte, if no bit is left over. -/
theorem decode?_two_pads (hw : w < 64) (hx : x < 64) (hleft : x % 16 = 0) :
    decode? [digit w, digit x, pad, pad] = some [(w * 4 + x / 16).toUInt8] := by
  simp [decode?, digitValue?_digit w hw, digitValue?_digit x hx, hleft]

/-- **Bytes are read back.** -/
theorem decode?_encode (bytes : List UInt8) : decode? (encode bytes) = some bytes := by
  have hbyte : ∀ {b : UInt8} {n : Nat}, n = b.toNat → n.toUInt8 = b := by
    rintro b n rfl
    exact UInt8.ofNat_toNat
  fun_induction encode bytes with
  | case1 => rfl
  | case2 a =>
    have ha := a.toNat_lt
    rw [decode?_two_pads (by omega) (by omega) (by omega), hbyte]
    omega
  | case3 a b =>
    have ha := a.toNat_lt
    have hb := b.toNat_lt
    rw [decode?_one_pad (by omega) (by omega) (by omega) (by omega), hbyte (b := a),
      hbyte (b := b)] <;> omega
  | case4 a b c rest ih =>
    have ha := a.toNat_lt
    have hb := b.toNat_lt
    have hc := c.toNat_lt
    rw [decode?_digits (by omega) (by omega) (by omega) (by omega), ih, Option.map_some,
      hbyte (b := a), hbyte (b := b), hbyte (b := c)] <;> omega

/-- Only digits and pads are written. -/
theorem mem_encode {bytes : List UInt8} {d : UInt8} (h : d ∈ encode bytes) :
    d = pad ∨ ∃ n < 64, d = digit n := by
  fun_induction encode bytes with
  | case1 => cases h
  | case2 a =>
    have ha := a.toNat_lt
    simp only [List.mem_cons, List.not_mem_nil, or_false] at h
    rcases h with h | h | h | h
    · exact .inr ⟨_, by omega, h⟩
    · exact .inr ⟨_, by omega, h⟩
    · exact .inl h
    · exact .inl h
  | case3 a b =>
    have ha := a.toNat_lt
    have hb := b.toNat_lt
    simp only [List.mem_cons, List.not_mem_nil, or_false] at h
    rcases h with h | h | h | h
    · exact .inr ⟨_, by omega, h⟩
    · exact .inr ⟨_, by omega, h⟩
    · exact .inr ⟨_, by omega, h⟩
    · exact .inl h
  | case4 a b c rest ih =>
    have ha := a.toNat_lt
    have hb := b.toNat_lt
    have hc := c.toNat_lt
    simp only [List.mem_cons] at h
    rcases h with h | h | h | h | h
    · exact .inr ⟨_, by omega, h⟩
    · exact .inr ⟨_, by omega, h⟩
    · exact .inr ⟨_, by omega, h⟩
    · exact .inr ⟨_, by omega, h⟩
    · exact ih h

theorem encode_ne_nil {bytes : List UInt8} (h : bytes ≠ []) : encode bytes ≠ [] := by
  fun_cases encode bytes with
  | case1 => exact h
  | case2 a => exact List.cons_ne_nil _ _
  | case3 a b => exact List.cons_ne_nil _ _
  | case4 a b c rest => exact List.cons_ne_nil _ _

end TokenKeeper.Base64
