import TokenKeeper.Number.Decimal

/-!
# Reading decimal text

The digits that are written for a number are read as this number (`toNat?_digits`), and so is the
text of a number with a sign (`toInt?_ofInt`).
-/

namespace TokenKeeper.Decimal

/-- What is written is made of digits. -/
theorem mem_digits {n : Nat} {c : Char} (h : c ∈ digits n) : ∃ d < 10, c = digitChar d := by
  fun_induction digits n with
  | case1 n hn => exact ⟨n, hn, List.mem_singleton.mp h⟩
  | case2 n hn ih =>
    rcases List.mem_append.mp h with h | h
    · exact ih h
    · exact ⟨n % 10, Nat.mod_lt n (by decide), List.mem_singleton.mp h⟩

theorem all_isDigit_digits (n : Nat) : (digits n).all isDigit = true := by
  have hdigit : ∀ d < 10, isDigit (digitChar d) = true := by decide
  refine List.all_eq_true.mpr fun c hc => ?_
  obtain ⟨d, hd, rfl⟩ := mem_digits hc
  exact hdigit d hd

theorem digits_ne_nil (n : Nat) : digits n ≠ [] := by
  fun_cases digits n with
  | case1 hn => exact List.cons_ne_nil _ _
  | case2 hn => exact List.append_ne_nil_of_right_ne_nil _ (List.cons_ne_nil _ _)

/-- One more digit at the end of digits. -/
theorem value_concat (ds : List Char) (c : Char) :
    value (ds ++ [c]) = value ds * 10 + digitValue c := by
  simp only [value, List.foldl_append, List.foldl_cons, List.foldl_nil]

theorem value_digits (n : Nat) : value (digits n) = n := by
  have hdigit : ∀ n < 10, digitValue (digitChar n) = n := by decide
  fun_induction digits n with
  | case1 n hn =>
    rw [value, List.foldl_cons, List.foldl_nil, hdigit n hn, Nat.zero_mul, Nat.zero_add]
  | case2 n hn ih =>
    rw [value_concat, ih, hdigit _ (Nat.mod_lt n (by decide))]
    omega

/-- Different numbers are written differently. -/
theorem ofNat_inj {m n : Nat} (h : ofNat m = ofNat n) : m = n := by
  rw [ofNat, ofNat, String.ofList_inj] at h
  rw [← value_digits m, ← value_digits n, h]

/-- **A number is read back.** -/
theorem toNat?_digits (n : Nat) : toNat? (digits n) = some n := by
  rw [toNat?, if_pos ⟨digits_ne_nil n, all_isDigit_digits n⟩, value_digits]

/-- Only zero is written with a zero in front. -/
theorem digits_ne_zero_cons {n : Nat} (hn : n ≠ 0) (rest : List Char) : digits n ≠ '0' :: rest := by
  have hdigit : ∀ d < 10, d ≠ 0 → digitChar d ≠ '0' := by decide
  fun_induction digits n generalizing rest with
  | case1 n hlt => exact fun h => hdigit n hlt hn (List.cons.inj h).1
  | case2 n hlt ih =>
    intro h
    rcases hfront : digits (n / 10) with - | ⟨c, more⟩
    · exact digits_ne_nil _ hfront
    · rw [hfront, List.cons_append] at h
      refine ih (by omega) more ?_
      rw [hfront, (List.cons.inj h).1]

/-! ## Numbers with a sign -/

theorem toList_ofInt (n : Int) :
    (ofInt n).toList = if n < 0 then '-' :: digits n.natAbs else digits n.natAbs := by
  rw [ofInt, ofNat]
  split <;> exact String.toList_ofList

/-- What is written is a sign and digits. -/
theorem mem_ofInt {n : Int} {c : Char} (h : c ∈ (ofInt n).toList) : c = '-' ∨ isDigit c = true := by
  have hdigit := List.all_eq_true.mp (all_isDigit_digits n.natAbs)
  rw [toList_ofInt] at h
  split at h
  · exact (List.mem_cons.mp h).imp_right (hdigit c)
  · exact .inr (hdigit c h)

/-- Digits without a sign in front are read as they are. -/
theorem toInt?_digits (n : Nat) : toInt? (digits n) = some (n : Int) := by
  have hsign : ∀ c, isDigit c = false → ∀ rest, digits n ≠ c :: rest := by
    intro c hc rest h
    have := List.all_eq_true.mp (all_isDigit_digits n) c (h ▸ List.mem_cons_self)
    rw [hc] at this
    cases this
  rw [toInt?]
  · rw [toNat?_digits]
    rfl
  · exact hsign '-' (by decide)
  · exact hsign '+' (by decide)

/-- **A number with a sign is read back.** -/
theorem toInt?_ofInt (n : Int) : toInt? (ofInt n).toList = some n := by
  rw [toList_ofInt]
  split
  · have hsign : -(n.natAbs : Int) = n := by omega
    rw [toInt?, toNat?_digits]
    exact congrArg some hsign
  · have hsign : (n.natAbs : Int) = n := by omega
    rw [toInt?_digits, hsign]

end TokenKeeper.Decimal
