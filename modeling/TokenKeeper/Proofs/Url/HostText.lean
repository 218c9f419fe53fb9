import Mathlib.Data.Bool.AllAny
import TokenKeeper.Proofs.Net.Ip
import TokenKeeper.Proofs.Number.Decimal
import TokenKeeper.Proofs.Text.Percent
import TokenKeeper.Proofs.Url.DomainName
import TokenKeeper.Url.HostText

/-!
# Reading hosts again

The text of a host that is read is read as the same host, where hosts are domains
(`ofDomainText_text`) and elsewhere (`ofFreeText_text`).
-/

namespace TokenKeeper

/-! ## Labels of digits -/

/-- Digits are a label in ASCII. -/
theorem DomainName.isAsciiLabel_digits (n : Nat) : IsAsciiLabel (Decimal.digits n) := by
  have hdigit : ∀ d < 10, IsPlain (Decimal.digitChar d) ∧ Decimal.digitChar d ≠ '.' ∧
      Decimal.digitChar d ≠ 'x' := by
    decide
  have hchar : ∀ c ∈ Decimal.digits n, IsPlain c ∧ c ≠ '.' ∧ c ≠ 'x' := by
    intro c hc
    obtain ⟨d, hd, rfl⟩ := Decimal.mem_digits hc
    exact hdigit d hd
  refine ⟨fun c hc => (hchar c hc).1, fun hc => (hchar _ hc).2.1 rfl, ?_⟩
  have hascii : (Decimal.digits n).all isAscii = true :=
    List.all_eq_true.mpr fun c hc => decide_eq_true (hchar c hc).1.1
  have hmark : ¬ codeMark.isPrefixOf (Decimal.digits n) = true := by
    intro h
    exact (hchar 'x' ((List.isPrefixOf_iff_prefix.mp h).subset (by decide))).2.2 rfl
  rw [asciiLabel?, if_pos hascii, if_neg hmark]

namespace Host

/-! ## Addresses of version 4 -/

/-- The four bytes of an address. -/
def ipv4Bytes (a : Ipv4) : List Nat :=
  [a.value / 16777216 % 256, a.value / 65536 % 256, a.value / 256 % 256, a.value % 256]

theorem toList_ipv4Text (a : Ipv4) :
    a.text.toList = ['.'].intercalate ((ipv4Bytes a).map Decimal.digits) := by
  simp [Ipv4.text, Decimal.ofNat, ipv4Bytes, List.intercalate_cons_cons]

theorem labels_ipv4Text (a : Ipv4) : labels a.text.toList = (ipv4Bytes a).map Decimal.digits := by
  have hsplit : a.text.toList.splitOn '.' = (ipv4Bytes a).map Decimal.digits := by
    rw [toList_ipv4Text]
    refine List.splitOn_intercalate '.' (fun l hl => ?_) (List.cons_ne_nil _ _)
    obtain ⟨n, -, rfl⟩ := List.mem_map.mp hl
    exact (DomainName.isAsciiLabel_digits n).point_not_mem
  rw [labels]
  simp only [hsplit]
  refine if_neg fun h => Decimal.digits_ne_nil (a.value % 256) ?_
  exact Option.some.inj h.2

/-- **An address of version 4 is read back.** -/
theorem ipv4?_text {a : Ipv4} (h : a.value < 4294967296) : ipv4? a.text.toList = some a := by
  have hnumber : ∀ n < 256, number? (Decimal.digits n) = some n := by decide +kernel
  have hbytes : ∀ n ∈ ipv4Bytes a, n < 256 := by
    intro n hn
    simp only [ipv4Bytes, List.mem_cons, List.not_mem_nil, or_false] at hn
    omega
  have hparts := Pieces.mapM_map_eq_some fun n hn => hnumber n (hbytes n hn)
  have hvalue : ((ipv4Bytes a).dropLast ++
      List.replicate (4 - (ipv4Bytes a).dropLast.length) 0).foldl (fun n b => n * 256 + b) 0 +
        a.value % 256 = a.value := by
    simp [ipv4Bytes]
    omega
  have hvalid : (ipv4Bytes a).length ≤ 4 ∧ ((ipv4Bytes a).dropLast.all (· ≤ 255)) ∧
      a.value % 256 < Nat.pow 256 (5 - (ipv4Bytes a).length) := by
    refine ⟨Nat.le_refl 4, List.all_eq_true.mpr fun n hn => ?_, Nat.mod_lt _ (by decide)⟩
    exact decide_eq_true (Nat.le_of_lt_succ (hbytes n (List.dropLast_subset _ hn)))
  have hlast : (ipv4Bytes a).getLast? = some (a.value % 256) := rfl
  simp only [ipv4?, labels_ipv4Text, hparts, Option.bind_eq_bind, Option.bind_some, hlast,
    if_pos hvalid, hvalue]
  rfl

theorem endsInNumber_ipv4Text (a : Ipv4) : endsInNumber a.text.toList = true := by
  have hlast : ((ipv4Bytes a).map Decimal.digits).getLast? =
      some (Decimal.digits (a.value % 256)) := rfl
  simp only [endsInNumber, labels_ipv4Text, hlast, Decimal.all_isDigit_digits]
  simp [Decimal.digits_ne_nil]

/-- An address of version 4 that is read has 32 bits. -/
theorem lt_of_ipv4? {s : List Char} {a : Ipv4} (h : ipv4? s = some a) : a.value < 4294967296 := by
  rw [ipv4?] at h
  obtain ⟨parts, -, h⟩ := Option.bind_eq_some_iff.mp h
  obtain ⟨last, hlast, h⟩ := Option.bind_eq_some_iff.mp h
  simp only at h
  split at h
  · rename_i hvalid
    obtain ⟨hlength, hfirsts, hlt⟩ := hvalid
    obtain rfl := Option.some.inj h
    rcases List.eq_nil_or_concat parts with rfl | ⟨firsts, d, rfl⟩
    · cases hlast
    simp only [List.concat_eq_append, List.getLast?_concat, List.dropLast_concat,
      List.length_append, List.length_singleton, Option.some.injEq] at hlast hlength hfirsts hlt ⊢
    -- the fewer parts there are, the more bits has the last one
    rcases firsts with _ | ⟨a, _ | ⟨b, _ | ⟨c, _ | ⟨e, rest⟩⟩⟩⟩
    all_goals
      simp [Nat.pow_eq] at hlt hfirsts hlength ⊢
      omega
  · cases h

/-! ## Addresses of version 6 -/

theorem exists_of_bracketed {s : List Char} {host : Host} (h : bracketed s = .ok host) :
    ∃ a, host = .v6 a ∧ a.IsWhole := by
  rw [bracketed] at h
  split at h
  · split at h
    · rename_i a ha
      exact ⟨a, (Except.ok.inj h).symm, Ipv6.isWhole_of_ofText? ha⟩
    · cases h
  · cases h

/-- **An address of version 6 is read back** from its brackets. -/
theorem bracketed_text {a : Ipv6} (h : a.IsWhole) :
    bracketed (a.text.toList ++ [']']) = .ok (.v6 a) := by
  rw [bracketed, if_pos List.getLast?_concat, List.dropLast_concat]
  simp only [h.ofText?_text]

theorem toList_v6Text (a : Ipv6) : (v6 a).text.toList = '[' :: (a.text.toList ++ [']']) := by
  simp [text]

/-! ## Where hosts are domains -/

/-- A domain in ASCII is read as it is. -/
theorem ofDomainText_of_toAscii? {domain : List Char}
    (hascii : DomainName.toAscii? domain = some domain)
    (hallowed : ∀ c ∈ domain, isForbiddenInDomain c = false) (hne : domain ≠ []) :
    ofDomainText domain =
      if endsInNumber domain then
        match ipv4? domain with
        | some address => .ok (v4 address)
        | none => .error .invalidIpv4
      else .ok (name (String.ofList domain)) := by
  have hbracket : isForbiddenInDomain '[' = true := by decide
  have hpercent : isForbiddenInDomain '%' = true := by decide
  have hplain := DomainName.isPlain_of_mem_toAscii? hascii
  have hany : ¬ domain.any isForbiddenInDomain = true :=
    Bool.eq_false_iff.mp
      (List.any_eq_false.mpr fun c hc => Bool.eq_false_iff.mp (hallowed c hc))
  have hdecoded : (Utf8.decode? (Percent.decode (Utf8.encode domain))).bind DomainName.toAscii? =
      some domain := by
    rw [Percent.decode_encode_ascii, Utf8.decode?_encode, Option.bind_some, hascii]
    refine fun c hc => ⟨(hplain c hc).1, ?_⟩
    rintro rfl
    exact absurd (hpercent.symm.trans (hallowed _ hc)) (by decide)
  rw [ofDomainText]
  · rw [hdecoded]
    exact (if_neg hany).trans (if_neg hne)
  · rintro rest rfl
    exact absurd (hbracket.symm.trans (hallowed _ List.mem_cons_self)) (by decide)

theorem not_isForbiddenInDomain_ipv4Text (a : Ipv4) :
    ∀ c ∈ a.text.toList, isForbiddenInDomain c = false := by
  have hdigit : ∀ d < 10, isForbiddenInDomain (Decimal.digitChar d) = false := by decide
  have hpoint : isForbiddenInDomain '.' = false := by decide
  intro c hc
  rw [toList_ipv4Text] at hc
  rcases Pieces.mem_of_mem_intercalate hc with rfl | ⟨label, hlabel, hc⟩
  · exact hpoint
  · obtain ⟨n, -, rfl⟩ := List.mem_map.mp hlabel
    obtain ⟨d, hd, rfl⟩ := Decimal.mem_digits hc
    exact hdigit d hd

/-- The text of an address of version 4 is a domain in ASCII. -/
theorem toAscii?_ipv4Text (a : Ipv4) :
    DomainName.toAscii? a.text.toList = some a.text.toList := by
  rw [toList_ipv4Text]
  refine DomainName.toAscii?_intercalate (List.cons_ne_nil _ _) fun label hlabel => ?_
  obtain ⟨n, -, rfl⟩ := List.mem_map.mp hlabel
  exact DomainName.isAsciiLabel_digits n

/-- What is read where hosts are domains: an address, or a domain in ASCII that is none. -/
theorem ofDomainText_cases {s : List Char} {host : Host} (h : ofDomainText s = .ok host) :
    (∃ a, host = v6 a ∧ a.IsWhole) ∨ (∃ a, host = v4 a ∧ a.value < 4294967296) ∨
    ∃ domain, host = name (String.ofList domain) ∧
      (∀ c ∈ domain, isForbiddenInDomain c = false) ∧ domain ≠ [] ∧
      DomainName.toAscii? domain = some domain ∧ endsInNumber domain = false := by
  unfold ofDomainText at h
  split at h
  · exact .inl (exists_of_bracketed h)
  split at h
  · cases h
  rename_i domain hdomain
  obtain ⟨t, -, hdomain⟩ := Option.bind_eq_some_iff.mp hdomain
  split at h
  · cases h
  rename_i hany
  split at h
  · cases h
  rename_i hne
  split at h
  · split at h
    · rename_i a ha
      exact .inr (.inl ⟨a, (Except.ok.inj h).symm, lt_of_ipv4? ha⟩)
    · cases h
  · rename_i hname
    refine .inr (.inr ⟨domain, (Except.ok.inj h).symm, fun c hc => ?_, hne,
      DomainName.toAscii?_of_toAscii? hdomain, Bool.eq_false_iff.mpr hname⟩)
    exact Bool.eq_false_iff.mpr fun hbad => hany (List.any_eq_true.mpr ⟨c, hc, hbad⟩)

/-- **A host that is a domain is read back.** -/
theorem ofDomainText_text {s : List Char} {host : Host} (h : ofDomainText s = .ok host) :
    ofDomainText host.text.toList = .ok host := by
  rcases ofDomainText_cases h with ⟨a, rfl, ha⟩ | ⟨a, rfl, ha⟩ |
    ⟨domain, rfl, hallowed, hne, hascii, hname⟩
  · rw [toList_v6Text, ofDomainText, bracketed_text ha]
  · have hne : a.text.toList ≠ [] := by simp [Ipv4.text]
    rw [text, ofDomainText_of_toAscii? (toAscii?_ipv4Text a) (not_isForbiddenInDomain_ipv4Text a)
      hne, if_pos (endsInNumber_ipv4Text a), ipv4?_text ha]
  · rw [text, String.toList_ofList, ofDomainText_of_toAscii? hascii hallowed hne, hname,
      if_neg Bool.false_ne_true]

/-! ## Elsewhere -/

/-- A character that stands in a free host for itself. -/
structure IsFreeChar (c : Char) : Prop where
  allowed : isForbidden c = false
  isAscii : c.toNat < 0x80
  not_control : Percent.isControl c.toNat.toUInt8 = false

/-- What is read elsewhere: an address in brackets, or a text of such characters. -/
theorem ofFreeText_cases {s : List Char} {host : Host} (h : ofFreeText s = .ok host) :
    (∃ a, host = v6 a ∧ a.IsWhole) ∨ ∃ t, host = name t ∧ ∀ c ∈ t.toList, IsFreeChar c := by
  have hescape : ∀ d ∈ Percent.escapeAlphabet,
      isForbidden d = false ∧ d.toNat < 0x80 ∧ Percent.isControl d.toNat.toUInt8 = false :=
    List.all_iff_forall_prop.mp (by decide)
  unfold ofFreeText at h
  split at h
  · exact .inl (exists_of_bracketed h)
  split at h
  · cases h
  · rename_i hany
    refine .inr ⟨_, (Except.ok.inj h).symm, fun d hd => ?_⟩
    rw [Percent.toList_encodeText, String.toList_ofList] at hd
    obtain ⟨c, hc, hd⟩ := List.mem_flatMap.mp hd
    rcases Percent.mem_encodeChar hd with ⟨rfl, hascii, hcontrol⟩ | hd
    · refine ⟨Bool.eq_false_iff.mpr fun hbad => hany ?_, hascii, hcontrol⟩
      exact List.any_eq_true.mpr ⟨_, hc, hbad⟩
    · obtain ⟨hallowed, hascii, hcontrol⟩ := hescape d hd
      exact ⟨hallowed, hascii, hcontrol⟩

/-- **Any other host is read back.** -/
theorem ofFreeText_text {s : List Char} {host : Host} (h : ofFreeText s = .ok host) :
    ofFreeText host.text.toList = .ok host := by
  rcases ofFreeText_cases h with ⟨a, rfl, ha⟩ | ⟨t, rfl, ht⟩
  · rw [toList_v6Text, ofFreeText, bracketed_text ha]
  · have hbracket : isForbidden '[' = true := by decide
    have hany : t.toList.any isForbidden = false :=
      List.any_eq_false.mpr fun c hc => Bool.eq_false_iff.mp (ht c hc).allowed
    rw [text, ofFreeText]
    · rw [hany, if_neg Bool.false_ne_true, String.ofList_toList,
        Percent.encodeText_of_not_escaped fun c hc => ⟨(ht c hc).isAscii, (ht c hc).not_control⟩]
    · intro rest hrest
      have hallowed := (ht '[' (by rw [hrest]; exact List.mem_cons_self)).allowed
      exact absurd (hbracket.symm.trans hallowed) (by decide)

end Host

end TokenKeeper
