import Mathlib.Data.Bool.AllAny
import TokenKeeper.Http.Target
import TokenKeeper.Proofs.Text.Utf8

/-!
# The characters of a target

A target that is read holds no spaces, no controls and no number sign, and its path no question
mark. So it can be put into the text of a URL, where none of its characters is dropped and none ends
its path.
-/

namespace TokenKeeper.Http.Target

variable {isByte : UInt8 → Bool} {bytes : List UInt8} {text line : String} {t : Target} {c : Char}

/-! ## Texts of one kind of bytes -/

/-- The characters of ASCII in a text whose bytes are of one kind are of this kind. -/
theorem isByte_of_mem_toText? (h : Utf8.toText? bytes = some text) (hall : bytes.all isByte)
    (hc : c ∈ text.toList) (hascii : c.toNat < 0x80) : isByte c.toNat.toUInt8 = true := by
  obtain ⟨b, hb, hbc⟩ := Utf8.exists_of_mem_toText? h hc hascii
  rw [← hbc, Nat.toUInt8, UInt8.ofNat_toNat]
  exact List.all_eq_true.mp hall b hb

/-- If nothing at or below a space is of this kind, they are all above, and none of them is one of
ASCII that is not of this kind. -/
theorem char_of_mem_toText? (hlow : ∀ n ≤ 0x20, isByte n.toUInt8 = false)
    (h : Utf8.toText? bytes = some text) (hall : bytes.all isByte) (hc : c ∈ text.toList) :
    0x20 < c.toNat ∧ ∀ d : Char, d.toNat < 0x80 → isByte d.toNat.toUInt8 = false → c ≠ d := by
  have hbyte := isByte_of_mem_toText? h hall hc
  refine ⟨Nat.lt_of_not_le fun hle => ?_, ?_⟩
  · have hno := hlow c.toNat hle
    rw [hbyte (by omega)] at hno
    cases hno
  · rintro d hd hno rfl
    rw [hbyte hd] at hno
    cases hno

/-- A target that can stand in the text of a URL. -/
structure IsClean (t : Target) : Prop where
  path : ∀ c ∈ t.path.toList, 0x20 < c.toNat ∧ c ≠ '?' ∧ c ≠ '#'
  query : ∀ q, t.query = some q → ∀ c ∈ q.toList, 0x20 < c.toNat ∧ c ≠ '#'

theorem pathChar_of_mem_toText? (h : Utf8.toText? bytes = some text)
    (hall : bytes.all isPathByte) : ∀ c ∈ text.toList, 0x20 < c.toNat ∧ c ≠ '?' ∧ c ≠ '#' := by
  intro c hc
  obtain ⟨hlt, hne⟩ := char_of_mem_toText? (by decide) h hall hc
  exact ⟨hlt, hne '?' (by decide) (by decide), hne '#' (by decide) (by decide)⟩

theorem queryChar_of_mem_toText? (h : Utf8.toText? bytes = some text)
    (hall : bytes.all isQueryByte) : ∀ c ∈ text.toList, 0x20 < c.toNat ∧ c ≠ '#' := by
  intro c hc
  obtain ⟨hlt, hne⟩ := char_of_mem_toText? (by decide) h hall hc
  exact ⟨hlt, hne '#' (by decide) (by decide)⟩

/-! ## What comes of each reader -/

/-- Path and query are read from bytes that may stand in them, and no path is the root. -/
theorem ofPathAndQuery?_cases {s : List UInt8} (h : ofPathAndQuery? s = some t) :
    (t.path = "/" ∨ ∃ bytes, Utf8.toText? bytes = some t.path ∧ bytes.all isPathByte) ∧
      ∀ q, t.query = some q → ∃ bytes, Utf8.toText? bytes = some q ∧ bytes.all isQueryByte := by
  unfold ofPathAndQuery? at h
  simp only at h
  generalize (s.takeWhile (· != 0x23)).takeWhile (· != 0x3F) = front at h
  generalize ((s.takeWhile (· != 0x23)).dropWhile (· != 0x3F)).tail? = rest at h
  split at h
  · rename_i hbytes
    obtain ⟨hpathBytes, hqueryBytes⟩ := hbytes
    obtain ⟨path, hpath, h⟩ := Option.bind_eq_some_iff.mp h
    have hread : (if front = [] then "/" else path) = "/" ∨
        ∃ bytes, Utf8.toText? bytes = some (if front = [] then "/" else path) ∧
          bytes.all isPathByte := by
      split
      · exact .inl rfl
      · exact .inr ⟨front, hpath, hpathBytes⟩
    rcases rest with _ | bytes
    · obtain rfl := Option.some.inj h
      exact ⟨hread, fun q hq => nomatch hq⟩
    · obtain ⟨query, hquery, h⟩ := Option.bind_eq_some_iff.mp h
      obtain rfl := Option.some.inj h
      exact ⟨hread, fun q hq => ⟨bytes, hquery.trans hq, hqueryBytes⟩⟩
  · cases h

/-- A target is a fixed path, or it has been read as path and query. -/
theorem ofText?_cases (h : ofText? line = some t) :
    (t.path = "*" ∨ t.path = "/") ∧ t.query = none ∨ ∃ s, ofPathAndQuery? s = some t := by
  unfold ofText? ofBytes? at h
  split at h
  · cases h
  split at h
  · cases h
  · obtain rfl := Option.some.inj h
    exact .inl ⟨.inl rfl, rfl⟩
  · exact .inr ⟨_, h⟩
  · split at h
    · simp only at h
      split at h
      · exact .inr ⟨_, h⟩
      · cases h
    · split at h
      · obtain rfl := Option.some.inj h
        exact .inl ⟨.inr rfl, rfl⟩
      · cases h

/-- The query of a target has been read from bytes that may stand in it. -/
theorem exists_query_bytes (h : ofText? line = some t) {q : String} (hq : t.query = some q) :
    ∃ bytes, Utf8.toText? bytes = some q ∧ bytes.all isQueryByte := by
  rcases ofText?_cases h with ⟨-, hnone⟩ | ⟨s, hs⟩
  · rw [hnone] at hq
    cases hq
  · exact (ofPathAndQuery?_cases hs).2 q hq

/-- **A target that is read can stand in the text of a URL.** -/
theorem isClean_of_ofText? (h : ofText? line = some t) : t.IsClean := by
  have hfixed : ∀ c ∈ "*/".toList, 0x20 < c.toNat ∧ c ≠ '?' ∧ c ≠ '#' :=
    List.all_iff_forall_prop.mp (by decide)
  have hroot : ∀ c ∈ "/".toList, 0x20 < c.toNat ∧ c ≠ '?' ∧ c ≠ '#' := fun c hc =>
    hfixed c (List.mem_append_right ['*'] hc)
  constructor
  case path =>
    rcases ofText?_cases h with ⟨hpath | hpath, -⟩ | ⟨s, hs⟩
    · rw [hpath]
      exact fun c hc => hfixed c (List.mem_append_left ['/'] hc)
    · rwa [hpath]
    · rcases (ofPathAndQuery?_cases hs).1 with hpath | ⟨bytes, hread, hall⟩
      · rwa [hpath]
      · exact pathChar_of_mem_toText? hread hall
  case query =>
    intro q hq
    obtain ⟨bytes, hread, hall⟩ := exists_query_bytes h hq
    exact queryChar_of_mem_toText? hread hall

end TokenKeeper.Http.Target
