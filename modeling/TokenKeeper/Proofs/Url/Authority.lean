import Mathlib.Data.Bool.AllAny
import TokenKeeper.Proofs.Url.HostText
import TokenKeeper.Url.Parser

/-!
# The text of an authority

Whatever is read as a host is written without delimiters, or in brackets (`IsHostText`), and a port
is written in digits. So in the text of a URL the authority ends where the path begins, and in the
text of an authority the host ends where the port begins (`splitPort_withPort`).
-/

namespace TokenKeeper

/-- A character that stands in an authority, where nothing is dropped and nothing is cut. -/
structure IsAuthorityChar (c : Char) : Prop where
  space_lt : 0x20 < c.toNat
  ne_slash : c ≠ '/'
  ne_backslash : c ≠ '\\'
  ne_question : c ≠ '?'
  ne_hash : c ≠ '#'
  ne_at : c ≠ '@'

/-! ## Addresses and ports -/

/-- The characters of addresses and ports. -/
def addressAlphabet : List Char :=
  "0123456789abcdef:".toList

theorem isAuthorityChar_of_mem_addressAlphabet {c : Char} (h : c ∈ addressAlphabet) :
    IsAuthorityChar c := by
  have hall : ∀ c ∈ addressAlphabet,
      0x20 < c.toNat ∧ c ≠ '/' ∧ c ≠ '\\' ∧ c ≠ '?' ∧ c ≠ '#' ∧ c ≠ '@' :=
    List.all_iff_forall_prop.mp (by decide)
  obtain ⟨hlt, hslash, hback, hquestion, hhash, hat⟩ := hall c h
  exact ⟨hlt, hslash, hback, hquestion, hhash, hat⟩

/-- Decimal text is made of digits. -/
theorem mem_addressAlphabet_of_mem_digits {n : Nat} {c : Char} (h : c ∈ Decimal.digits n) :
    c ∈ addressAlphabet := by
  have hdigit : ∀ d < 10, Decimal.digitChar d ∈ addressAlphabet := by decide
  obtain ⟨d, hd, rfl⟩ := Decimal.mem_digits h
  exact hdigit d hd

namespace Ipv6

/-- Groups with colons between are made of digits and colons. -/
theorem mem_addressAlphabet_of_mem_joined {gs : List Nat} {c : Char} (h : c ∈ joined gs) :
    c ∈ addressAlphabet := by
  have hdigit : ∀ d < 16, Nat.digitChar d ∈ addressAlphabet := by decide
  have hcolon : ':' ∈ addressAlphabet := by decide
  rw [joined_eq] at h
  rcases Pieces.mem_of_mem_intercalate h with rfl | ⟨l, hl, hc⟩
  · exact hcolon
  · obtain ⟨g, -, rfl⟩ := List.mem_map.mp hl
    obtain ⟨d, hd, rfl⟩ := mem_groupText hc
    exact hdigit d hd

theorem mem_addressAlphabet {a : Ipv6} {c : Char} (h : c ∈ a.text.toList) :
    c ∈ addressAlphabet := by
  have hcolons : ∀ c ∈ "::".toList, c ∈ addressAlphabet := List.all_iff_forall_prop.mp (by decide)
  rw [text] at h
  rcases longestRun a.groups with ⟨start, len⟩
  simp only at h
  split at h
  · exact mem_addressAlphabet_of_mem_joined h
  · rw [String.toList_append, String.toList_append] at h
    rcases List.mem_append.mp h with h | h
    · rcases List.mem_append.mp h with h | h
      · exact mem_addressAlphabet_of_mem_joined h
      · exact hcolons c h
    · exact mem_addressAlphabet_of_mem_joined h

end Ipv6

/-! ## Hosts -/

namespace Host

/-- How a host is written: without any character that no host may hold, or in brackets. -/
inductive IsHostText : List Char → Prop
  | plain {t : List Char} (allowed : ∀ c ∈ t, isForbidden c = false)
      (space_lt : ∀ c ∈ t, 0x20 < c.toNat) : IsHostText t
  | bracketed (a : Ipv6) : IsHostText (v6 a).text.toList

theorem not_isForbidden_of_not_isForbiddenInDomain {c : Char} (h : isForbiddenInDomain c = false) :
    isForbidden c = false ∧ 0x20 < c.toNat := by
  have hspace : isForbidden ' ' = true := by decide
  simp only [isForbiddenInDomain, Bool.or_eq_false_iff, decide_eq_false_iff_not] at h
  obtain ⟨⟨⟨hallowed, hcontrol⟩, -⟩, -⟩ := h
  refine ⟨hallowed, Nat.lt_of_le_of_ne (Nat.not_lt.mp hcontrol) fun heq => ?_⟩
  rw [← Char.ofNat_toNat c, ← heq] at hallowed
  exact absurd (hspace.symm.trans hallowed) (by decide)

theorem IsFreeChar.space_lt {c : Char} (h : IsFreeChar c) : 0x20 < c.toNat := by
  have hall : ∀ n < 0x80, isForbidden (Char.ofNat n) = false →
      Percent.isControl n.toUInt8 = false → 0x20 < n := by
    decide
  refine hall c.toNat h.isAscii ?_ h.not_control
  rw [Char.ofNat_toNat]
  exact h.allowed

/-- **A host that is read is written without delimiters**, where hosts are domains -/
theorem isHostText_of_ofDomainText {s : List Char} {host : Host} (h : ofDomainText s = .ok host) :
    IsHostText host.text.toList := by
  have hplain : ∀ {t : List Char}, (∀ c ∈ t, isForbiddenInDomain c = false) → IsHostText t := by
    intro t ht
    exact .plain (fun c hc => (not_isForbidden_of_not_isForbiddenInDomain (ht c hc)).1)
      fun c hc => (not_isForbidden_of_not_isForbiddenInDomain (ht c hc)).2
  rcases ofDomainText_cases h with ⟨a, rfl, -⟩ | ⟨a, rfl, -⟩ | ⟨domain, rfl, hallowed, -⟩
  · exact .bracketed a
  · exact hplain (not_isForbiddenInDomain_ipv4Text a)
  · rw [text, String.toList_ofList]
    exact hplain hallowed

/-- and elsewhere. -/
theorem isHostText_of_ofFreeText {s : List Char} {host : Host} (h : ofFreeText s = .ok host) :
    IsHostText host.text.toList := by
  rcases ofFreeText_cases h with ⟨a, rfl, -⟩ | ⟨t, rfl, ht⟩
  · exact .bracketed a
  · exact .plain (fun c hc => (ht c hc).allowed) fun c hc => (ht c hc).space_lt

theorem toList_text_ne_nil {host : Host} (h : host ≠ .name "") : host.text.toList ≠ [] := by
  rcases host with t | a | a
  · exact fun hnil => h (congrArg Host.name (String.toList_inj.mp hnil))
  · simp [text, Ipv4.text]
  · simp [text]

namespace IsHostText

variable {t : List Char}

theorem isAuthorityChar (h : IsHostText t) : ∀ c ∈ t, IsAuthorityChar c := by
  intro c hc
  cases h with
  | plain allowed space_lt =>
    have hne : ∀ d, isForbidden d = true → c ≠ d := by
      rintro d hd rfl
      exact absurd (hd.symm.trans (allowed _ hc)) (by decide)
    exact ⟨space_lt c hc, hne _ (by decide), hne _ (by decide), hne _ (by decide),
      hne _ (by decide), hne _ (by decide)⟩
  | bracketed a =>
    have hbrackets : ∀ c ∈ "[]".toList,
        0x20 < c.toNat ∧ c ≠ '/' ∧ c ≠ '\\' ∧ c ≠ '?' ∧ c ≠ '#' ∧ c ≠ '@' :=
      List.all_iff_forall_prop.mp (by decide)
    rw [toList_v6Text] at hc
    rcases List.mem_cons.mp hc with rfl | hc
    · obtain ⟨hlt, hslash, hback, hquestion, hhash, hat⟩ := hbrackets '[' (by decide)
      exact ⟨hlt, hslash, hback, hquestion, hhash, hat⟩
    · rcases List.mem_append.mp hc with hc | hc
      · exact isAuthorityChar_of_mem_addressAlphabet (Ipv6.mem_addressAlphabet hc)
      · obtain rfl := List.mem_singleton.mp hc
        obtain ⟨hlt, hslash, hback, hquestion, hhash, hat⟩ := hbrackets ']' (by decide)
        exact ⟨hlt, hslash, hback, hquestion, hhash, hat⟩

/-- No port is found in a host. -/
theorem splitPort_append (h : IsHostText t) (s : List Char) :
    Url.splitPort (t ++ s) = (t ++ (Url.splitPort s).1, (Url.splitPort s).2) := by
  have hgo : ∀ (inside : Bool) (w s : List Char),
      (∀ c ∈ w, c ≠ '[' ∧ c ≠ ']' ∧ (inside = false → c ≠ ':')) →
      Url.splitPort.go inside (w ++ s) =
        (w ++ (Url.splitPort.go inside s).1, (Url.splitPort.go inside s).2) := by
    intro inside w s hw
    induction w with
    | nil => rfl
    | cons c w ih =>
      obtain ⟨hopen, hclose, hcolon⟩ := hw c List.mem_cons_self
      have hstay : ¬ (c == ':' && !inside) = true := by
        cases inside
        · simpa using hcolon rfl
        · simp
      simp only [List.cons_append, Url.splitPort.go, if_neg hstay, beq_eq_false_iff_ne.mpr hopen,
        beq_eq_false_iff_ne.mpr hclose, Bool.false_eq_true, if_false,
        ih fun d hd => hw d (List.mem_cons_of_mem c hd)]
  cases h with
  | plain allowed _ =>
    have hne : ∀ d, isForbidden d = true → ∀ c ∈ t, c ≠ d := by
      rintro d hd c hc rfl
      exact absurd (hd.symm.trans (allowed _ hc)) (by decide)
    exact hgo false t s fun c hc =>
      ⟨hne _ (by decide) c hc, hne _ (by decide) c hc, fun _ => hne _ (by decide) c hc⟩
  | bracketed a =>
    have haddress : ∀ c ∈ addressAlphabet, c ≠ '[' ∧ c ≠ ']' :=
      List.all_iff_forall_prop.mp (by decide)
    have hinside := hgo true a.text.toList (']' :: s) fun c hc => by
      obtain ⟨hopen, hclose⟩ := haddress c (Ipv6.mem_addressAlphabet hc)
      exact ⟨hopen, hclose, fun h => nomatch h⟩
    have hopen : ∀ x, Url.splitPort.go false ('[' :: x) =
        ('[' :: (Url.splitPort.go true x).1, (Url.splitPort.go true x).2) := fun _ => rfl
    have hclose : Url.splitPort.go true (']' :: s) =
        (']' :: (Url.splitPort.go false s).1, (Url.splitPort.go false s).2) := rfl
    simp only [toList_v6Text, List.cons_append, List.append_assoc, List.nil_append,
      Url.splitPort, hopen, hinside, hclose]

end IsHostText

end Host

/-! ## Authorities -/

namespace Url

/-- A port adds no delimiter either. -/
theorem isAuthorityChar_withPort {host : String} {port : Option Nat}
    (h : ∀ c ∈ host.toList, IsAuthorityChar c) :
    ∀ c ∈ (withPort host port).toList, IsAuthorityChar c := by
  have hcolon : ':' ∈ addressAlphabet := by decide
  intro c hc
  rcases port with _ | n
  · exact h c hc
  · simp only [withPort, String.toList_append, List.mem_append] at hc
    rcases hc with (hc | hc) | hc
    · exact h c hc
    · obtain rfl := List.mem_singleton.mp hc
      exact isAuthorityChar_of_mem_addressAlphabet hcolon
    · rw [Decimal.ofNat, String.toList_ofList] at hc
      exact isAuthorityChar_of_mem_addressAlphabet (mem_addressAlphabet_of_mem_digits hc)

/-- Read a host the way its scheme says. -/
def hostOf (scheme : String) (t : List Char) : Except UrlError Host :=
  if isSpecial scheme then Host.ofDomainText t else Host.ofFreeText t

theorem isHostText_of_hostOf {scheme : String} {t : List Char} {host : Host}
    (h : hostOf scheme t = .ok host) : Host.IsHostText host.text.toList := by
  rw [hostOf] at h
  split at h
  · exact Host.isHostText_of_ofDomainText h
  · exact Host.isHostText_of_ofFreeText h

/-- **A host that is read is read back.** -/
theorem hostOf_text {scheme : String} {t : List Char} {host : Host}
    (h : hostOf scheme t = .ok host) : hostOf scheme host.text.toList = .ok host := by
  rw [hostOf] at h ⊢
  split at h
  · rename_i hspecial
    rw [if_pos hspecial, Host.ofDomainText_text h]
  · rename_i hspecial
    rw [if_neg hspecial, Host.ofFreeText_text h]

/-- **The host and the port are cut apart again.** -/
theorem splitPort_withPort {host : String} (h : Host.IsHostText host.toList) (port : Option Nat) :
    splitPort (withPort host port).toList = (host.toList, port.map Decimal.digits) := by
  rcases port with _ | n
  · have hend := h.splitPort_append []
    rw [List.append_nil] at hend
    rw [withPort, hend, show splitPort [] = ([], none) from rfl, List.append_nil]
    rfl
  · have hport : splitPort (':' :: Decimal.digits n) = ([], some (Decimal.digits n)) := rfl
    have htext : (withPort host (some n)).toList = host.toList ++ ':' :: Decimal.digits n := by
      simp [withPort, Decimal.ofNat]
    rw [htext, h.splitPort_append, hport, List.append_nil]
    rfl

/-- A port that is read is read back from its digits. -/
theorem portOf_digits {scheme : String} {s : Option (List Char)} {port : Option Nat}
    (h : portOf scheme s = .ok port) :
    portOf scheme (port.map Decimal.digits) = .ok port ∧
      ∀ n, port = some n → n < 65536 ∧ defaultPort? scheme ≠ some n := by
  have hnone : portOf scheme (Option.map Decimal.digits none) = .ok none ∧
      ∀ n, none = some n → n < 65536 ∧ defaultPort? scheme ≠ some n := ⟨rfl, fun n h => nomatch h⟩
  unfold portOf at h
  split at h
  · obtain rfl := Except.ok.inj h
    exact hnone
  · obtain rfl := Except.ok.inj h
    exact hnone
  split at h
  · rename_i n _
    split at h
    · cases h
    rename_i hlt
    obtain rfl := Except.ok.inj h
    by_cases hdefault : defaultPort? scheme = some n
    · rw [if_pos hdefault]
      exact hnone
    · rw [if_neg hdefault]
      refine ⟨?_, fun m hm => ?_⟩
      · rw [Option.map_some, portOf]
        · simp only [Decimal.toNat?_digits, if_neg hlt, if_neg hdefault]
        · exact Decimal.digits_ne_nil n
      · obtain rfl := Option.some.inj hm
        exact ⟨Nat.not_le.mp hlt, hdefault⟩
  · cases h

/-- The host that is written is one that is not empty. -/
theorem hostText?_eq_some_iff {u : Url} {text : String} :
    u.hostText? = some text ↔ ∃ host, u.host = some host ∧ host ≠ .name "" ∧ text = host.text := by
  rw [hostText?]
  split
  · rename_i hempty
    refine ⟨fun h => (nomatch h), ?_⟩
    rintro ⟨host, hhost, hne, -⟩
    exact absurd (Option.some.inj (hhost.symm.trans hempty)) hne
  · rename_i host hne hhost
    constructor
    · intro h
      exact ⟨host, hhost, fun hempty => hne (by rw [hempty]), (Option.some.inj h).symm⟩
    · rintro ⟨host', hhost', -, rfl⟩
      rw [Option.some.inj (hhost.symm.trans hhost')]
  · rename_i hnone
    refine ⟨fun h => (nomatch h), ?_⟩
    rintro ⟨host, hhost, -⟩
    rw [hnone] at hhost
    cases hhost

theorem toList_withPort_ne_nil {host : String} (h : host.toList ≠ []) (port : Option Nat) :
    (withPort host port).toList ≠ [] := by
  rcases port with _ | n
  · exact h
  · simp [withPort]

end Url

end TokenKeeper
