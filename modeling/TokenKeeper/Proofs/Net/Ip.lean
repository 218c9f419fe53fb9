import Mathlib.Data.Nat.Digits.Lemmas
import TokenKeeper.Net.Ip
import TokenKeeper.Proofs.Text.Pieces

/-!
# Reading addresses again

An address of version 6 that is read from text has eight groups of 16 bits, and its own text is read
as the same address (`Ipv6.ofText?_text`): the one `::` in it stands for as many groups as are
missing, and these are zeros.
-/

namespace TokenKeeper

namespace Ipv4

theorem le_of_byte? {s : List Char} {n : Nat} (h : byte? s = some n) : n ≤ 255 := by
  rw [byte?] at h
  split at h
  · split at h
    · split at h
      · rename_i hle
        obtain rfl := Option.some.inj h
        exact hle
      · cases h
    · cases h
  · cases h

/-- An address that is read in its dotted form has 32 bits. -/
theorem lt_of_ofDotted? {s : List Char} {a : Ipv4} (h : ofDotted? s = some a) :
    a.value < 4294967296 := by
  rw [ofDotted?] at h
  split at h
  · obtain ⟨b₁, h₁, h⟩ := Option.bind_eq_some_iff.mp h
    obtain ⟨b₂, h₂, h⟩ := Option.bind_eq_some_iff.mp h
    obtain ⟨b₃, h₃, h⟩ := Option.bind_eq_some_iff.mp h
    obtain ⟨b₄, h₄, h⟩ := Option.bind_eq_some_iff.mp h
    obtain rfl := Option.some.inj h
    have := le_of_byte? h₁
    have := le_of_byte? h₂
    have := le_of_byte? h₃
    have := le_of_byte? h₄
    simp only
    omega
  · cases h

end Ipv4

namespace Ipv6

/-! ## Groups -/

/-- Take one hexadecimal digit more. -/
def groupStep (n : Nat) (c : Char) : Option Nat :=
  (hexValue? c).map fun d => n * 16 + d

theorem group?_eq (s : List Char) :
    group? s = if s ≠ [] ∧ s.length ≤ 4 then s.foldlM groupStep 0 else none := rfl

theorem hexValue?_lt {c : Char} {d : Nat} (h : hexValue? c = some d) : d < 16 := by
  simp only [hexValue?] at h
  repeat' split at h
  · obtain rfl := Option.some.inj h
    omega
  · obtain rfl := Option.some.inj h
    omega
  · obtain rfl := Option.some.inj h
    omega
  · cases h

theorem hexValue?_digitChar {d : Nat} (h : d < 16) : hexValue? (Nat.digitChar d) = some d := by
  have hall : ∀ d < 16, hexValue? (Nat.digitChar d) = some d := by decide
  exact hall d h

/-- Some digits more make a number at most so much larger. -/
theorem lt_of_foldlM_groupStep {s : List Char} {n m : Nat} (h : s.foldlM groupStep n = some m) :
    m < (n + 1) * 16 ^ s.length := by
  induction s generalizing n with
  | nil =>
    obtain rfl : n = m := Option.some.inj h
    simp
  | cons c rest ih =>
    rw [List.foldlM_cons] at h
    obtain ⟨k, hk, h⟩ := Option.bind_eq_some_iff.mp h
    obtain ⟨d, hd, rfl⟩ := Option.map_eq_some_iff.mp hk
    have hlt := hexValue?_lt hd
    calc m < (n * 16 + d + 1) * 16 ^ rest.length := ih h
      _ ≤ (n + 1) * 16 * 16 ^ rest.length := Nat.mul_le_mul_right _ (by omega)
      _ = (n + 1) * 16 ^ (rest.length + 1) := by rw [Nat.mul_assoc, Nat.pow_succ']

/-- A group has 16 bits. -/
theorem lt_of_group? {s : List Char} {g : Nat} (h : group? s = some g) : g < 65536 := by
  rw [group?_eq] at h
  split at h
  · rename_i hs
    calc g < (0 + 1) * 16 ^ s.length := lt_of_foldlM_groupStep h
      _ ≤ (0 + 1) * 16 ^ 4 := Nat.mul_le_mul_left _ (Nat.pow_le_pow_right (by decide) hs.2)
  · cases h

/-- A group is written in digits. -/
theorem mem_groupText {g : Nat} {c : Char} (h : c ∈ (groupText g).toList) :
    ∃ d < 16, c = Nat.digitChar d := by
  rw [groupText, String.toList_ofList] at h
  induction g using Nat.strongRecOn with
  | ind g ih =>
    rw [Nat.toDigits_eq_if (by decide)] at h
    split at h
    · rename_i hg
      exact ⟨g, hg, List.mem_singleton.mp h⟩
    · rcases List.mem_append.mp h with h | h
      · exact ih (g / 16) (Nat.div_lt_self (by omega) (by decide)) h
      · exact ⟨g % 16, Nat.mod_lt g (by decide), List.mem_singleton.mp h⟩

theorem groupText_ne_nil (g : Nat) : (groupText g).toList ≠ [] := by
  rw [groupText, String.toList_ofList]
  exact Nat.toDigits_ne_nil

/-- **A group is read back.** -/
theorem group?_groupText {g : Nat} (h : g < 65536) : group? (groupText g).toList = some g := by
  have hvalue : ∀ g, (Nat.toDigits 16 g).foldlM groupStep 0 = some g := by
    intro g
    induction g using Nat.strongRecOn with
    | ind g ih =>
      rw [Nat.toDigits_eq_if (by decide)]
      split
      · rename_i hg
        simp [groupStep, hexValue?_digitChar hg]
      · rw [List.foldlM_append, ih (g / 16) (Nat.div_lt_self (by omega) (by decide))]
        simp [groupStep, hexValue?_digitChar (Nat.mod_lt g (by decide : 0 < 16))]
        omega
  have hlength : (Nat.toDigits 16 g).length ≤ 4 := Nat.toDigits_length 16 g 4 (by decide) h
  have hne := groupText_ne_nil g
  rw [groupText, String.toList_ofList] at hne ⊢
  rw [group?_eq, if_pos ⟨hne, hlength⟩, hvalue]

/-! ## Groups with colons between -/

/-- Groups with colons between, as `Ipv6.text` writes them. -/
def joined (gs : List Nat) : List Char :=
  (":".intercalate (gs.map groupText)).toList

theorem joined_eq (gs : List Nat) :
    joined gs = [':'].intercalate (gs.map fun g => (groupText g).toList) := by
  rw [joined, String.toList_intercalate, List.map_map]
  rfl

theorem joined_cons_cons (g g' : Nat) (rest : List Nat) :
    joined (g :: g' :: rest) = (groupText g).toList ++ ':' :: joined (g' :: rest) := by
  simp only [joined_eq, List.map_cons, List.intercalate_cons_cons, List.append_assoc,
    List.singleton_append]

theorem colon_not_mem_groupText (g : Nat) : ':' ∉ (groupText g).toList := by
  have hall : ∀ d < 16, Nat.digitChar d ≠ ':' := by decide
  intro h
  obtain ⟨d, hd, heq⟩ := mem_groupText h
  exact hall d hd heq.symm

/-- Groups begin with a digit, if there are any. -/
theorem exists_joined_eq_cons (g : Nat) (rest : List Nat) :
    ∃ c s, joined (g :: rest) = c :: s ∧ c ≠ ':' := by
  rcases hg : (groupText g).toList with - | ⟨c, w⟩
  · exact absurd hg (groupText_ne_nil g)
  · have hc : c ≠ ':' := by
      rintro rfl
      exact colon_not_mem_groupText g (by rw [hg]; exact List.mem_cons_self)
    rcases rest with _ | ⟨g', rest⟩
    · exact ⟨c, w, by rw [joined_eq]; simp [hg], hc⟩
    · exact ⟨c, w ++ ':' :: joined (g' :: rest), by rw [joined_cons_cons, hg, List.cons_append], hc⟩

/-- **Groups are read back.** -/
theorem groups?_joined (dotted : Bool) {gs : List Nat} (h : ∀ g ∈ gs, g < 65536) :
    groups? dotted (joined gs) = some gs := by
  rcases gs with _ | ⟨g, rest⟩
  · rfl
  obtain ⟨c, s, hcons, -⟩ := exists_joined_eq_cons g rest
  have hne : joined (g :: rest) ≠ [] := by
    rw [hcons]
    exact List.cons_ne_nil c s
  have hparts : (joined (g :: rest)).splitOn ':' =
      (g :: rest).map fun g => (groupText g).toList := by
    rw [joined_eq]
    refine List.splitOn_intercalate ':' (fun l hl => ?_) (List.cons_ne_nil _ _)
    obtain ⟨g, -, rfl⟩ := List.mem_map.mp hl
    exact colon_not_mem_groupText g
  have hpoint : ∀ d < 16, Nat.digitChar d ≠ '.' := by decide
  have hlast : ((((g :: rest).map fun g => (groupText g).toList).getLast?).getD []).contains '.' =
      false := by
    rw [List.getLast?_map]
    rcases (g :: rest).getLast? with _ | g'
    · rfl
    · refine Bool.eq_false_iff.mpr fun hmem => ?_
      obtain ⟨d, hd, heq⟩ := mem_groupText (List.contains_iff_mem.mp hmem)
      exact hpoint d hd heq.symm
  rw [groups?, if_neg hne]
  simp only [hparts, hlast, Bool.false_eq_true, and_false, if_false]
  exact Pieces.mapM_map_eq_some fun g hg => group?_groupText (h g hg)

/-! ## The gap -/

/-- No gap is found before the first colon. -/
theorem splitGap_append {w : List Char} (h : ':' ∉ w) (s : List Char) :
    splitGap (w ++ s) = (splitGap s).map fun (a, b) => (w ++ a, b) := by
  induction w with
  | nil => simp
  | cons c w ih =>
    have hc : ':' ≠ c := List.ne_of_not_mem_cons h
    have hw : ':' ∉ w := List.not_mem_of_not_mem_cons h
    rw [List.cons_append, splitGap, ih hw]
    · rw [Option.map_map]
      rfl
    · rintro rest rfl
      exact absurd rfl hc

/-- One colon is no gap. -/
theorem splitGap_colon_cons {c : Char} (h : c ≠ ':') (s : List Char) :
    splitGap (':' :: c :: s) = (splitGap (c :: s)).map fun (a, b) => (':' :: a, b) := by
  rw [splitGap]
  intro rest _ heq
  exact h (List.cons.inj heq).1

/-- No gap is found before the end of groups. -/
theorem splitGap_joined (gs : List Nat) : splitGap (joined gs) = none := by
  induction gs with
  | nil => rfl
  | cons g rest ih =>
    rcases rest with _ | ⟨g', rest⟩
    · have hone := splitGap_append (colon_not_mem_groupText g) []
      rw [List.append_nil] at hone
      rw [joined_eq, List.map_singleton, List.intercalate_singleton, hone]
      rfl
    · obtain ⟨c, s, hcons, hc⟩ := exists_joined_eq_cons g' rest
      rw [joined_cons_cons, splitGap_append (colon_not_mem_groupText g), hcons,
        splitGap_colon_cons hc, ← hcons, ih]
      rfl

/-- A gap is found where groups end. -/
theorem splitGap_joined_append (gs : List Nat) (s : List Char) :
    splitGap (joined gs ++ ':' :: ':' :: s) = some (joined gs, s) := by
  induction gs with
  | nil => rw [show joined [] = [] from rfl, List.nil_append, splitGap]
  | cons g rest ih =>
    rcases rest with _ | ⟨g', rest⟩
    · rw [joined_eq, List.map_singleton, List.intercalate_singleton,
        splitGap_append (colon_not_mem_groupText g), splitGap, Option.map_some]
      simp only [List.append_nil]
    · obtain ⟨c, w, hcons, hc⟩ := exists_joined_eq_cons g' rest
      rw [joined_cons_cons, List.append_assoc, List.cons_append,
        splitGap_append (colon_not_mem_groupText g), hcons, List.cons_append,
        splitGap_colon_cons hc, ← List.cons_append, ← hcons, ih]
      rfl

/-! ## The longest run -/

theorem zerosAtHead_spec (gs : List Nat) :
    gs = List.replicate (zerosAtHead gs) 0 ++ gs.drop (zerosAtHead gs) := by
  induction gs with
  | nil => rfl
  | cons g rest ih =>
    by_cases hg : g = 0
    · subst hg
      have hsucc : zerosAtHead (0 :: rest) = zerosAtHead rest + 1 := by simp [zerosAtHead]
      rw [hsucc, List.replicate_succ, List.cons_append, List.drop_succ_cons, ← ih]
    · simp [zerosAtHead, hg]

/-- The longer one of a run and the run at a position. -/
def longer (gs : List Nat) (best : Nat × Nat) (i : Nat) : Nat × Nat :=
  if zerosAtHead (gs.drop i) > best.2 then (i, zerosAtHead (gs.drop i)) else best

theorem longestRun_eq (gs : List Nat) :
    longestRun gs = (List.range gs.length).foldl (longer gs) (0, 0) := rfl

/-- Whether position and length are those of a run of zeros, which may be empty. -/
def IsRun (gs : List Nat) (run : Nat × Nat) : Prop :=
  gs.drop run.1 = List.replicate run.2 0 ++ gs.drop (run.1 + run.2)

theorem isRun_longer {gs : List Nat} {best : Nat × Nat} (h : IsRun gs best) (i : Nat) :
    IsRun gs (longer gs best i) := by
  rw [longer]
  split
  · have hspec := zerosAtHead_spec (gs.drop i)
    rwa [List.drop_drop] at hspec
  · exact h

/-- The longest run is one of zeros. -/
theorem isRun_longestRun (gs : List Nat) : IsRun gs (longestRun gs) := by
  have hfold : ∀ (is : List Nat) (best : Nat × Nat), IsRun gs best →
      IsRun gs (is.foldl (longer gs) best) := by
    intro is
    induction is with
    | nil => exact fun best h => h
    | cons i rest ih => exact fun best h => ih _ (isRun_longer h i)
  rw [longestRun_eq]
  exact hfold _ _ rfl

/-! ## Addresses -/

/-- An address with eight groups of 16 bits. -/
structure IsWhole (a : Ipv6) : Prop where
  length : a.groups.length = 8
  lt : ∀ g ∈ a.groups, g < 65536

/-- Groups before and behind a gap are read back with zeros between. -/
theorem ofText?_gap (hs ts : List Nat) (hhs : ∀ g ∈ hs, g < 65536) (hts : ∀ g ∈ ts, g < 65536)
    (hlength : hs.length + ts.length ≤ 8) :
    ofText? 0 (joined hs ++ ':' :: ':' :: joined ts) =
      some ⟨hs ++ List.replicate (8 - hs.length - ts.length) 0 ++ ts⟩ := by
  simp only [ofText?, splitGap_joined_append, groups?_joined false hhs, groups?_joined true hts,
    Option.bind_eq_bind, Option.bind_some, Nat.add_zero, if_pos hlength]
  rfl

/-- **An address is read back.** -/
theorem IsWhole.ofText?_text {a : Ipv6} (h : a.IsWhole) : ofText? 0 a.text.toList = some a := by
  have hlength := h.length
  have hrun := isRun_longestRun a.groups
  rw [text]
  rcases hlongest : longestRun a.groups with ⟨start, len⟩
  rw [hlongest] at hrun
  simp only
  split
  · have hgroups := groups?_joined true h.lt
    have hgap := splitGap_joined a.groups
    rw [joined] at hgroups hgap
    simp only [ofText?, hgap, hgroups, Option.bind_eq_bind, Option.bind_some, if_pos hlength]
    rfl
  · rename_i hlen
    simp only [IsRun] at hrun
    have hcut := List.take_append_drop start a.groups
    have hsplit := congrArg List.length hrun
    simp only [List.length_append, List.length_replicate, List.length_drop] at hsplit
    have hgap := ofText?_gap (a.groups.take start) (a.groups.drop (start + len))
      (fun g hg => h.lt g (List.mem_of_mem_take hg)) (fun g hg => h.lt g (List.mem_of_mem_drop hg))
      (by simp only [List.length_take, List.length_drop]; omega)
    have hmissing : 8 - (a.groups.take start).length - (a.groups.drop (start + len)).length =
        len := by
      simp only [List.length_take, List.length_drop]
      omega
    rw [hmissing, List.append_assoc, ← hrun, hcut] at hgap
    rw [String.toList_append, String.toList_append, show "::".toList = [':', ':'] from rfl,
      List.append_assoc]
    exact hgap

/-- The groups that are read have 16 bits. -/
theorem lt_of_groups? {dotted : Bool} {s : List Char} {gs : List Nat}
    (h : groups? dotted s = some gs) : ∀ g ∈ gs, g < 65536 := by
  have hfirsts : ∀ {l : List (List Char)} {gs : List Nat}, l.mapM group? = some gs →
      ∀ g ∈ gs, g < 65536 := by
    intro l gs h g hg
    obtain ⟨s, -, hs⟩ := (Pieces.exists_of_mapM_eq_some h).2 g hg
    exact lt_of_group? hs
  rw [groups?] at h
  split at h
  · obtain rfl := Option.some.inj h
    exact fun g hg => nomatch hg
  simp only at h
  split at h
  · obtain ⟨firsts, hall, h⟩ := Option.bind_eq_some_iff.mp h
    obtain ⟨v4, hv4, h⟩ := Option.bind_eq_some_iff.mp h
    obtain rfl := Option.some.inj h
    have hlt := Ipv4.lt_of_ofDotted? hv4
    intro g hg
    rcases List.mem_append.mp hg with hg | hg
    · exact hfirsts hall g hg
    · simp only [List.mem_cons, List.not_mem_nil, or_false] at hg
      omega
  · exact hfirsts h

/-- **An address that is read has eight groups of 16 bits.** -/
theorem isWhole_of_ofText? {leastGap : Nat} {s : List Char} {a : Ipv6}
    (h : ofText? leastGap s = some a) : a.IsWhole := by
  rw [ofText?] at h
  split at h
  · obtain ⟨gs, hgs, h⟩ := Option.bind_eq_some_iff.mp h
    split at h
    · rename_i hlength
      obtain rfl := Option.some.inj h
      exact ⟨hlength, lt_of_groups? hgs⟩
    · cases h
  · obtain ⟨hs, hhs, h⟩ := Option.bind_eq_some_iff.mp h
    obtain ⟨ts, hts, h⟩ := Option.bind_eq_some_iff.mp h
    split at h
    · obtain rfl := Option.some.inj h
      refine ⟨?_, fun g hg => ?_⟩
      · simp only [List.length_append, List.length_replicate]
        omega
      · rcases List.mem_append.mp hg with hg | hg
        · rcases List.mem_append.mp hg with hg | hg
          · exact lt_of_groups? hhs g hg
          · rw [(List.mem_replicate.mp hg).2]
            decide
        · exact lt_of_groups? hts g hg
    · cases h

end Ipv6

end TokenKeeper
