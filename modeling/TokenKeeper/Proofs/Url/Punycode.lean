import Mathlib.Data.List.TakeWhile
import TokenKeeper.Url.Punycode

/-!
# Reading what is written in Punycode

Every label is read back from what is written for it (`decode?_encode`).

Coder and reader meet between two numbers. By then the reader has put together the characters of the
label up to the code point that the coder looks for, and what the coder has counted since its last
number is how far it is from the reader's place to the coder's own (`Meets`). This is kept by every
character that the coder passes over (`reads_pass`) and from one pass to the next (`reads_passes`).
-/

namespace TokenKeeper.Punycode

/-! ## Numbers -/

theorem digitValue?_digitChar {d : Nat} (h : d < 36) : digitValue? (digitChar d) = some d := by
  have hall : ∀ d < 36, digitValue? (digitChar d) = some d := by decide
  exact hall d h

theorem threshold_le (bias k : Nat) : threshold bias k ≤ 26 := by
  unfold threshold
  split
  · omega
  · split <;> omega

/-- The greater digits are those after which a number goes on. -/
theorem threshold_add_mod_lt (bias k q : Nat) :
    threshold bias k + q % (36 - threshold bias k) < 36 := by
  have hle := threshold_le bias k
  have hmod := Nat.mod_lt q (show 0 < 36 - threshold bias k by omega)
  omega

/-- **A number is read back**, whatever stands behind it. -/
theorem number?_number (bias q k w : Nat) (rest : List Char) :
    number? bias w k (number bias q k ++ rest) = some (q * w, rest) := by
  fun_induction number bias q k generalizing w with
  | case1 q k t hlt =>
    have hdigit := digitValue?_digitChar (show q < 36 by have := threshold_le bias k; omega)
    simp [number?, hdigit, t, hlt]
  | case2 q k t hge ih =>
    have hdigit : digitValue? (digitChar (t + (q - t) % (36 - t))) =
        some (t + (q - t) % (36 - t)) :=
      digitValue?_digitChar (threshold_add_mod_lt bias k (q - t))
    have ht : threshold bias k = t := rfl
    have hsum : t + (q - t) % (36 - t) + (q - t) / (36 - t) * (36 - t) = q := by
      have := Nat.mod_add_div' (q - t) (36 - t)
      omega
    have hvalue : (t + (q - t) % (36 - t)) * w + (q - t) / (36 - t) * (w * (36 - t)) = q * w := by
      rw [Nat.mul_comm w, ← Nat.mul_assoc, ← Nat.add_mul, hsum]
    have hmore : ¬ t + (q - t) % (36 - t) < t := Nat.not_lt.mpr (Nat.le_add_right _ _)
    simp only [List.cons_append, number?, hdigit, Option.bind_eq_bind, Option.bind_some, ht, hmore,
      if_false, ih, hvalue, Option.pure_def]

/-- A number is written with digits only. -/
theorem mem_number {bias q k : Nat} {c : Char} (h : c ∈ number bias q k) :
    ∃ d < 36, c = digitChar d := by
  fun_induction number bias q k with
  | case1 q k t hlt =>
    obtain rfl := List.mem_singleton.mp h
    have := threshold_le bias k
    exact ⟨q, by omega, rfl⟩
  | case2 q k t hge ih =>
    rcases List.mem_cons.mp h with rfl | h
    · exact ⟨_, threshold_add_mod_lt bias k (q - t), rfl⟩
    · exact ih h

theorem length_number_pos (bias q k : Nat) : 0 < (number bias q k).length := by
  fun_cases number bias q k <;> exact Nat.succ_pos _

/-! ## Readers -/

/-- What a reader has between two numbers: the label so far, the code point and the place from which
the next number counts, the bias, and whether it is the first number. -/
structure Reader where
  label : List Char
  next : Nat
  place : Nat
  bias : Nat
  isFirst : Bool

/-- The reader after a number. -/
def Reader.insert (r : Reader) (delta : Nat) : Reader :=
  let count := r.label.length + 1
  let next := r.next + (r.place + delta) / count
  let place := (r.place + delta) % count
  { label := r.label.insertIdx place (Char.ofNat next)
    next
    place := place + 1
    bias := adapt delta count r.isFirst
    isFirst := false }

/-- That a reader makes a label of the numbers that are written. -/
inductive Reads : Reader → List Char → List Char → Prop
  | done (r : Reader) : Reads r [] r.label
  | insert {r : Reader} {delta : Nat} {s label : List Char}
      (valid : (r.insert delta).next.isValidChar) (more : Reads (r.insert delta) s label) :
      Reads r (number r.bias delta 36 ++ s) label

/-- A reader that makes a label makes it with any count of numbers that is enough. -/
theorem Reads.insertions?_eq {r : Reader} {s label : List Char} (h : Reads r s label) {fuel : Nat}
    (hfuel : s.length ≤ fuel) :
    insertions? r.label r.next r.place r.bias r.isFirst s fuel = some label := by
  induction h generalizing fuel with
  | done r => cases fuel <;> simp [insertions?]
  | @insert r delta s label valid more ih =>
    have hpos := length_number_pos r.bias delta 36
    rw [List.length_append] at hfuel
    obtain ⟨fuel, rfl⟩ := Nat.exists_eq_add_of_lt (show 0 < fuel by omega)
    have hne : number r.bias delta 36 ++ s ≠ [] := by
      intro hnil
      rw [(List.append_eq_nil_iff.mp hnil).1] at hpos
      exact absurd hpos (Nat.lt_irrefl 0)
    have hmore := @ih (0 + fuel) (by omega)
    simp only [Reader.insert] at valid hmore
    simp only [insertions?, if_neg hne, number?_number, Option.bind_eq_bind, Option.bind_some,
      Nat.mul_one, if_pos valid, hmore]

/-! ## One pass -/

/-- The coder after it has written a number. -/
def State.wrote (s : State) : State :=
  { s with
    delta := 0, bias := adapt s.delta (s.handled + 1) s.isFirst
    handled := s.handled + 1, isFirst := false }

/-- One character of a pass. -/
def passStep (written : List Char × State) (c : Nat) : List Char × State :=
  if c < written.2.next then (written.1, { written.2 with delta := written.2.delta + 1 })
  else if c = written.2.next then
    (written.1 ++ number written.2.bias written.2.delta 36, written.2.wrote)
  else written

theorem pass_eq (label : List Nat) (s : State) : pass label s = label.foldl passStep ([], s) := rfl

/-- What has been written before has no part in what is written next. -/
theorem foldl_passStep (label : List Nat) (out : List Char) (s : State) :
    label.foldl passStep (out, s) = (out ++ (pass label s).1, (pass label s).2) := by
  induction label generalizing out s with
  | nil => simp [pass_eq]
  | cons c rest ih =>
    have hstep : passStep (out, s) c = (out ++ (passStep ([], s) c).1, (passStep ([], s) c).2) := by
      simp only [passStep]
      split
      · simp
      · split <;> simp
    rw [pass_eq, List.foldl_cons, List.foldl_cons, hstep, ih,
      show passStep ([], s) c = ((passStep ([], s) c).1, (passStep ([], s) c).2) from rfl, ih]
    simp

section

variable {c : Char} {s : State}

theorem pass_cons (c : Nat) (rest : List Nat) (s : State) :
    pass (c :: rest) s =
      ((passStep ([], s) c).1 ++ (pass rest (passStep ([], s) c).2).1,
        (pass rest (passStep ([], s) c).2).2) := by
  rw [pass_eq, List.foldl_cons, ← foldl_passStep]

theorem passStep_of_lt (h : c.toNat < s.next) :
    passStep ([], s) c.toNat = ([], { s with delta := s.delta + 1 }) := by
  simp only [passStep, if_pos h]

theorem passStep_of_eq (h : c.toNat = s.next) :
    passStep ([], s) c.toNat = (number s.bias s.delta 36, s.wrote) := by
  simp only [passStep, if_neg (Nat.not_lt.mpr (Nat.le_of_eq h.symm)), if_pos h, List.nil_append]

theorem passStep_of_gt (h : s.next < c.toNat) : passStep ([], s) c.toNat = ([], s) := by
  simp only [passStep, if_neg (Nat.not_lt.mpr (Nat.le_of_lt h)), if_neg (Nat.ne_of_gt h)]

/-- Where coder and reader meet: the reader goes on at its place, and what the coder has counted
leads from there to the coder's code point, at a place with as many characters before it as the
coder has passed. -/
structure Meets (s : State) (r : Reader) (passed : Nat) : Prop where
  next_le : r.next ≤ s.next
  handled : r.label.length = s.handled
  bias : r.bias = s.bias
  isFirst : r.isFirst = s.isFirst
  distance : r.place + s.delta = (s.next - r.next) * (s.handled + 1) + passed

/-- The characters of a label that a reader has put together when the coder looks for a code point
and has passed some characters: of these it has those of this code point too. -/
def known (next : Nat) (before after : List Char) : List Char :=
  before.filter (·.toNat ≤ next) ++ after.filter (·.toNat < next)

theorem insertIdx_append (a b : List Char) (c : Char) :
    (a ++ b).insertIdx a.length c = a ++ c :: b := by
  induction a with
  | nil => rfl
  | cons d a ih =>
    rw [List.cons_append, List.length_cons, List.insertIdx_succ_cons, ih, List.cons_append]

/-- A number leads the reader to where the coder is. -/
theorem Meets.insert_eq {r : Reader} {passed : Nat} (h : Meets s r passed)
    (hpassed : passed ≤ s.handled) :
    r.insert s.delta =
      { label := r.label.insertIdx passed (Char.ofNat s.next)
        next := s.next
        place := passed + 1
        bias := adapt s.delta (s.handled + 1) s.isFirst
        isFirst := false } := by
  have hdiv : (r.place + s.delta) / (s.handled + 1) = s.next - r.next := by
    rw [h.distance, Nat.mul_comm, Nat.mul_add_div (Nat.succ_pos _),
      Nat.div_eq_of_lt (Nat.lt_succ_of_le hpassed), Nat.add_zero]
  have hmod : (r.place + s.delta) % (s.handled + 1) = passed := by
    rw [h.distance, Nat.mul_add_mod', Nat.mod_eq_of_lt (Nat.lt_succ_of_le hpassed)]
  simp only [Reader.insert, h.handled, h.isFirst, hdiv, hmod, Nat.add_sub_cancel' h.next_le]

/-- There the reader puts in the character that the coder has found, and they meet behind it. -/
theorem Meets.wrote {before after : List Char} {r : Reader}
    (h : Meets s r (before.filter (·.toNat ≤ s.next)).length)
    (hlabel : r.label = known s.next before (c :: after)) (hc : c.toNat = s.next) :
    (r.insert s.delta).next.isValidChar ∧
      (r.insert s.delta).label = known s.next (before ++ [c]) after ∧
      Meets s.wrote (r.insert s.delta) ((before ++ [c]).filter (·.toNat ≤ s.next)).length := by
  have hlater : known s.next before (c :: after) = known s.next before after := by
    simp [known, hc]
  have hpassed : (before.filter (·.toNat ≤ s.next)).length ≤ s.handled := by
    rw [← h.handled, hlabel, known, List.length_append]
    exact Nat.le_add_right _ _
  have hput : r.label.insertIdx (before.filter (·.toNat ≤ s.next)).length (Char.ofNat s.next) =
      known s.next (before ++ [c]) after := by
    rw [hlabel, hlater, known, ← hc, Char.ofNat_toNat, insertIdx_append]
    simp [known]
  have hinsert := h.insert_eq hpassed
  rw [hput] at hinsert
  rw [hinsert]
  refine ⟨?_, rfl, Nat.le_refl _, ?_, rfl, rfl, ?_⟩
  · rw [← hc]
    exact c.valid
  · rw [State.wrote, ← h.handled, hlabel, hlater]
    simp [known, hc]
    omega
  · simp [State.wrote, hc]

/-- **A pass is read.** Whatever the reader makes of what is written after a pass, it makes from the
beginning of the pass on. -/
theorem reads_pass (before after : List Char) {r : Reader}
    (hmeets : Meets s r (before.filter (·.toNat ≤ s.next)).length)
    (hlabel : r.label = known s.next before after) :
    ∃ r', Meets (pass (after.map Char.toNat) s).2 r'
        ((before ++ after).filter (·.toNat ≤ s.next)).length ∧
      r'.label = (before ++ after).filter (·.toNat ≤ s.next) ∧
      (pass (after.map Char.toNat) s).2.next = s.next ∧
      ∀ rest label, Reads r' rest label →
        Reads r ((pass (after.map Char.toNat) s).1 ++ rest) label := by
  induction after generalizing before s r with
  | nil =>
    rw [known, List.filter_nil, List.append_nil] at hlabel
    rw [List.append_nil]
    exact ⟨r, hmeets, hlabel, rfl, fun rest label h => h⟩
  | cons c after ih =>
    rw [List.map_cons, pass_cons, show before ++ c :: after = before ++ [c] ++ after by simp]
    rcases Nat.lt_trichotomy c.toNat s.next with hlt | heq | hgt
    · -- a character that the reader has already: its place counts
      rw [passStep_of_lt hlt]
      refine ih (before ++ [c]) ⟨hmeets.next_le, hmeets.handled, hmeets.bias, hmeets.isFirst, ?_⟩ ?_
      · have := hmeets.distance
        simp [Nat.le_of_lt hlt]
        omega
      · simp [hlabel, known, hlt, Nat.le_of_lt hlt]
    · -- the character of this pass
      obtain ⟨hvalid, hlabel, hmeets'⟩ := hmeets.wrote hlabel heq
      rw [passStep_of_eq heq]
      obtain ⟨r', hend, hall, hnext, hreads⟩ := ih (before ++ [c]) hmeets' hlabel
      refine ⟨r', hend, hall, hnext, fun rest label h => ?_⟩
      rw [List.append_assoc, ← hmeets.bias]
      exact .insert hvalid (hreads rest label h)
    · -- a character of a later pass
      rw [passStep_of_gt hgt]
      refine ih (before ++ [c]) ?_ ?_
      · simpa [Nat.not_le.mpr hgt] using hmeets
      · simp [hlabel, known, Nat.not_le.mpr hgt, Nat.not_lt.mpr (Nat.le_of_lt hgt)]

/-! ## All passes -/

/-- Before a pass the coder counts all places for each code point that it leaves out. -/
theorem Meets.skip {r : Reader} (h : Meets s r 0) {m : Nat} (hm : s.next ≤ m) :
    Meets { s with delta := s.delta + (m - s.next) * (s.handled + 1), next := m } r 0 := by
  refine ⟨Nat.le_trans h.next_le hm, h.handled, h.bias, h.isFirst, ?_⟩
  have hsplit : m - r.next = (s.next - r.next) + (m - s.next) := by
    have := h.next_le
    omega
  simp only [hsplit, Nat.add_mul, Nat.add_zero, ← Nat.add_assoc, h.distance]

/-- After a pass the coder has passed every character that the reader has, and goes on with the next
code point. -/
theorem Meets.succ {r : Reader} (h : Meets s r s.handled) :
    Meets { s with delta := s.delta + 1, next := s.next + 1 } r 0 := by
  refine ⟨Nat.le_succ_of_le h.next_le, h.handled, h.bias, h.isFirst, ?_⟩
  have hsplit : s.next + 1 - r.next = (s.next - r.next) + 1 := Nat.succ_sub h.next_le
  have hdistance := h.distance
  simp only [hsplit, Nat.add_mul, Nat.one_mul, Nat.add_zero]
  omega

/-- A reader is done when no character remains. -/
theorem reads_nil {label : List Char} {r : Reader}
    (hlabel : r.label = label.filter (·.toNat < s.next))
    (hnone : ∀ c ∈ label, ¬ s.next ≤ c.toNat) : Reads r [] label := by
  have hall : label.filter (·.toNat < s.next) = label :=
    List.filter_eq_self.mpr fun c hc => decide_eq_true (Nat.not_le.mp (hnone c hc))
  have hdone := Reads.done r
  rwa [hlabel, hall] at hdone

/-- A pass leaves fewer characters, since at least its own is done. -/
theorem length_filter_lt {label : List Char} {d : Char} {n : Nat} (hd : d ∈ label)
    (hle : n ≤ d.toNat) :
    (label.filter (d.toNat + 1 ≤ ·.toNat)).length < (label.filter (n ≤ ·.toNat)).length := by
  have hrest : label.filter (d.toNat + 1 ≤ ·.toNat) =
      (label.filter (n ≤ ·.toNat)).filter (d.toNat + 1 ≤ ·.toNat) := by
    rw [List.filter_filter]
    refine List.filter_congr fun c _ => ?_
    rw [← Bool.decide_and]
    exact decide_eq_decide.mpr ⟨fun h => ⟨h, by omega⟩, fun h => h.1⟩
  rw [hrest, List.length_filter_lt_length_iff_exists]
  exact ⟨d, List.mem_filter.mpr ⟨hd, decide_eq_true hle⟩, by simp⟩

/-- **All passes are read**, if there are enough of them for the characters that remain. -/
theorem reads_passes {label : List Char} {r : Reader} {fuel : Nat} (hmeets : Meets s r 0)
    (hlabel : r.label = label.filter (·.toNat < s.next))
    (hfuel : (label.filter (s.next ≤ ·.toNat)).length ≤ fuel) :
    Reads r (passes (label.map Char.toNat) s fuel) label := by
  induction fuel generalizing s r with
  | zero =>
    have hnil := List.eq_nil_of_length_eq_zero (Nat.le_zero.mp hfuel)
    refine reads_nil hlabel fun c hc hle => ?_
    exact List.filter_eq_nil_iff.mp hnil c hc (decide_eq_true hle)
  | succ fuel ih =>
    rw [passes]
    rcases hmin : ((label.map Char.toNat).filter (· ≥ s.next)).min? with - | m
    · refine reads_nil hlabel fun c hc hle => ?_
      exact List.filter_eq_nil_iff.mp (List.min?_eq_none_iff.mp hmin) c.toNat
        (List.mem_map_of_mem hc) (decide_eq_true hle)
    · obtain ⟨hmem, hleast⟩ := List.min?_eq_some_iff.mp hmin
      obtain ⟨hmap, hle⟩ := List.mem_filter.mp hmem
      obtain ⟨d, hd, rfl⟩ := List.mem_map.mp hmap
      have hle : s.next ≤ d.toNat := of_decide_eq_true hle
      have hbetween : ∀ c ∈ label, c.toNat < d.toNat → c.toNat < s.next := by
        intro c hc hlt
        refine Nat.lt_of_not_le fun hge => Nat.not_le.mpr hlt ?_
        exact hleast c.toNat (List.mem_filter.mpr ⟨List.mem_map_of_mem hc, decide_eq_true hge⟩)
      simp only
      obtain ⟨r', hmeets', hlabel', hnext, hreads⟩ := reads_pass [] label
        (hmeets.skip hle) (by
          rw [hlabel]
          refine List.filter_congr fun c hc => decide_eq_decide.mpr ⟨fun h => ?_, hbetween c hc⟩
          exact Nat.lt_of_lt_of_le h hle)
      refine hreads _ _ (ih (Meets.succ ?_) ?_ ?_)
      · rw [← hmeets'.handled, hlabel']
        exact hmeets'
      · rw [hlabel', hnext]
        exact List.filter_congr fun c _ => decide_eq_decide.mpr Nat.lt_succ_iff.symm
      · have hfewer := length_filter_lt hd hle
        rw [hnext]
        exact Nat.lt_succ_iff.mp (Nat.lt_of_lt_of_le hfewer hfuel)

end

/-! ## Labels -/

theorem mem_pass {label : List Nat} {s : State} {c : Char} (h : c ∈ (pass label s).1) :
    ∃ d < 36, c = digitChar d := by
  induction label generalizing s with
  | nil => cases h
  | cons n rest ih =>
    rw [pass_cons] at h
    rcases List.mem_append.mp h with h | h
    · simp only [passStep] at h
      split at h
      · cases h
      · split at h
        · exact mem_number h
        · cases h
    · exact ih h

theorem mem_passes {label : List Nat} {s : State} {fuel : Nat} {c : Char}
    (h : c ∈ passes label s fuel) : ∃ d < 36, c = digitChar d := by
  induction fuel generalizing s with
  | zero => cases h
  | succ fuel ih =>
    rw [passes] at h
    split at h
    · cases h
    · rcases List.mem_append.mp h with h | h
      · exact mem_pass h
      · exact ih h

/-- The ASCII characters of a label. -/
def basic (label : List Char) : List Char :=
  label.filter (·.toNat < 0x80)

/-- The coder before its first pass. -/
def start (label : List Char) : State :=
  { next := 0x80, delta := 0, bias := 72, handled := (basic label).length, isFirst := true }

theorem encode_eq (label : List Char) :
    encode label =
      basic label ++ (if basic label = [] then [] else ['-']) ++
        passes (label.map Char.toNat) (start label) label.length := rfl

/-- What is written for a label are some of its own characters of ASCII, hyphens and digits. -/
theorem mem_encode {label : List Char} {c : Char} (h : c ∈ encode label) :
    c ∈ basic label ∨ c = '-' ∨ ∃ d < 36, c = digitChar d := by
  rw [encode_eq] at h
  rcases List.mem_append.mp h with h | h
  · rcases List.mem_append.mp h with h | h
    · exact .inl h
    · split at h
      · cases h
      · exact .inr (.inl (List.mem_singleton.mp h))
  · exact .inr (.inr (mem_passes h))

/-- What stands behind the last hyphen, and what stands before it, or nothing. -/
theorem split_hyphen (front : List Char) {back : List Char} (h : '-' ∉ back) :
    let s := front ++ (if front = [] then [] else ['-']) ++ back
    (s.reverse.takeWhile (· != '-')).reverse = back ∧
      s.take (s.length - back.length - 1) = front := by
  have hback : ∀ c ∈ back.reverse, (c != '-') = true := by
    intro c hc
    refine bne_iff_ne.mpr ?_
    rintro rfl
    exact h (List.mem_reverse.mp hc)
  by_cases hfront : front = []
  · have hall : back.reverse.takeWhile (· != '-') = back.reverse :=
      List.takeWhile_eq_self_iff.mpr hback
    simp [hfront, hall]
  · have hall : (back.reverse ++ '-' :: front.reverse).takeWhile (· != '-') = back.reverse := by
      rw [List.takeWhile_append_of_pos hback, List.takeWhile_cons_of_neg (by decide),
        List.append_nil]
    have hlength : (front ++ ['-'] ++ back).length - back.length - 1 = front.length := by
      simp only [List.length_append, List.length_singleton]
      omega
    refine ⟨by simp [hfront, hall], ?_⟩
    simp only [if_neg hfront]
    rw [hlength, List.append_assoc, List.take_left]

/-- **Every label is read back.** -/
theorem decode?_encode (label : List Char) : decode? (encode label) = some label := by
  have hhyphen : '-' ∉ passes (label.map Char.toNat) (start label) label.length := by
    intro h
    obtain ⟨d, hd, heq⟩ := mem_passes h
    exact absurd heq.symm ((by decide : ∀ d < 36, digitChar d ≠ '-') d hd)
  obtain ⟨hcoded, hbasic⟩ := split_hyphen (basic label) hhyphen
  have hmeets : Meets (start label) ⟨basic label, 0x80, 0, 72, true⟩ 0 :=
    ⟨Nat.le_refl _, rfl, rfl, rfl, by simp [start]⟩
  have hreads := reads_passes hmeets rfl (List.length_filter_le _ label)
  unfold decode?
  simp only [encode_eq, hcoded, hbasic]
  exact hreads.insertions?_eq (Nat.le_refl _)

end TokenKeeper.Punycode
