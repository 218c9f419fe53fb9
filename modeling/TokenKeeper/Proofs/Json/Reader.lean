import Mathlib.Data.List.Nodup
import Mathlib.Data.List.TakeWhile
import TokenKeeper.Proofs.Json.Text
import TokenKeeper.Proofs.Number.Decimal

/-!
# Reading objects of texts and whole numbers

An object whose members are texts and whole numbers may be written with its members in any order,
with any spelling of their names and texts, and with blanks between all its parts. `WritesObject`
is the relation of the members to what may be written for them. All of it is read
(`ofBytes?_of_writesObject`), and a record gets the value of each of its fields
(`record?_of_fields`).
-/

namespace TokenKeeper.Json

/-- A value that has no parts. -/
inductive Scalar where
  | text (s : String)
  | whole (n : Int)
deriving DecidableEq

/-- Nothing but blanks. -/
def IsBlanks (s : List UInt8) : Prop :=
  ∀ b ∈ s, isSpace b = true

instance (s : List UInt8) : Decidable (IsBlanks s) :=
  List.decidableBAll _ s

/-- A text or a number, and what may be written for it. -/
inductive WritesScalar : Scalar → List UInt8 → Prop where
  | text {s : String} {w : List Char} (h : JsonText.Spells s.toList w) :
      WritesScalar (.text s) (0x22 :: Utf8.encode w ++ [0x22])
  | whole (n : Int) : WritesScalar (.whole n) (Utf8.ofText (Decimal.ofInt n))

/-- A member, and what may be written for it. -/
inductive WritesMember : String × Scalar → List UInt8 → Prop where
  | intro {name : String} {v : Scalar} {s₁ s₂ s₃ s₄ w : List UInt8} {raw : List Char}
      (h₁ : IsBlanks s₁) (h₂ : IsBlanks s₂) (h₃ : IsBlanks s₃) (h₄ : IsBlanks s₄)
      (hname : JsonText.Spells name.toList raw) (hv : WritesScalar v w) :
      WritesMember (name, v)
        (s₁ ++ 0x22 :: (Utf8.encode raw ++ 0x22 :: (s₂ ++ 0x3A :: (s₃ ++ (w ++ s₄)))))

/-- One or more members with commas between them, and what may be written for them. -/
inductive WritesMembers : List (String × Scalar) → List UInt8 → Prop where
  | last {m : String × Scalar} {w : List UInt8} (h : WritesMember m w) : WritesMembers [m] w
  | cons {m : String × Scalar} {ms : List (String × Scalar)} {w ws : List UInt8}
      (h : WritesMember m w) (hms : WritesMembers ms ws) :
      WritesMembers (m :: ms) (w ++ 0x2C :: ws)

/-- An object, and what may be written for it. -/
inductive WritesObject : List (String × Scalar) → List UInt8 → Prop where
  | intro {ms : List (String × Scalar)} {s₁ s₂ w : List UInt8} (h₁ : IsBlanks s₁)
      (h₂ : IsBlanks s₂) (h : WritesMembers ms w) :
      WritesObject ms (s₁ ++ 0x7B :: (w ++ 0x7D :: s₂))

/-- A value that is read for a text or a number. -/
inductive Holds : Json → Scalar → Prop where
  | text {raw : List UInt8} {s : String} (h : JsonText.decode? raw = some s) :
      Holds (.string raw) (.text s)
  | whole (n : Int) : Holds (.number (Utf8.ofText (Decimal.ofInt n))) (.whole n)

/-- A member that is read for a name and a value. -/
def HoldsMember (m : List UInt8 × Json) (p : String × Scalar) : Prop :=
  JsonText.decode? m.1 = some p.1 ∧ Holds m.2 p.2

variable {s rest w : List UInt8} {n : Int} {v : Scalar} {ms : List (String × Scalar)}

/-! ## Blanks -/

theorem eq_of_isSpace {b : UInt8} (h : isSpace b = true) :
    b = 0x20 ∨ b = 0x09 ∨ b = 0x0A ∨ b = 0x0D := by
  simpa [isSpace, or_assoc] using h

theorem skip_append (h : IsBlanks s) (rest : List UInt8) : skip (s ++ rest) = skip rest :=
  List.dropWhile_append_of_pos h

theorem skip_cons {b : UInt8} (hb : isSpace b = false) (rest : List UInt8) :
    skip (b :: rest) = b :: rest :=
  List.dropWhile_cons_of_neg (by simp [hb])

theorem skip_eq_nil (h : IsBlanks s) : skip s = [] :=
  List.dropWhile_eq_nil_iff.mpr h

/-! ## Numbers -/

/-- Nothing that goes on with a number. -/
def EndsNumber (s : List UInt8) : Prop :=
  ∀ b ∈ s.head?, isDigit b = false ∧ b ≠ 0x2E ∧ b ≠ 0x65 ∧ b ≠ 0x45

theorem endsNumber_append (h : IsBlanks s) {b : UInt8} (hb : b = 0x2C ∨ b = 0x7D)
    (rest : List UInt8) : EndsNumber (s ++ b :: rest) := by
  intro d hd
  have hd : isSpace d = true ∨ d = 0x2C ∨ d = 0x7D := by
    cases s with
    | nil =>
      obtain rfl : b = d := Option.some.inj hd
      exact .inr hb
    | cons c s =>
      obtain rfl : c = d := Option.some.inj hd
      exact .inl (h c List.mem_cons_self)
  rcases hd with hd | rfl | rfl
  · rcases eq_of_isSpace hd with rfl | rfl | rfl | rfl <;> decide
  · decide
  · decide

theorem digits?_append (hs : ∀ b ∈ w, isDigit b = true) (hne : w ≠ []) (hrest : EndsNumber rest) :
    digits? (w ++ rest) = some (w, rest) := by
  have hstop : rest.takeWhile isDigit = [] ∧ rest.dropWhile isDigit = rest := by
    cases rest with
    | nil => exact ⟨rfl, rfl⟩
    | cons b rest =>
      have hb : ¬ isDigit b = true := by simp [(hrest b rfl).1]
      exact ⟨List.takeWhile_cons_of_neg hb, List.dropWhile_cons_of_neg hb⟩
  rw [digits?, List.takeWhile_append_of_pos hs, List.dropWhile_append_of_pos hs, hstop.1, hstop.2,
    List.append_nil]
  cases w with
  | nil => exact absurd rfl hne
  | cons b w => rfl

theorem lt_of_isDigit {c : Char} (h : Decimal.isDigit c = true) : c.toNat < 0x80 := by
  simp only [Decimal.isDigit, Bool.and_eq_true, decide_eq_true_eq] at h
  omega

/-- The bytes of digits are digits, and only zero has a zero in front. -/
theorem exists_encode_digits (n : Nat) :
    ∃ b more, Utf8.encode (Decimal.digits n) = b :: more ∧ (∀ d ∈ b :: more, isDigit d = true) ∧
      (n ≠ 0 → b ≠ 0x30) := by
  have hdigit := List.all_eq_true.mp (Decimal.all_isDigit_digits n)
  have hbyte : ∀ c ∈ Decimal.digits n, c.toNat.toUInt8.toNat = c.toNat := fun c hc =>
    Utf8.toNat_toUInt8_ascii (lt_of_isDigit (hdigit c hc))
  rcases hdigits : Decimal.digits n with - | ⟨c, rest⟩
  · exact absurd hdigits (Decimal.digits_ne_nil n)
  rw [hdigits] at hdigit hbyte
  refine ⟨c.toNat.toUInt8, rest.map fun c => c.toNat.toUInt8, ?_, ?_, ?_⟩
  · rw [Utf8.encode_ascii fun c hc => lt_of_isDigit (hdigit c hc), List.map_cons]
  · rw [← List.map_cons (f := fun c : Char => c.toNat.toUInt8)]
    intro d hd
    obtain ⟨c, hc, rfl⟩ := List.mem_map.mp hd
    have hc' := hdigit c hc
    simp only [Decimal.isDigit, isDigit, UInt8.le_iff_toNat_le, hbyte c hc] at hc' ⊢
    exact hc'
  · intro hn hzero
    have hc : c.toNat = '0'.toNat := by
      rw [← hbyte c List.mem_cons_self, hzero]
      rfl
    obtain rfl := Char.toNat_inj.mp hc
    exact Decimal.digits_ne_zero_cons hn rest hdigits

theorem whole?_append (n : Nat) (hrest : EndsNumber rest) :
    whole? (Utf8.encode (Decimal.digits n) ++ rest) =
      some (Utf8.encode (Decimal.digits n), rest) := by
  rcases Nat.eq_zero_or_pos n with rfl | hn
  · have hzero : Utf8.encode (Decimal.digits 0) = [0x30] := by decide +kernel
    rw [hzero, List.singleton_append, whole?]
  · obtain ⟨b, more, hbytes, hdigit, hb⟩ := exists_encode_digits n
    rw [hbytes, ← digits?_append hdigit (List.cons_ne_nil _ _) hrest, whole?]
    exact fun rest h => hb (Nat.ne_of_gt hn) (List.cons.inj h).1

theorem ofText_ofInt (n : Int) :
    Utf8.ofText (Decimal.ofInt n) =
      (if n < 0 then [0x2D] else []) ++ Utf8.encode (Decimal.digits n.natAbs) := by
  rw [Utf8.ofText, Decimal.toList_ofInt]
  split <;> rfl

/-- **The text of a number is read**, up to its last digit. -/
theorem number?_append (n : Int) (hrest : EndsNumber rest) :
    number? (Utf8.ofText (Decimal.ofInt n) ++ rest) =
      some (Utf8.ofText (Decimal.ofInt n), rest) := by
  have hsign : sign (Utf8.ofText (Decimal.ofInt n) ++ rest) =
      (if n < 0 then [0x2D] else [], Utf8.encode (Decimal.digits n.natAbs) ++ rest) := by
    rw [ofText_ofInt]
    split
    · rfl
    · obtain ⟨b, more, hbytes, hdigit, -⟩ := exists_encode_digits n.natAbs
      rw [List.nil_append, hbytes, List.cons_append, sign]
      intro rest h
      have hb := hdigit b List.mem_cons_self
      rw [(List.cons.inj h).1] at hb
      exact absurd hb (by decide)
  have hfraction : fraction? rest = some ([], rest) := by
    rw [fraction?]
    rintro rest rfl
    exact (hrest 0x2E rfl).2.1 rfl
  have hexponent : exponent? rest = some ([], rest) := by
    cases rest with
    | nil => rfl
    | cons b rest =>
      obtain ⟨-, -, he, he'⟩ := hrest b rfl
      simp [exponent?, he, he']
  rw [number?, hsign]
  simp only [whole?_append n.natAbs hrest, hfraction, hexponent, Option.bind_eq_bind,
    Option.bind_some, List.append_nil, ← ofText_ofInt]
  rfl

/-- **The text of a number of 64 bits stands for this number.** -/
theorem int64?_ofText_ofInt (hn : isInt64 n = true) :
    int64? (number (Utf8.ofText (Decimal.ofInt n))) = some n := by
  have hspelled : ((Utf8.ofText (Decimal.ofInt n)).map fun b => Char.ofNat b.toNat) =
      (Decimal.ofInt n).toList := by
    refine Utf8.map_encode_ascii fun c hc => ?_
    rcases Decimal.mem_ofInt hc with rfl | hc
    · decide
    · exact lt_of_isDigit hc
  have hzero : (Decimal.ofInt n).toList ≠ ['-', '0'] := by
    rw [Decimal.toList_ofInt]
    split
    · exact fun h => Decimal.digits_ne_zero_cons (by omega) [] (List.cons.inj h).2
    · intro h
      have hsign := List.all_eq_true.mp (Decimal.all_isDigit_digits n.natAbs) '-'
      rw [h] at hsign
      exact absurd (hsign List.mem_cons_self) (by decide)
  simp only [int64?, hspelled, if_neg hzero, Decimal.toInt?_ofInt, if_pos hn]

/-! ## Values -/

theorem exists_ofText_ofInt (n : Int) :
    ∃ b more, Utf8.ofText (Decimal.ofInt n) = b :: more ∧ (b == 0x2D || isDigit b) = true := by
  obtain ⟨b, more, hbytes, hdigit, -⟩ := exists_encode_digits n.natAbs
  rw [ofText_ofInt, hbytes]
  split
  · exact ⟨0x2D, b :: more, rfl, by decide⟩
  · exact ⟨b, more, rfl, by rw [hdigit b List.mem_cons_self, Bool.or_true]⟩

theorem value?_of_number {b : UInt8} (hb : (b == 0x2D || isDigit b) = true) (hs : IsBlanks s)
    (more : List UInt8) (fuel : Nat) :
    value? (fuel + 1) (s ++ b :: more) =
      (number? (b :: more)).map fun (literal, rest) => (number literal, rest) := by
  have hspace : isSpace b = false := by
    refine Bool.eq_false_iff.mpr fun h => ?_
    rcases eq_of_isSpace h with rfl | rfl | rfl | rfl <;> exact absurd hb (by decide)
  rw [value?, skip_append hs, skip_cons hspace]
  -- a sign or a digit is none of the bytes with which values of other kinds start
  split
  all_goals rename_i h
  · cases h
  iterate 6
    obtain ⟨rfl, rfl⟩ := List.cons.inj h
    exact absurd hb (by decide)
  · obtain ⟨rfl, rfl⟩ := List.cons.inj h
    rw [if_pos hb]

/-- **A text or a number is read**, with blanks in front of it. -/
theorem value?_append (hs : IsBlanks s) (hv : WritesScalar v w) (hrest : EndsNumber rest)
    (fuel : Nat) :
    ∃ v', value? (fuel + 1) (s ++ (w ++ rest)) = some (v', rest) ∧ Holds v' v := by
  cases hv with
  | text h =>
    refine ⟨_, ?_, .text (JsonText.decode?_of_spells h)⟩
    rw [value?, skip_append hs, List.append_assoc, List.cons_append, skip_cons (by decide),
      List.singleton_append]
    simp only [JsonText.stringRest?_of_spells h, Option.map_some]
  | whole n =>
    refine ⟨_, ?_, .whole n⟩
    obtain ⟨b, more, hbytes, hb⟩ := exists_ofText_ofInt n
    rw [hbytes, List.cons_append, value?_of_number hb hs, ← List.cons_append, ← hbytes,
      number?_append n hrest, Option.map_some]

/-! ## Members -/

/-- A member is read, and then what the byte behind it says. -/
theorem members?_member {m : String × Scalar} (hm : WritesMember m w) {b : UInt8}
    (hb : b = 0x2C ∨ b = 0x7D) (rest : List UInt8) (fuel : Nat) :
    ∃ m', HoldsMember m' m ∧
      members? (fuel + 2) (w ++ b :: rest) =
        if b = 0x2C then (members? (fuel + 1) rest).map fun (ms, rest) => (m' :: ms, rest)
        else some ([m'], rest) := by
  obtain @⟨_, _, _, _, _, _, _, raw, h₁, h₂, h₃, h₄, hname, hv⟩ := hm
  obtain ⟨v', hread, hholds⟩ := value?_append h₃ hv (endsNumber_append h₄ hb rest) fuel
  refine ⟨(Utf8.encode raw, v'), ⟨JsonText.decode?_of_spells hname, hholds⟩, ?_⟩
  simp only [List.append_assoc, List.cons_append]
  rw [members?, skip_append h₁, skip_cons (by decide)]
  simp only [JsonText.stringRest?_of_spells hname, skip_append h₂]
  rw [skip_cons (by decide)]
  simp only [hread]
  rw [skip_append h₄]
  rcases hb with rfl | rfl
  · rw [skip_cons (by decide)]
    rfl
  · rw [skip_cons (by decide)]
    rfl

/-- **Members are read** up to the closing brace. -/
theorem members?_append (hms : WritesMembers ms w) (rest : List UInt8) {fuel : Nat}
    (hfuel : ms.length ≤ fuel) :
    ∃ ms', members? (fuel + 1) (w ++ 0x7D :: rest) = some (ms', rest) ∧
      List.Forall₂ HoldsMember ms' ms := by
  -- the reader goes down by one step for each member, and a value of a member needs one step only
  induction hms generalizing fuel with
  | last hm =>
    obtain ⟨fuel, rfl⟩ := Nat.exists_eq_add_of_le' hfuel
    obtain ⟨m', hholds, hread⟩ := members?_member hm (.inr rfl) rest fuel
    exact ⟨[m'], hread, .cons hholds .nil⟩
  | cons hm hms ih =>
    obtain ⟨fuel, rfl⟩ := Nat.exists_eq_add_of_le' (Nat.le_trans (Nat.le_add_left 1 _) hfuel)
    obtain ⟨ms', hmore, hholds⟩ := ih (Nat.le_of_succ_le_succ hfuel)
    obtain ⟨m', hm', hread⟩ := members?_member hm (.inl rfl) _ fuel
    refine ⟨m' :: ms', ?_, .cons hm' hholds⟩
    rw [List.append_assoc, List.cons_append, hread, if_pos rfl, hmore, Option.map_some]

theorem length_le_of_writesMembers (hms : WritesMembers ms w) : ms.length ≤ w.length := by
  have hmember : ∀ {m : String × Scalar} {w : List UInt8}, WritesMember m w → 1 ≤ w.length := by
    rintro m w ⟨-⟩
    rw [List.length_append, List.length_cons]
    omega
  induction hms with
  | last hm => exact hmember hm
  | cons hm hms ih =>
    rw [List.length_cons, List.length_append, List.length_cons]
    omega

/-- Members that are read have a quote in front, behind blanks that do not matter. -/
theorem skip_of_members? {fuel : Nat} {r : List (List UInt8 × Json) × List UInt8}
    (h : members? fuel s = some r) :
    members? fuel (skip s) = some r ∧ ∃ rest, skip s = 0x22 :: rest := by
  cases fuel with
  | zero => cases h
  | succ fuel =>
    rw [members?] at h
    split at h
    · rename_i rest hquote
      refine ⟨?_, rest, hquote⟩
      rw [members?, hquote, skip_cons (by decide)]
      exact h
    · cases h

/-- **An object is read**, with all of its members. -/
theorem ofBytes?_of_writesObject (h : WritesObject ms s) :
    ∃ ms', ofBytes? s = some (object ms') ∧ List.Forall₂ HoldsMember ms' ms := by
  cases h with
  | @intro s₁ s₂ w h₁ h₂ hms =>
    have hfuel : ms.length ≤ 2 * (s₁ ++ 0x7B :: (w ++ 0x7D :: s₂)).length := by
      have := length_le_of_writesMembers hms
      simp only [List.length_append, List.length_cons]
      omega
    obtain ⟨ms', hread, hholds⟩ := members?_append hms s₂ hfuel
    -- the reader skips blanks behind the brace once more before it turns to the members
    obtain ⟨hskip, rest, hquote⟩ := skip_of_members? hread
    refine ⟨ms', ?_, hholds⟩
    rw [hquote] at hskip
    have hvalue : value? (2 * (s₁ ++ 0x7B :: (w ++ 0x7D :: s₂)).length + 2)
        (s₁ ++ 0x7B :: (w ++ 0x7D :: s₂)) = some (object ms', s₂) := by
      rw [value?, skip_append h₁, skip_cons (by decide)]
      simp only [hquote]
      exact congrArg (Option.map fun (ms, rest) => (object ms, rest)) hskip
    rw [ofBytes?, hvalue]
    simp only [skip_eq_nil h₂, if_true]

/-! ## Records -/

/-- The names of members are read, one by one. -/
theorem mapM_decode?_eq_some {ms' : List (List UInt8 × Json)}
    (h : List.Forall₂ HoldsMember ms' ms) :
    ∃ named, (ms'.mapM fun (raw, v) => (JsonText.decode? raw).map (·, v)) = some named ∧
      List.Forall₂ (fun p m => p.1 = m.1 ∧ Holds p.2 m.2) named ms := by
  induction h with
  | nil => exact ⟨[], rfl, .nil⟩
  | @cons m' m ms' ms hm hms ih =>
    obtain ⟨named, hread, hnamed⟩ := ih
    refine ⟨(m.1, m'.2) :: named, ?_, .cons ⟨rfl, hm.2⟩ hnamed⟩
    simp only [List.mapM_cons, hread, hm.1]
    rfl

section

variable {named : List (String × Json)} {name : String}

theorem membersNamed_cons (p : String × Json) (named : List (String × Json)) (name : String) :
    membersNamed (p :: named) name =
      if p.1 = name then p.2 :: membersNamed named name else membersNamed named name := by
  simp only [membersNamed, List.filter_cons, beq_iff_eq]
  split <;> rfl

theorem membersNamed_eq_nil (h : List.Forall₂ (fun p m => p.1 = m.1 ∧ Holds p.2 m.2) named ms)
    (hname : name ∉ ms.map Prod.fst) : membersNamed named name = [] := by
  induction h with
  | nil => rfl
  | cons hp _ ih =>
    obtain ⟨hne, hname⟩ := List.ne_and_not_mem_of_not_mem_cons hname
    rw [membersNamed_cons, hp.1, if_neg (Ne.symm hne), ih hname]

/-- The one value of a member. -/
theorem membersNamed_eq_singleton
    (h : List.Forall₂ (fun p m => p.1 = m.1 ∧ Holds p.2 m.2) named ms)
    (hnames : (ms.map Prod.fst).Nodup) (hmem : (name, v) ∈ ms) :
    ∃ v', membersNamed named name = [v'] ∧ Holds v' v := by
  induction h with
  | nil => cases hmem
  | @cons p m named ms hp hms ih =>
    obtain ⟨hfresh, hnames⟩ := List.nodup_cons.mp hnames
    rw [membersNamed_cons, hp.1]
    rcases List.mem_cons.mp hmem with rfl | hmem
    · exact ⟨p.2, by rw [if_pos rfl, membersNamed_eq_nil hms hfresh], hp.2⟩
    · have hne : m.1 ≠ name := fun h => hfresh (h ▸ List.mem_map_of_mem (f := Prod.fst) hmem)
      rw [if_neg hne]
      exact ih hnames hmem

end

/-- **A record has the values of its fields**, if each is the name of one member. -/
theorem record?_of_fields {ms' : List (List UInt8 × Json)} {names : List String}
    {values : List Scalar} (h : List.Forall₂ HoldsMember ms' ms)
    (hnames : (ms.map Prod.fst).Nodup)
    (hvalues : List.Forall₂ (fun name v => (name, v) ∈ ms) names values) :
    ∃ values', record? names (object ms') = some (values'.map some) ∧
      List.Forall₂ Holds values' values := by
  obtain ⟨named, hread, hnamed⟩ := mapM_decode?_eq_some h
  have hfields : ∃ values', (names.all fun n => (membersNamed named n).length ≤ 1) = true ∧
      (names.map fun n => (membersNamed named n).head?) = values'.map some ∧
      List.Forall₂ Holds values' values := by
    clear hread h
    induction hvalues with
    | nil => exact ⟨[], rfl, rfl, .nil⟩
    | cons hmem _ ih =>
      obtain ⟨values', hall, hmap, hholds⟩ := ih
      obtain ⟨v', hone, hv⟩ := membersNamed_eq_singleton hnamed hnames hmem
      refine ⟨v' :: values', ?_, ?_, .cons hv hholds⟩
      · rw [List.all_cons, hone, hall]
        rfl
      · rw [List.map_cons, hone, hmap]
        rfl
  obtain ⟨values', hall, hmap, hholds⟩ := hfields
  refine ⟨values', ?_, hholds⟩
  rw [record?, hread, Option.bind_eq_bind, Option.bind_some, if_pos hall, hmap]
  rfl

end TokenKeeper.Json
