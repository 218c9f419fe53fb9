import Mathlib.Data.Int.Order.Basic
import TokenKeeper.Proofs.Token.Expiry

/-!
# Time in machine words

Spans and differences of instants as a machine keeps them: whole seconds in 64 bits and the
nanoseconds beyond them in 32. Seconds of a span have no sign, those of a difference have one, and a
difference may not be longer than a number of milliseconds that fits 64 bits.

Words are what they stand for: `toSpan` and `toInt` give the nanoseconds, and each operation here is
the one on nanoseconds (`toSpan_saturatingSub`, `toSpan_max`). Instants of the calendar are never
too far apart for a difference (`exists_minus?`).
-/

namespace TokenKeeper

/-- A span in words. -/
structure SpanWords where
  secs : UInt64
  /-- The nanoseconds beyond the whole seconds. -/
  nanos : UInt32
  nanos_lt : nanos.toNat < nanosPerSecond

namespace SpanWords

variable (a b : SpanWords)

/-- The span that the words stand for. -/
def toSpan : Span :=
  .ofParts a.secs.toNat a.nanos.toNat

/-- No time at all. -/
def zero : SpanWords :=
  ⟨0, 0, by decide⟩

/-- A second. -/
def second : SpanWords :=
  ⟨1, 0, by decide⟩

/-- The nanoseconds in a second, in a word. -/
def wordPerSecond : UInt32 :=
  1000000000

theorem toNat_wordPerSecond : wordPerSecond.toNat = 1000000000 := by decide

theorem toNat_nanos_lt : a.nanos.toNat < 1000000000 :=
  a.nanos_lt

@[simp] theorem toSpan_zero : zero.toSpan = ⟨0⟩ := rfl

theorem nanos_toSpan : a.toSpan.nanos = a.secs.toNat * 1000000000 + a.nanos.toNat := rfl

/-- With a second borrowed there are enough nanoseconds to take others away from. -/
theorem toNat_borrow : (a.nanos + wordPerSecond - b.nanos).toNat + b.nanos.toNat =
    a.nanos.toNat + 1000000000 := by
  have ha := a.toNat_nanos_lt
  have hb := b.toNat_nanos_lt
  have hsum : (a.nanos + wordPerSecond).toNat = a.nanos.toNat + 1000000000 := by
    rw [UInt32.toNat_add, toNat_wordPerSecond]
    omega
  have hle : b.nanos ≤ a.nanos + wordPerSecond := by
    rw [UInt32.le_iff_toNat_le, hsum]
    omega
  rw [UInt32.toNat_sub_of_le _ _ hle, hsum]
  omega

/-- Take a span away from one that is not shorter, with a second borrowed for the nanoseconds if
need be. -/
def checkedSub? : Option SpanWords :=
  if b.secs ≤ a.secs then
    if hnanos : b.nanos ≤ a.nanos then
      some ⟨a.secs - b.secs, a.nanos - b.nanos,
        UInt32.toNat_sub_of_le _ _ hnanos ▸ Nat.lt_of_le_of_lt (Nat.sub_le _ _) a.nanos_lt⟩
    else if 1 ≤ a.secs - b.secs then
      some ⟨a.secs - b.secs - 1, a.nanos + wordPerSecond - b.nanos, by
        have hborrow := a.toNat_borrow b
        rw [UInt32.le_iff_toNat_le] at hnanos
        show _ < 1000000000
        omega⟩
    else none
  else none

/-- Take a span away from another one, down to nothing. -/
def saturatingSub : SpanWords :=
  (a.checkedSub? b).getD zero

/-- The longer of two spans: seconds count first. -/
def max : SpanWords :=
  if a.secs < b.secs ∨ a.secs = b.secs ∧ a.nanos ≤ b.nanos then b else a

/-- What is left of a span when another one is taken away from it, unless that is longer. -/
theorem checkedSub?_cases :
    (∃ d, a.checkedSub? b = some d ∧ d.toSpan.nanos + b.toSpan.nanos = a.toSpan.nanos) ∨
      a.checkedSub? b = none ∧ a.toSpan.nanos < b.toSpan.nanos := by
  have ha := a.toNat_nanos_lt
  have hb := b.toNat_nanos_lt
  have hborrow := a.toNat_borrow b
  have hone : (1 : UInt64).toNat = 1 := rfl
  simp only [checkedSub?, nanos_toSpan, UInt64.le_iff_toNat_le, UInt32.le_iff_toNat_le]
  split_ifs with hsecs hnanos hmore
  · have hsecs' := UInt64.toNat_sub_of_le _ _ (UInt64.le_iff_toNat_le.mpr hsecs)
    have hnanos' := UInt32.toNat_sub_of_le _ _ (UInt32.le_iff_toNat_le.mpr hnanos)
    refine .inl ⟨_, rfl, ?_⟩
    dsimp only
    omega
  · have hsecs' := UInt64.toNat_sub_of_le _ _ (UInt64.le_iff_toNat_le.mpr hsecs)
    have hmore' := UInt64.toNat_sub_of_le _ _ (UInt64.le_iff_toNat_le.mpr hmore)
    refine .inl ⟨_, rfl, ?_⟩
    dsimp only
    omega
  · have hsecs' := UInt64.toNat_sub_of_le _ _ (UInt64.le_iff_toNat_le.mpr hsecs)
    exact .inr ⟨rfl, by omega⟩
  · exact .inr ⟨rfl, by omega⟩

/-- **Words are subtracted as what they stand for.** -/
theorem toSpan_saturatingSub : (a.saturatingSub b).toSpan = a.toSpan - b.toSpan := by
  suffices h : (a.saturatingSub b).toSpan.nanos = a.toSpan.nanos - b.toSpan.nanos from
    congrArg Span.mk h
  rw [saturatingSub]
  rcases a.checkedSub?_cases b with ⟨d, hd, hsum⟩ | ⟨hnone, hlt⟩
  · rw [hd, Option.getD_some]
    omega
  · rw [hnone, Option.getD_none, toSpan_zero]
    exact (Nat.sub_eq_zero_of_le hlt.le).symm

/-- The longer words stand for the longer span. -/
theorem toSpan_max : (a.max b).toSpan = a.toSpan.max b.toSpan := by
  have ha := a.toNat_nanos_lt
  have hb := b.toNat_nanos_lt
  suffices h : (a.max b).toSpan.nanos = Max.max a.toSpan.nanos b.toSpan.nanos from
    congrArg Span.mk h
  rw [max]
  split_ifs with h <;>
    rw [UInt64.lt_iff_toNat_lt, ← UInt64.toNat_inj, UInt32.le_iff_toNat_le] at h <;>
    rw [nanos_toSpan, nanos_toSpan]
  · rw [Nat.max_eq_right (by omega)]
  · rw [Nat.max_eq_left (by omega)]

end SpanWords

/-- A difference of instants in words: the seconds are rounded down. -/
structure ShiftWords where
  secs : Int64
  /-- The nanoseconds above the seconds. -/
  nanos : UInt32
  nanos_lt : nanos.toNat < nanosPerSecond

namespace ShiftWords

variable {d : ShiftWords} {n : Int}

/-- The nanoseconds that the words stand for. -/
def toInt (d : ShiftWords) : Int :=
  d.secs.toInt * nanosPerSecond + d.nanos.toNat

/-- The longest difference, in nanoseconds: a number of milliseconds of 64 bits. -/
def longest : Int :=
  0x7FFFFFFFFFFFFFFF * nanosPerMilli

/-- The nanoseconds above whole seconds, in a word. -/
def subsecond (n : Int) : UInt32 :=
  .ofNat (n % nanosPerSecond).toNat

theorem toNat_subsecond (n : Int) : (subsecond n).toNat = (n % 1000000000).toNat := by
  have hlt : (n % 1000000000).toNat < UInt32.size := by
    show _ < 4294967296
    omega
  exact UInt32.toNat_ofNat_of_lt' hlt

/-- A number of nanoseconds in words, unless it is too large. -/
def ofInt? (n : Int) : Option ShiftWords :=
  if -longest ≤ n ∧ n ≤ longest then
    some ⟨.ofInt (n / nanosPerSecond), subsecond n, by
      rw [toNat_subsecond]
      show _ < 1000000000
      omega⟩
  else none

/-- The span of a difference that is not negative. -/
def toSpan? (d : ShiftWords) : Option SpanWords :=
  if d.secs < 0 then none else some ⟨d.secs.toUInt64, d.nanos, d.nanos_lt⟩

/-- A number that is not too large is kept as it is. -/
theorem exists_ofInt? (hlow : -longest ≤ n) (hhigh : n ≤ longest) :
    ∃ d, ofInt? n = some d ∧ d.toInt = n := by
  have hlongest : longest = 9223372036854775807000000 := rfl
  have hsecs : (Int64.ofInt (n / 1000000000)).toInt = n / 1000000000 :=
    Int64.toInt_ofInt_of_le (by omega) (by omega)
  refine ⟨_, if_pos ⟨hlow, hhigh⟩, ?_⟩
  show (Int64.ofInt (n / 1000000000)).toInt * 1000000000 + ((subsecond n).toNat : Int) = n
  rw [hsecs, toNat_subsecond]
  omega

/-- A difference gives a span of its length, unless it is negative. -/
theorem toSpan?_cases (d : ShiftWords) :
    (∃ s, d.toSpan? = some s ∧ (s.toSpan.nanos : Int) = d.toInt) ∨
      d.toSpan? = none ∧ d.toInt < 0 := by
  have hnanos : d.nanos.toNat < 1000000000 := d.nanos_lt
  have htoInt : d.toInt = d.secs.toInt * 1000000000 + d.nanos.toNat := rfl
  have hzero : (0 : Int64).toInt = 0 := rfl
  rw [toSpan?]
  split_ifs with hneg
  · rw [Int64.lt_iff_toInt_lt, hzero] at hneg
    exact .inr ⟨rfl, by omega⟩
  · have hnonneg : 0 ≤ d.secs := Int64.not_lt.mp hneg
    have hsecs : d.secs.toUInt64.toNat = d.secs.toInt.toNat := Int64.toNat_toUInt64_of_le hnonneg
    rw [Int64.le_iff_toInt_le, hzero] at hnonneg
    refine .inl ⟨_, rfl, ?_⟩
    rw [SpanWords.nanos_toSpan, htoInt]
    dsimp only
    omega

end ShiftWords

namespace Instant

/-- The time from one instant to another in words, unless they are too far apart. -/
def minus? (i now : Instant) : Option ShiftWords :=
  ShiftWords.ofInt? (i.nanos - now.nanos)

/-- **Instants of the calendar are never too far apart.** -/
theorem exists_minus? {i now : Instant} (hi : i.IsInCalendar) (hnow : now.IsInCalendar) :
    ∃ d, i.minus? now = some d ∧ d.toInt = i.nanos - now.nanos := by
  have hlongest : ShiftWords.longest = 9223372036854775807000000 := rfl
  have hearliest : earliest.nanos = -8334601228800000000000 := rfl
  have hlatest : latest.nanos = 8210266876799999999999 := rfl
  obtain ⟨hi₁, hi₂⟩ := hi
  obtain ⟨hnow₁, hnow₂⟩ := hnow
  rw [le_iff] at hi₁ hi₂ hnow₁ hnow₂
  exact ShiftWords.exists_ofInt? (by omega) (by omega)

end Instant

end TokenKeeper
