/-!
# Instants and spans

Points in time and lengths of time, both counted in nanoseconds. An `Instant` counts from the start
of 1970 and may lie before it; a `Span` is never negative. Subtraction of spans stops at zero.
-/

namespace TokenKeeper

/-- A length of time. -/
structure Span where
  /-- The length in nanoseconds. -/
  nanos : Nat
deriving DecidableEq, Repr, Inhabited

/-- A point in time. -/
structure Instant where
  /-- Nanoseconds since the start of 1970. -/
  nanos : Int
deriving DecidableEq, Repr, Inhabited

/-- Nanoseconds in a second. -/
def nanosPerSecond : Nat := 1000000000

/-- Nanoseconds in a millisecond. -/
def nanosPerMilli : Nat := 1000000

namespace Span

/-- A whole number of seconds. -/
def seconds (n : Nat) : Span :=
  ⟨n * nanosPerSecond⟩

/-- A whole number of milliseconds. -/
def millis (n : Nat) : Span :=
  ⟨n * nanosPerMilli⟩

/-- Seconds and nanoseconds together. -/
def ofParts (secs nanos : Nat) : Span :=
  ⟨secs * nanosPerSecond + nanos⟩

/-- The whole seconds. -/
def wholeSeconds (s : Span) : Nat :=
  s.nanos / nanosPerSecond

/-- The nanoseconds beyond the whole seconds. -/
def subsecNanos (s : Span) : Nat :=
  s.nanos % nanosPerSecond

/-- The whole milliseconds that are enough to cover the span. -/
def ceilMillis (s : Span) : Nat :=
  (s.nanos + nanosPerMilli - 1) / nanosPerMilli

/-- The longer of two spans. -/
def max (a b : Span) : Span :=
  ⟨Max.max a.nanos b.nanos⟩

instance : Sub Span where
  sub a b := ⟨a.nanos - b.nanos⟩

instance : LE Span where
  le a b := a.nanos ≤ b.nanos

instance : LT Span where
  lt a b := a.nanos < b.nanos

instance (a b : Span) : Decidable (a ≤ b) :=
  inferInstanceAs (Decidable (a.nanos ≤ b.nanos))

instance (a b : Span) : Decidable (a < b) :=
  inferInstanceAs (Decidable (a.nanos < b.nanos))

@[simp] theorem nanos_seconds (n : Nat) : (seconds n).nanos = n * nanosPerSecond := rfl

@[simp] theorem nanos_millis (n : Nat) : (millis n).nanos = n * nanosPerMilli := rfl

@[simp] theorem nanos_max (a b : Span) : (a.max b).nanos = Max.max a.nanos b.nanos := rfl

@[simp] theorem nanos_sub (a b : Span) : (a - b).nanos = a.nanos - b.nanos := rfl

theorem le_iff (a b : Span) : a ≤ b ↔ a.nanos ≤ b.nanos := Iff.rfl

theorem le_max_right (a b : Span) : b ≤ a.max b :=
  Nat.le_max_right a.nanos b.nanos

/-- A longer span needs no fewer milliseconds. -/
theorem ceilMillis_mono {a b : Span} (h : a ≤ b) : a.ceilMillis ≤ b.ceilMillis :=
  Nat.div_le_div_right (Nat.sub_le_sub_right (Nat.add_le_add_right h _) 1)

/-- Enough milliseconds to cover a span cover it. -/
theorem le_ceilMillis_mul (s : Span) : s.nanos ≤ s.ceilMillis * nanosPerMilli := by
  simp only [ceilMillis, nanosPerMilli]
  omega

/-- Rounding up to milliseconds adds less than one of them. -/
theorem ceilMillis_mul_lt (s : Span) : s.ceilMillis * nanosPerMilli < s.nanos + nanosPerMilli := by
  simp only [ceilMillis, nanosPerMilli]
  omega

theorem ceilMillis_seconds (n : Nat) : (seconds n).ceilMillis = n * 1000 := by
  simp only [ceilMillis, seconds, nanosPerMilli, nanosPerSecond]
  omega

end Span

namespace Instant

/-- Seconds since the start of 1970 and nanoseconds after them. -/
def ofParts (secs : Int) (nanos : Nat) : Instant :=
  ⟨secs * nanosPerSecond + nanos⟩

/-- The last whole second at or before the instant. -/
def unixSeconds (i : Instant) : Int :=
  i.nanos / nanosPerSecond

/-- The nanoseconds after that second. -/
def subsecNanos (i : Instant) : Nat :=
  (i.nanos % nanosPerSecond).toNat

/-- The instant a span later. -/
def after (i : Instant) (s : Span) : Instant :=
  ⟨i.nanos + s.nanos⟩

/-- The instant a number of milliseconds later, or earlier for a negative number. -/
def afterMillis (i : Instant) (ms : Int) : Instant :=
  ⟨i.nanos + ms * nanosPerMilli⟩

/-- The time from `now` until `i`, zero if that is past. -/
def since (i now : Instant) : Span :=
  ⟨(i.nanos - now.nanos).toNat⟩

instance : LE Instant where
  le a b := a.nanos ≤ b.nanos

instance : LT Instant where
  lt a b := a.nanos < b.nanos

instance (a b : Instant) : Decidable (a ≤ b) :=
  inferInstanceAs (Decidable (a.nanos ≤ b.nanos))

instance (a b : Instant) : Decidable (a < b) :=
  inferInstanceAs (Decidable (a.nanos < b.nanos))

theorem le_iff (a b : Instant) : a ≤ b ↔ a.nanos ≤ b.nanos := Iff.rfl

theorem lt_iff (a b : Instant) : a < b ↔ a.nanos < b.nanos := Iff.rfl

@[simp] theorem nanos_after (i : Instant) (s : Span) : (i.after s).nanos = i.nanos + s.nanos := rfl

end Instant

end TokenKeeper
