import TokenKeeper.Number.Binary64

/-!
# Metric families

A family is a metric with a name, a help text and label names. Its samples are a `Series`: a value
for each list of label values that has come up, and `update` is the one way in which a series
changes.
-/

namespace TokenKeeper

/-- The kinds of metrics. -/
inductive MetricKind where
  | counter | gauge | histogram
deriving DecidableEq, Repr

/-- The word for a kind. -/
def MetricKind.text : MetricKind → String
  | counter => "counter"
  | gauge => "gauge"
  | histogram => "histogram"

/-- What is known of a metric before there are samples. -/
structure Family where
  name : String
  help : String
  kind : MetricKind
  /-- The names of the labels, in the order in which values are given. -/
  labels : List String := []
deriving Repr

/-- A value for each list of label values. -/
abbrev Series (α : Type) := List (List String × α)

namespace Series

variable {α : Type}

/-- The value for some label values. -/
def get? (s : Series α) (labels : List String) : Option α :=
  s.lookup labels

/-- Change the value for some label values, starting from `initial` if there is none. -/
def update (labels : List String) (initial : α) (f : α → α) : Series α → Series α
  | [] => [(labels, f initial)]
  | (l, v) :: rest =>
    if l = labels then (l, f v) :: rest else (l, v) :: update labels initial f rest

/-- A change brings up no label values but its own. -/
theorem fst_of_mem_update {labels : List String} {initial : α} {f : α → α} {s : Series α}
    {p : List String × α} (h : p ∈ update labels initial f s) :
    p.1 = labels ∨ ∃ q ∈ s, q.1 = p.1 := by
  induction s with
  | nil =>
    obtain rfl := List.mem_singleton.mp h
    exact .inl rfl
  | cons q rest ih =>
    simp only [update] at h
    split at h <;> rcases List.mem_cons.mp h with rfl | h
    · exact .inr ⟨q, List.mem_cons_self, rfl⟩
    · exact .inr ⟨p, List.mem_cons_of_mem _ h, rfl⟩
    · exact .inr ⟨q, List.mem_cons_self, rfl⟩
    · rcases ih h with hp | ⟨q', hq', hp⟩
      · exact .inl hp
      · exact .inr ⟨q', List.mem_cons_of_mem _ hq', hp⟩

theorem get?_cons (l : List String) (v : α) (s : Series α) (labels : List String) :
    get? ((l, v) :: s) labels = if l = labels then some v else get? s labels := by
  by_cases h : l = labels
  · subst h
    rw [get?, List.lookup_cons_self, if_pos rfl]
  · have hne : (labels == l) = false := beq_eq_false_iff_ne.mpr (Ne.symm h)
    rw [get?, List.lookup_cons, hne, if_neg h, get?]

/-- A change is found under its label values, and everywhere else all is as before. -/
theorem get?_update (labels : List String) (initial : α) (f : α → α) (s : Series α)
    (other : List String) :
    get? (update labels initial f s) other =
      if labels = other then some (f ((get? s labels).getD initial)) else get? s other := by
  induction s with
  | nil =>
    rw [update, get?_cons]
    rfl
  | cons q rest ih =>
    obtain ⟨l, v⟩ := q
    rw [update]
    by_cases h : l = labels
    · subst h
      rw [if_pos rfl, get?_cons, get?_cons, get?_cons, if_pos rfl]
      split <;> rfl
    · rw [if_neg h, get?_cons, ih, get?_cons, get?_cons, if_neg h]
      by_cases hother : labels = other
      · subst hother
        rw [if_neg h, if_pos rfl, if_pos rfl]
      · rw [if_neg hother, if_neg hother]

end Series

/-- What has been counted under some label values. -/
abbrev Counters := Series Nat

namespace Counters

/-- The count, zero if there is none. -/
def count (s : Counters) (labels : List String) : Nat :=
  (Series.get? s labels).getD 0

/-- Count `n` more. -/
def add (s : Counters) (labels : List String) (n : Nat) : Counters :=
  Series.update labels 0 (· + n) s

/-- One count goes up and the others stay. -/
theorem count_add (s : Counters) (labels : List String) (n : Nat) (other : List String) :
    (s.add labels n).count other = s.count other + if labels = other then n else 0 := by
  rw [count, add, Series.get?_update]
  split
  · subst other
    rfl
  · rfl

end Counters

/-- What a histogram has observed, the latest first. -/
structure Histogram where
  observations : List Binary64 := []
deriving DecidableEq, Repr

namespace Histogram

/-- The number of observations. -/
def count (h : Histogram) : Nat :=
  h.observations.length

/-- The sum of the observations in their order. -/
def sum (h : Histogram) : Binary64 :=
  h.observations.reverse.foldl Binary64.add .zero

/-- The number of observations that are not above a bound. -/
def countUpTo (h : Histogram) (bound : Binary64) : Nat :=
  (h.observations.filter (·.le bound)).length

/-- Observe one more value. -/
def observe (h : Histogram) (value : Binary64) : Histogram :=
  ⟨value :: h.observations⟩

/-- The bounds of the buckets, in thousandths. -/
def bounds : List Nat :=
  [5, 10, 25, 50, 100, 250, 500, 1000, 2500, 5000, 10000]

end Histogram

/-- What has been observed under some label values. -/
abbrev Histograms := Series Histogram

namespace Histograms

/-- The number of observations, zero if there is none. -/
def count (s : Histograms) (labels : List String) : Nat :=
  ((Series.get? s labels).map Histogram.count).getD 0

/-- Observe one more value. -/
def observe (s : Histograms) (labels : List String) (value : Binary64) : Histograms :=
  Series.update labels {} (·.observe value) s

/-- There is one observation more, and the others stay. -/
theorem count_observe (s : Histograms) (labels : List String) (value : Binary64)
    (other : List String) :
    (s.observe labels value).count other = s.count other + if labels = other then 1 else 0 := by
  rw [count, observe, Series.get?_update, count]
  split
  · subst other
    rcases s.get? labels with - | h <;> rfl
  · rfl

end Histograms

end TokenKeeper
