import TokenKeeper.Time.Basic
import TokenKeeper.Number.Binary64
import TokenKeeper.Number.Decimal
import TokenKeeper.Text.Blank

/-!
# Spans as text

Spans written as in `1h30m` or `1.5s`: an optional `+` and then groups of a decimal number and a
unit, or a bare `0`. Numbers and their sum are kept in `Binary64`, so a text with more digits than
that holds is rounded; the total is rounded to whole nanoseconds and must fit 64 bits.
-/

namespace TokenKeeper

/-- The units of a span. -/
inductive TimeUnit where
  | nano | micro | milli | second | minute | hour
deriving DecidableEq, Repr

namespace TimeUnit

/-- The length of a unit in nanoseconds. -/
def nanos : TimeUnit → Nat
  | nano => 1
  | micro => 1000
  | milli => 1000000
  | second => 1000000000
  | minute => 60 * 1000000000
  | hour => 3600 * 1000000000

/-- The unit of a spelling. The micro sign and the Greek letter mu both spell microseconds. -/
def ofSpelling? (s : List Char) : Option TimeUnit :=
  if s = ['n', 's'] then some nano
  else if s = ['u', 's'] ∨ s = [Char.ofNat 0xB5, 's'] ∨ s = [Char.ofNat 0x3BC, 's'] then some micro
  else if s = ['m', 's'] then some milli
  else if s = ['s'] then some second
  else if s = ['m'] then some minute
  else if s = ['h'] then some hour
  else none

end TimeUnit

/-- Why a text is no span. -/
inductive SpanError where
  /-- Nothing but blanks. -/
  | empty
  /-- A sign that makes the span negative. -/
  | negative
  /-- The text ends after a number. -/
  | missingUnit
  /-- A group that does not start with a number, or a number with two points or no digit. -/
  | invalid
  /-- A unit that does not exist. -/
  | unknownUnit (unit : String)
  /-- More nanoseconds than 64 bits hold. -/
  | outOfRange
deriving DecidableEq, Repr

/-- The wording of a refusal of the text `raw`. -/
def SpanError.message (raw : String) : SpanError → String
  | empty => "empty duration"
  | negative => "negative duration '" ++ raw ++ "'"
  | missingUnit => "missing unit in duration '" ++ raw ++ "'"
  | invalid => "invalid duration '" ++ raw ++ "'"
  | unknownUnit unit => "unknown unit '" ++ unit ++ "' in duration '" ++ raw ++ "'"
  | outOfRange => "duration '" ++ raw ++ "' out of range"

namespace Span

/-- A character of a decimal number. -/
def isNumberChar (c : Char) : Bool :=
  Decimal.isDigit c || c == '.'

/-- Read a decimal number: digits with at most one point and at least one digit. -/
def number? (s : List Char) : Option Binary64 :=
  let whole := s.takeWhile Decimal.isDigit
  match s.dropWhile Decimal.isDigit with
  | [] => if whole = [] then none else some (Binary64.ofDecimal (Decimal.value whole) 0)
  | c :: frac =>
    if c = '.' ∧ frac.all Decimal.isDigit ∧ whole ++ frac ≠ [] then
      some (Binary64.ofDecimal (Decimal.value (whole ++ frac)) frac.length)
    else none

/-- What follows a number and its unit is shorter than the whole. -/
theorem length_afterUnit {s : List Char} (h : s.dropWhile isNumberChar ≠ []) :
    ((s.dropWhile isNumberChar).dropWhile (!isNumberChar ·)).length < s.length := by
  have hs : (s.dropWhile isNumberChar).length ≤ s.length :=
    (List.dropWhile_sublist _).length_le
  have hc := List.head_dropWhile_not (p := isNumberChar) (l := s) h
  revert hs hc h
  cases s.dropWhile isNumberChar with
  | nil => intro h; exact absurd rfl h
  | cons c cs =>
    intro _ hs hc
    simp only [List.head_cons] at hc
    simp only [List.dropWhile_cons, hc, Bool.not_false, if_true]
    have : (cs.dropWhile (!isNumberChar ·)).length ≤ cs.length :=
      (List.dropWhile_sublist _).length_le
    simp only [List.length_cons] at hs
    omega

/-- The sum of the groups of `s`, added to `total`. -/
def sumGroups (total : Binary64) (s : List Char) : Except SpanError Binary64 :=
  if s = [] then .ok total
  else
    let num := s.takeWhile isNumberChar
    let rest := s.dropWhile isNumberChar
    if _hrest : rest = [] then .error .missingUnit
    else if num = [] then .error .invalid
    else
      match number? num with
      | none => .error .invalid
      | some value =>
        let unit := rest.takeWhile (!isNumberChar ·)
        match TimeUnit.ofSpelling? unit with
        | none => .error (.unknownUnit (String.ofList unit))
        | some u => sumGroups (total.add (value.scale u.nanos)) (rest.dropWhile (!isNumberChar ·))
termination_by s.length
decreasing_by exact length_afterUnit _hrest

/-- The largest number of nanoseconds that a span read from text may have. -/
def maxNanos : Nat :=
  0xFFFFFFFFFFFFFFFF

/-- Whole nanoseconds of a total. A total that rounds to 2⁶⁴ is the largest span. -/
def ofTotal (total : Binary64) : Except SpanError Span :=
  if total.le (Binary64.ofInt (maxNanos + 1)) then
    match total.roundNat? with
    | some n => .ok ⟨min n maxNanos⟩
    | none => .error .outOfRange
  else .error .outOfRange

/-- Read a span. Blanks around it do not matter. -/
def ofText (raw : String) : Except SpanError Span :=
  match trimBlanks raw.toList with
  | [] => .error .empty
  | ['0'] => .ok ⟨0⟩
  | '-' :: _ => .error .negative
  | '+' :: groups => do ofTotal (← sumGroups .zero groups)
  | groups => do ofTotal (← sumGroups .zero groups)

end Span

end TokenKeeper
