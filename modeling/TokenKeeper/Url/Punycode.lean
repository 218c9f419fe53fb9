/-!
# Punycode

A label of a domain name written with letters, digits and hyphens only: the ASCII characters of the
label, a hyphen, and then for every other character, in ascending order, how far it lies behind the
one before, as a number of variable base.
-/

namespace TokenKeeper.Punycode

/-- The character of a digit below 36: letters, then digits. -/
def digitChar (n : Nat) : Char :=
  if n < 26 then Char.ofNat (0x61 + n) else Char.ofNat (0x30 + n - 26)

/-- The digit that a character stands for. -/
def digitValue? (c : Char) : Option Nat :=
  let n := c.toNat
  if 0x61 ≤ n ∧ n ≤ 0x7A then some (n - 0x61)
  else if 0x30 ≤ n ∧ n ≤ 0x39 then some (n - 0x30 + 26)
  else none

/-- The least digit after which a number goes on, at the place that is `k / 36` places on. -/
def threshold (bias k : Nat) : Nat :=
  if k ≤ bias then 1 else if bias + 26 ≤ k then 26 else k - bias

theorem threshold_pos (bias k : Nat) : 1 ≤ threshold bias k := by
  unfold threshold
  split
  · omega
  · split <;> omega

/-- The bias after a difference has been written, from its size and the number of characters. -/
def adapt (delta count : Nat) (isFirst : Bool) : Nat :=
  let delta := if isFirst then delta / 700 else delta / 2
  shrink (delta + delta / count) 0
where
  /-- Divide until the rest is small, counting 36 for each division. -/
  shrink (delta k : Nat) : Nat :=
    if 455 < delta then shrink (delta / 35) (k + 36) else k + 36 * delta / (delta + 38)
  termination_by delta
  decreasing_by omega

/-! ## Writing -/

/-- A number in variable base, least significant digit first. -/
def number (bias q k : Nat) : List Char :=
  let t := threshold bias k
  if q < t then [digitChar q]
  else digitChar (t + (q - t) % (36 - t)) :: number bias ((q - t) / (36 - t)) (k + 36)
termination_by q
decreasing_by
  have := threshold_pos bias k
  have := Nat.div_le_self (q - threshold bias k) (36 - threshold bias k)
  omega

/-- The state of the coder: the next code point, the difference so far, the bias and the number of
characters written. -/
structure State where
  next : Nat
  delta : Nat
  bias : Nat
  handled : Nat
  isFirst : Bool

/-- Pass over the label once for the code point `next`, writing a number at each place it stands. -/
def pass (label : List Nat) (s : State) : List Char × State :=
  label.foldl
    (fun (out, s) c =>
      if c < s.next then (out, { s with delta := s.delta + 1 })
      else if c = s.next then
        (out ++ number s.bias s.delta 36,
          { s with delta := 0, bias := adapt s.delta (s.handled + 1) s.isFirst
                   handled := s.handled + 1, isFirst := false })
      else (out, s))
    ([], s)

/-- Write the code points from `s.next` upwards, one pass for each that occurs. -/
def passes (label : List Nat) (s : State) : Nat → List Char
  | 0 => []
  | fuel + 1 =>
    match (label.filter (· ≥ s.next)).min? with
    | none => []
    | some m =>
      let (out, s) := pass label
        { s with delta := s.delta + (m - s.next) * (s.handled + 1), next := m }
      out ++ passes label { s with delta := s.delta + 1, next := s.next + 1 } fuel

/-- Write a label. -/
def encode (label : List Char) : List Char :=
  let basic := label.filter (·.toNat < 0x80)
  let start : State :=
    { next := 0x80, delta := 0, bias := 72, handled := basic.length, isFirst := true }
  basic ++ (if basic = [] then [] else ['-']) ++ passes (label.map Char.toNat) start label.length

/-! ## Reading -/

/-- Read a number in variable base whose digits begin at place `k` with the weight `w`. -/
def number? (bias w k : Nat) : List Char → Option (Nat × List Char)
  | [] => none
  | c :: rest => do
    let d ← digitValue? c
    let t := threshold bias k
    if d < t then return (d * w, rest)
    else
      let (more, rest) ← number? bias (w * (36 - t)) (k + 36) rest
      return (d * w + more, rest)

/-- Read one number after the other and put the character of each at its place. Each number takes a
character at least, so their count is enough fuel. -/
def insertions? (label : List Char) (next place bias : Nat) (isFirst : Bool) (s : List Char) :
    Nat → Option (List Char)
  | 0 => if s = [] then some label else none
  | fuel + 1 =>
    if s = [] then some label
    else do
      let (delta, rest) ← number? bias 1 36 s
      let count := label.length + 1
      let next := next + (place + delta) / count
      let place := (place + delta) % count
      if next.isValidChar then
        insertions? (label.insertIdx place (Char.ofNat next)) next (place + 1)
          (adapt delta count isFirst) false rest fuel
      else none

/-- Read a label: the ASCII characters stand before the last hyphen. -/
def decode? (s : List Char) : Option (List Char) :=
  let coded := (s.reverse.takeWhile (· != '-')).reverse
  let basic := s.take (s.length - coded.length - 1)
  insertions? basic 0x80 0 72 true coded coded.length

end TokenKeeper.Punycode
