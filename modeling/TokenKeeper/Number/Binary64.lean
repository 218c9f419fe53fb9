/-!
# Binary64

The numbers of the IEEE format with 53 significant bits, and the operations on them that the
library needs: nearest to a quotient, sum, product, rounding to a whole number, and the shortest
decimal text that reads back. A finite number is kept as its exact multiple of the least positive
one, 2⁻¹⁰⁷⁴, so every operation is exact integer arithmetic followed by one rounding to nearest,
ties to even.
-/

namespace TokenKeeper

/-- A number of the format. Not-a-number never arises from the operations below. -/
inductive Binary64 where
  /-- The number `units · 2⁻¹⁰⁷⁴`. -/
  | finite (units : Int)
  /-- Larger in magnitude than every finite number. -/
  | infinite (negative : Bool)
deriving DecidableEq, Repr, Inhabited

namespace Binary64

/-- How many units make one: 2¹⁰⁷⁴. -/
def one : Nat :=
  Nat.pow 2 1074

/-- The number of binary digits of `n`. -/
def bitLength (n : Nat) : Nat :=
  if n = 0 then 0 else n.log2 + 1

/-- The whole number nearest to `num / den`, of two the even one. -/
def nearestEven (num den : Nat) : Nat :=
  let q := num / den
  let r := num % den
  if 2 * r < den then q
  else if den < 2 * r then q + 1
  else q + q % 2

/-- Round `num / den` units to 53 significant bits; `none` when that is too large to be finite. -/
def roundUnits (num den : Nat) : Option Nat :=
  let shift := bitLength (num / den) - 53
  let units := nearestEven num (den * Nat.pow 2 shift) * Nat.pow 2 shift
  if units < Nat.pow 2 1024 * one then some units else none

/-- The number nearest to `num / den` units, with a sign. -/
def nearest (negative : Bool) (num den : Nat) : Binary64 :=
  match roundUnits num den with
  | none => .infinite negative
  | some units => .finite (if negative then -(units : Int) else units)

/-- The number nearest to an integer. -/
def ofInt (n : Int) : Binary64 :=
  nearest (n < 0) (n.natAbs * one) 1

/-- The number nearest to the decimal fraction `n / 10 ^ places`. -/
def ofDecimal (n : Int) (places : Nat) : Binary64 :=
  nearest (n < 0) (n.natAbs * one) (Nat.pow 10 places)

/-- Zero. -/
def zero : Binary64 :=
  .finite 0

/-- The nearest number to the sum. Opposite infinities do not meet in this library. -/
def add : Binary64 → Binary64 → Binary64
  | .finite a, .finite b => nearest (a + b < 0) (a + b).natAbs 1
  | .infinite s, _ => .infinite s
  | _, .infinite s => .infinite s

/-- The nearest number to the product of a number with a positive whole number. -/
def scale (a : Binary64) (n : Nat) : Binary64 :=
  match a with
  | .finite u => nearest (u < 0) (u.natAbs * n) 1
  | .infinite s => .infinite s

/-- Whether one number is less than or equal to another. -/
def le : Binary64 → Binary64 → Bool
  | .finite a, .finite b => a ≤ b
  | .infinite s, b => s || b == .infinite s
  | .finite _, .infinite s => !s

/-- The nearest whole number to a number that is not negative, a half going up. -/
def roundNat? : Binary64 → Option Nat
  | .finite u => some ((2 * u.toNat + one) / (2 * one))
  | .infinite _ => none

/-! ## Shortest decimal text -/

/-- The interval of numbers that round to a given one, in quarters of a unit: half the distance to
either neighbour. -/
structure Basin where
  /-- The lower end. -/
  lo : Nat
  /-- The upper end. -/
  hi : Nat
  /-- Whether the ends belong to it. -/
  closed : Bool

/-- The basin of a positive finite number. -/
def basin (u : Nat) : Basin :=
  let gap := Nat.pow 2 (bitLength u - 53)
  let below := if u == Nat.pow 2 (bitLength u - 1) && bitLength u > 53 then gap / 2 else gap
  ⟨2 * u * 2 - below * 2, 2 * u * 2 + gap * 2, (u / gap) % 2 == 0⟩

/-- Whether `k · 10 ^ e` lies in the basin. -/
def Basin.holds (b : Basin) (k : Nat) (e : Int) : Bool :=
  let num := if e ≥ 0 then 4 * one * k * Nat.pow 10 e.toNat else 4 * one * k
  let den := if e ≥ 0 then 1 else Nat.pow 10 (-e).toNat
  if b.closed then b.lo * den ≤ num && num ≤ b.hi * den else b.lo * den < num && num < b.hi * den

/-- The decimal exponent of the leading digit of `u` units: the largest `e`, searched downwards over
`fuel` candidates, with `10 ^ e` at most the number. -/
def leadExponent (u : Nat) (e : Int) : Nat → Int
  | 0 => e
  | fuel + 1 =>
    let fits := if e ≥ 0 then Nat.pow 10 e.toNat * one ≤ u else one ≤ u * Nat.pow 10 (-e).toNat
    if fits then e else leadExponent u (e - 1) fuel

/-- Of the two neighbours of `u` on the grid of multiples of `10 ^ e`, the nearer one that lies in
the basin, an exact half going to the even one. -/
def onGrid (u : Nat) (b : Basin) (e : Int) : Option Nat :=
  let num := if e ≥ 0 then u else u * Nat.pow 10 (-e).toNat
  let den := if e ≥ 0 then one * Nat.pow 10 e.toNat else one
  let k := num / den
  let r := num % den
  let (near, far) :=
    if 2 * r < den then (k, k + 1)
    else if den < 2 * r then (k + 1, k)
    else if k % 2 == 0 then (k, k + 1) else (k + 1, k)
  if b.holds near e then some near else if b.holds far e then some far else none

/-- The shortest digits, searched from one digit up: the first grid with a hit. -/
def shortestFrom (u : Nat) (b : Basin) (e : Int) : Nat → Nat × Int
  | 0 => (0, 0)
  | fuel + 1 =>
    match onGrid u b e with
    | some k => (k, e)
    | none => shortestFrom u b (e - 1) fuel

/-- The shortest `(k, e)` with `k · 10 ^ e` rounding to `u` units. -/
def shortest (u : Nat) : Nat × Int :=
  shortestFrom u (basin u) (leadExponent u 308 700) 20

/-- A number `k · 10 ^ e` written out in full, without an exponent. -/
def positional (k : Nat) (e : Int) : String :=
  let ds := Nat.toDigits 10 k
  if e ≥ 0 then String.ofList (ds ++ List.replicate e.toNat '0')
  else
    let places := (-e).toNat
    let ds := List.replicate (places + 1 - ds.length) '0' ++ ds
    let whole := ds.take (ds.length - places)
    let frac := (ds.drop (ds.length - places)).reverse.dropWhile (· == '0') |>.reverse
    if frac == [] then String.ofList whole else String.ofList (whole ++ '.' :: frac)

/-- The shortest decimal text that reads back, without an exponent. -/
def toText : Binary64 → String
  | .finite u =>
    if u = 0 then "0"
    else
      let (k, e) := shortest u.natAbs
      (if u < 0 then "-" else "") ++ positional k e
  | .infinite negative => if negative then "-inf" else "inf"

end Binary64

end TokenKeeper
