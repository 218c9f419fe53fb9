/-!
# Decimal text

Whole numbers as decimal digits: `ofNat` and `ofInt` write them, `toNat?` and `toInt?` read them.
Reading takes an optional sign and one or more ASCII digits and nothing else.
-/

namespace TokenKeeper.Decimal

/-- The character of a digit below ten. -/
def digitChar (n : Nat) : Char :=
  Char.ofNat (0x30 + n)

/-- An ASCII digit. -/
def isDigit (c : Char) : Bool :=
  0x30 ≤ c.toNat && c.toNat ≤ 0x39

/-- The value of a digit. -/
def digitValue (c : Char) : Nat :=
  c.toNat - 0x30

/-- The digits of a number, most significant first, at least one. -/
def digits (n : Nat) : List Char :=
  if n < 10 then [digitChar n] else digits (n / 10) ++ [digitChar (n % 10)]

/-- The number that digits stand for. -/
def value (ds : List Char) : Nat :=
  ds.foldl (fun n c => n * 10 + digitValue c) 0

/-- Read one or more digits. -/
def toNat? (s : List Char) : Option Nat :=
  if s ≠ [] ∧ s.all isDigit then some (value s) else none

/-- Read an optional sign and one or more digits. -/
def toInt? : List Char → Option Int
  | '-' :: s => (toNat? s).map fun n => -(n : Int)
  | '+' :: s => (toNat? s).map fun n => (n : Int)
  | s => (toNat? s).map fun n => (n : Int)

/-- The decimal text of a number. -/
def ofNat (n : Nat) : String :=
  String.ofList (digits n)

/-- The decimal text of an integer, with a `-` in front of a negative one. -/
def ofInt (n : Int) : String :=
  if n < 0 then String.ofList ('-' :: digits n.natAbs) else ofNat n.natAbs

/-- Digits with zeros in front up to the width `w`. -/
def padded (w n : Nat) : String :=
  let ds := digits n
  String.ofList (List.replicate (w - ds.length) '0' ++ ds)

end TokenKeeper.Decimal
