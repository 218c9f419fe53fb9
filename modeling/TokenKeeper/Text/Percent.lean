import TokenKeeper.Text.Utf8

/-!
# Percent coding

A byte may be written as `%` and two hexadecimal digits. `encode` writes so every byte of a given
set and every byte outside ASCII, with upper-case digits; `decode` reads `%` followed by two
digits of either case as one byte and leaves every other byte as it is, so a stray `%` stands for
itself. The sets of bytes that must be escaped belong to the places where the text is put, and are
passed in.
-/

namespace TokenKeeper.Percent

/-- The value of a hexadecimal digit of either case. -/
def hexValue? (b : UInt8) : Option Nat :=
  if 0x30 ≤ b && b ≤ 0x39 then some (b.toNat - 0x30)
  else if 0x41 ≤ b && b ≤ 0x46 then some (b.toNat - 0x41 + 10)
  else if 0x61 ≤ b && b ≤ 0x66 then some (b.toNat - 0x61 + 10)
  else none

/-- The upper-case hexadecimal digit of a number below sixteen. -/
def hexDigit (n : Nat) : UInt8 :=
  if n < 10 then (0x30 + n).toUInt8 else (0x41 + n - 10).toUInt8

/-- The three bytes that stand for one. -/
def escape (b : UInt8) : List UInt8 :=
  [0x25, hexDigit (b.toNat / 16), hexDigit (b.toNat % 16)]

/-- Write bytes so that none of the set `escaped`, and none outside ASCII, stands for itself. -/
def encode (escaped : UInt8 → Bool) (bytes : List UInt8) : List UInt8 :=
  bytes.flatMap fun b => if b ≥ 0x80 || escaped b then escape b else [b]

/-- Read bytes in which `%` and two hexadecimal digits stand for one. -/
def decode : List UInt8 → List UInt8
  | [] => []
  | [b] => [b]
  | [b, c] => [b, c]
  | b :: h :: l :: rest =>
    if b == 0x25 then
      match hexValue? h, hexValue? l with
      | some hi, some lo => (hi * 16 + lo).toUInt8 :: decode rest
      | _, _ => b :: decode (h :: l :: rest)
    else b :: decode (h :: l :: rest)

/-- The ASCII text of bytes that percent coding has written. -/
def asciiText (bytes : List UInt8) : String :=
  String.ofList (bytes.map fun b => Char.ofNat b.toNat)

/-- The text with every character outside ASCII and every character of the set `escaped` written
as percent-coded UTF-8. -/
def encodeText (escaped : UInt8 → Bool) (s : String) : String :=
  asciiText (encode escaped (Utf8.ofText s))

/-- The text that percent-coded text stands for, read as UTF-8 with replacement characters. -/
def decodeText (s : String) : String :=
  Utf8.toTextLossy (decode (Utf8.ofText s))

/-- The control characters of ASCII. -/
def isControl (b : UInt8) : Bool :=
  b < 0x20 || b == 0x7F

/-- An ASCII letter or digit. -/
def isAlphanumeric (b : UInt8) : Bool :=
  (0x30 ≤ b && b ≤ 0x39) || (0x41 ≤ b && b ≤ 0x5A) || (0x61 ≤ b && b ≤ 0x7A)

/-- A byte that is one of the ASCII characters of `s`. -/
def isAmong (s : String) (b : UInt8) : Bool :=
  s.toList.any fun c => c.toNat == b.toNat

end TokenKeeper.Percent
