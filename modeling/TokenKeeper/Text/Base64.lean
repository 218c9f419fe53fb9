/-!
# Base64

Bytes as letters, digits, `+` and `/`: three bytes are four characters of six bits each, and a last
group of fewer bytes is filled up with `=`. `encode` writes bytes; `decode?` reads exactly what
`encode` writes, so a missing pad, a character outside the alphabet or leftover bits that are not
zero make it refuse.
-/

namespace TokenKeeper.Base64

/-- The character for six bits. -/
def digit (n : Nat) : UInt8 :=
  if n < 26 then (0x41 + n).toUInt8
  else if n < 52 then (0x61 + n - 26).toUInt8
  else if n < 62 then (0x30 + n - 52).toUInt8
  else if n == 62 then 0x2B
  else 0x2F

/-- The six bits of a character of the alphabet. -/
def digitValue? (b : UInt8) : Option Nat :=
  if 0x41 ≤ b && b ≤ 0x5A then some (b.toNat - 0x41)
  else if 0x61 ≤ b && b ≤ 0x7A then some (b.toNat - 0x61 + 26)
  else if 0x30 ≤ b && b ≤ 0x39 then some (b.toNat - 0x30 + 52)
  else if b == 0x2B then some 62
  else if b == 0x2F then some 63
  else none

/-- The pad, `=`. -/
def pad : UInt8 := 0x3D

/-- Write bytes. -/
def encode : List UInt8 → List UInt8
  | [] => []
  | [a] => [digit (a.toNat / 4), digit (a.toNat % 4 * 16), pad, pad]
  | [a, b] =>
    [digit (a.toNat / 4), digit (a.toNat % 4 * 16 + b.toNat / 16), digit (b.toNat % 16 * 4), pad]
  | a :: b :: c :: rest =>
    digit (a.toNat / 4) :: digit (a.toNat % 4 * 16 + b.toNat / 16) ::
      digit (b.toNat % 16 * 4 + c.toNat / 64) :: digit (c.toNat % 64) :: encode rest

/-- Read what `encode` writes. -/
def decode? : List UInt8 → Option (List UInt8)
  | [] => some []
  | p :: q :: r :: s :: rest => do
    let w ← digitValue? p
    let x ← digitValue? q
    let first := (w * 4 + x / 16).toUInt8
    if rest == [] && r == pad && s == pad then
      if x % 16 == 0 then return [first] else none
    else
      let y ← digitValue? r
      let second := (x % 16 * 16 + y / 4).toUInt8
      if rest == [] && s == pad then
        if y % 4 == 0 then return [first, second] else none
      else
        let z ← digitValue? s
        let more ← decode? rest
        return first :: second :: (y % 4 * 64 + z).toUInt8 :: more
  | _ => none

end TokenKeeper.Base64
