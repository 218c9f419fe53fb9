/-!
# UTF-8

Bytes and characters. `encode` writes characters as UTF-8, `decode?` reads bytes that are UTF-8
throughout, and `decodeLossy` reads any bytes at all, putting the replacement character U+FFFD in
place of each maximal invalid part: the longest run of bytes that starts a character and is then
broken off, or else a single byte that can start none.
-/

namespace TokenKeeper.Utf8

/-- The bytes of one character. -/
def encodeChar (c : Char) : List UInt8 :=
  let n := c.toNat
  if n < 0x80 then [n.toUInt8]
  else if n < 0x800 then [(0xC0 + n / 0x40).toUInt8, (0x80 + n % 0x40).toUInt8]
  else if n < 0x10000 then
    [(0xE0 + n / 0x1000).toUInt8, (0x80 + n / 0x40 % 0x40).toUInt8, (0x80 + n % 0x40).toUInt8]
  else
    [(0xF0 + n / 0x40000).toUInt8, (0x80 + n / 0x1000 % 0x40).toUInt8,
      (0x80 + n / 0x40 % 0x40).toUInt8, (0x80 + n % 0x40).toUInt8]

/-- The bytes of a list of characters. -/
def encode (s : List Char) : List UInt8 :=
  s.flatMap encodeChar

/-- What stands at the head of some bytes: a whole character or a maximal invalid part, and the
number of further bytes that it takes after the first one. -/
inductive Head where
  | char (c : Char) (taken : Nat)
  | invalid (taken : Nat)
deriving DecidableEq, Repr

/-- A byte of the form `10xxxxxx`. -/
def isContinuation (b : UInt8) : Bool :=
  0x80 ≤ b && b ≤ 0xBF

/-- The low six bits of a continuation byte. -/
def payload (b : UInt8) : Nat :=
  b.toNat % 0x40

/-- How many continuation bytes follow a first byte, and the range of the second byte: narrower
than all continuation bytes after `E0`, `ED`, `F0` and `F4`, which rules out overlong forms,
surrogates and values above U+10FFFF. `none` for a byte that starts no longer character. -/
def leadClass (b : UInt8) : Option (Nat × UInt8 × UInt8) :=
  if 0xC2 ≤ b && b ≤ 0xDF then some (1, 0x80, 0xBF)
  else if b == 0xE0 then some (2, 0xA0, 0xBF)
  else if b == 0xED then some (2, 0x80, 0x9F)
  else if 0xE1 ≤ b && b ≤ 0xEF then some (2, 0x80, 0xBF)
  else if b == 0xF0 then some (3, 0x90, 0xBF)
  else if 0xF1 ≤ b && b ≤ 0xF3 then some (3, 0x80, 0xBF)
  else if b == 0xF4 then some (3, 0x80, 0x8F)
  else none

/-- Read the head of the bytes `b :: rest`. -/
def head (b : UInt8) (rest : List UInt8) : Head :=
  if b < 0x80 then .char (Char.ofNat b.toNat) 0
  else
    match leadClass b with
    | none => .invalid 0
    | some (more, lo, hi) =>
      match rest with
      | [] => .invalid 0
      | c₁ :: rest₁ =>
        if !(lo ≤ c₁ && c₁ ≤ hi) then .invalid 0
        else if more == 1 then .char (Char.ofNat (b.toNat % 0x20 * 0x40 + payload c₁)) 1
        else
          match rest₁ with
          | [] => .invalid 1
          | c₂ :: rest₂ =>
            if !isContinuation c₂ then .invalid 1
            else if more == 2 then
              .char (Char.ofNat (b.toNat % 0x10 * 0x1000 + payload c₁ * 0x40 + payload c₂)) 2
            else
              match rest₂ with
              | [] => .invalid 2
              | c₃ :: _ =>
                if !isContinuation c₃ then .invalid 2
                else
                  .char (Char.ofNat (b.toNat % 0x08 * 0x40000 + payload c₁ * 0x1000 +
                    payload c₂ * 0x40 + payload c₃)) 3

/-- The replacement character. -/
def replacement : Char :=
  Char.ofNat 0xFFFD

/-- Read bytes as UTF-8, with one replacement character for each maximal invalid part. -/
def decodeLossy : List UInt8 → List Char
  | [] => []
  | b :: rest =>
    match head b rest with
    | .char c taken => c :: decodeLossy (rest.drop taken)
    | .invalid taken => replacement :: decodeLossy (rest.drop taken)
termination_by bytes => bytes.length
decreasing_by all_goals simp only [List.length_drop, List.length_cons]; omega

/-- Read bytes as UTF-8 if that is what they are from end to end. -/
def decode? : List UInt8 → Option (List Char)
  | [] => some []
  | b :: rest =>
    match head b rest with
    | .char c taken => (decode? (rest.drop taken)).map (c :: ·)
    | .invalid _ => none
termination_by bytes => bytes.length
decreasing_by all_goals simp only [List.length_drop, List.length_cons]; omega

/-- The UTF-8 bytes of a text. -/
def ofText (s : String) : List UInt8 :=
  encode s.toList

/-- The text of any bytes, with replacement characters where they are not UTF-8. -/
def toTextLossy (bytes : List UInt8) : String :=
  String.ofList (decodeLossy bytes)

/-- The text of bytes that are UTF-8. -/
def toText? (bytes : List UInt8) : Option String :=
  (decode? bytes).map String.ofList

end TokenKeeper.Utf8
