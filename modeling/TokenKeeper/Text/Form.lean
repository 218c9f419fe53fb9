import TokenKeeper.Text.Percent

/-!
# Form coding

The format `application/x-www-form-urlencoded`: pairs of a name and a value, joined by `&`, the
name and the value of each joined by `=`, a space written as `+` and all but a few bytes
percent-coded. `encode` writes pairs, `decode` reads any bytes as pairs.
-/

namespace TokenKeeper.Form

/-- The bytes that stand for themselves: letters, digits and `*-._`. -/
def isPlain (b : UInt8) : Bool :=
  Percent.isAlphanumeric b || Percent.isAmong "*-._" b

/-- Write one name or value. -/
def encodeComponent (bytes : List UInt8) : List UInt8 :=
  bytes.flatMap fun b =>
    if b == 0x20 then [0x2B] else if isPlain b then [b] else Percent.escape b

/-- Write one pair. -/
def encodePair (pair : String × String) : List UInt8 :=
  encodeComponent (Utf8.ofText pair.1) ++ 0x3D :: encodeComponent (Utf8.ofText pair.2)

/-- Write pairs in order. -/
def encode (pairs : List (String × String)) : List UInt8 :=
  [0x26].intercalate (pairs.map encodePair)

/-- Read one name or value. -/
def decodeComponent (bytes : List UInt8) : String :=
  Utf8.toTextLossy (Percent.decode (bytes.map fun b => if b == 0x2B then 0x20 else b))

/-- Read one pair: the name ends at the first `=`, and without one the value is empty. -/
def decodePair (bytes : List UInt8) : String × String :=
  (decodeComponent (bytes.takeWhile (· != 0x3D)),
    decodeComponent ((bytes.dropWhile (· != 0x3D)).drop 1))

/-- Read pairs in order. Nothing between two `&` is no pair. -/
def decode (bytes : List UInt8) : List (String × String) :=
  ((bytes.splitOn 0x26).filter (· ≠ [])).map decodePair

/-- The value of the last pair with the given name. -/
def lastValue? (pairs : List (String × String)) (name : String) : Option String :=
  (pairs.reverse.find? (·.1 == name)).map (·.2)

end TokenKeeper.Form
