import TokenKeeper.Json.Basic

/-!
# Reading JSON

`Json.ofBytes?` reads bytes as one JSON value with nothing but blanks around it. A value is one of
three words, a number, a string between quotes, an array in brackets or an object in braces, and
blanks may stand between all of their parts. A string may hold any bytes but controls, and nesting
may be of any depth.
-/

namespace TokenKeeper.Json

/-- Space, tab and the two line ends. -/
def isSpace (b : UInt8) : Bool :=
  b == 0x20 || b == 0x09 || b == 0x0A || b == 0x0D

/-- Without the spaces at the head. -/
def skip (s : List UInt8) : List UInt8 :=
  s.dropWhile isSpace

/-- A digit. -/
def isDigit (b : UInt8) : Bool :=
  0x30 ≤ b && b ≤ 0x39

/-! ## Strings -/

/-- A hexadecimal digit. -/
def isHex (b : UInt8) : Bool :=
  (Percent.hexValue? b).isSome

/-- A letter that may follow a backslash by itself. -/
def isEscapeLetter (b : UInt8) : Bool :=
  Percent.isAmong "\"\\/bfnrt" b

/-- Put bytes in front of what has been read. -/
def consed (front : List UInt8) (r : Option (List UInt8 × List UInt8)) :
    Option (List UInt8 × List UInt8) :=
  r.map fun (raw, rest) => (front ++ raw, rest)

/-- What stands before the closing quote, and what follows it. -/
def stringRest? : List UInt8 → Option (List UInt8 × List UInt8)
  | [] => none
  | 0x22 :: rest => some ([], rest)
  | 0x5C :: 0x75 :: a :: b :: c :: d :: rest =>
    if isHex a && isHex b && isHex c && isHex d then
      consed [0x5C, 0x75, a, b, c, d] (stringRest? rest)
    else none
  | 0x5C :: e :: rest => if isEscapeLetter e then consed [0x5C, e] (stringRest? rest) else none
  | b :: rest => if b < 0x20 || b == 0x5C then none else consed [b] (stringRest? rest)

/-! ## Numbers -/

/-- One or more digits at the head. -/
def digits? (s : List UInt8) : Option (List UInt8 × List UInt8) :=
  match s.takeWhile isDigit with
  | [] => none
  | ds => some (ds, s.dropWhile isDigit)

/-- The whole part of a number: a lone zero, or digits of which the first is not zero. -/
def whole? : List UInt8 → Option (List UInt8 × List UInt8)
  | 0x30 :: rest => some ([0x30], rest)
  | s => digits? s

/-- The fraction of a number, if there is one. -/
def fraction? : List UInt8 → Option (List UInt8 × List UInt8)
  | 0x2E :: rest => consed [0x2E] (digits? rest)
  | s => some ([], s)

/-- The exponent of a number, if there is one. -/
def exponent? : List UInt8 → Option (List UInt8 × List UInt8)
  | e :: rest =>
    if e == 0x65 || e == 0x45 then
      match rest with
      | 0x2B :: ds => consed [e, 0x2B] (digits? ds)
      | 0x2D :: ds => consed [e, 0x2D] (digits? ds)
      | ds => consed [e] (digits? ds)
    else some ([], e :: rest)
  | [] => some ([], [])

/-- The sign of a number, if there is one. -/
def sign : List UInt8 → List UInt8 × List UInt8
  | 0x2D :: rest => ([0x2D], rest)
  | s => ([], s)

/-- The spelling of a number at the head. -/
def number? (s : List UInt8) : Option (List UInt8 × List UInt8) := do
  let (sign, s) := sign s
  let (w, s) ← whole? s
  let (f, s) ← fraction? s
  let (e, s) ← exponent? s
  return (sign ++ w ++ f ++ e, s)

/-! ## Values -/

/-- What follows a word at the head. -/
def word? (word : String) (s : List UInt8) : Option (List UInt8) :=
  let w := Utf8.ofText word
  if s.take w.length = w then some (s.drop w.length) else none

mutual

/-- A value at the head, after spaces, with `fuel` steps to go. -/
def value? (fuel : Nat) (s : List UInt8) : Option (Json × List UInt8) :=
  match fuel with
  | 0 => none
  | fuel + 1 =>
    match skip s with
    | [] => none
    | 0x22 :: rest => (stringRest? rest).map fun (raw, rest) => (string raw, rest)
    | 0x5B :: rest =>
      match skip rest with
      | 0x5D :: rest => some (array [], rest)
      | rest => (items? fuel rest).map fun (vs, rest) => (array vs, rest)
    | 0x7B :: rest =>
      match skip rest with
      | 0x7D :: rest => some (object [], rest)
      | rest => (members? fuel rest).map fun (ms, rest) => (object ms, rest)
    | 0x6E :: rest => (word? "ull" rest).map (null, ·)
    | 0x74 :: rest => (word? "rue" rest).map (bool true, ·)
    | 0x66 :: rest => (word? "alse" rest).map (bool false, ·)
    | b :: rest =>
      if b == 0x2D || isDigit b then
        (number? (b :: rest)).map fun (literal, rest) => (number literal, rest)
      else none

/-- The items of an array up to its closing bracket, at least one. -/
def items? (fuel : Nat) (s : List UInt8) : Option (List Json × List UInt8) :=
  match fuel with
  | 0 => none
  | fuel + 1 =>
    match value? fuel s with
    | none => none
    | some (v, rest) =>
      match skip rest with
      | 0x2C :: rest => (items? fuel rest).map fun (vs, rest) => (v :: vs, rest)
      | 0x5D :: rest => some ([v], rest)
      | _ => none

/-- The members of an object up to its closing brace, at least one. -/
def members? (fuel : Nat) (s : List UInt8) : Option (List (List UInt8 × Json) × List UInt8) :=
  match fuel with
  | 0 => none
  | fuel + 1 =>
    match skip s with
    | 0x22 :: rest =>
      match stringRest? rest with
      | none => none
      | some (name, rest) =>
        match skip rest with
        | 0x3A :: rest =>
          match value? fuel rest with
          | none => none
          | some (v, rest) =>
            match skip rest with
            | 0x2C :: rest =>
              (members? fuel rest).map fun (ms, rest) => ((name, v) :: ms, rest)
            | 0x7D :: rest => some ([(name, v)], rest)
            | _ => none
        | _ => none
    | _ => none

end

/-- Read one value. Each step takes a byte or goes one level deeper where a byte has been taken, so
twice the length is enough steps. -/
def ofBytes? (s : List UInt8) : Option Json :=
  match value? (2 * s.length + 2) s with
  | some (v, rest) => if skip rest = [] then some v else none
  | none => none

end TokenKeeper.Json
