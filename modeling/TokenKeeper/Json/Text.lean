import TokenKeeper.Text.Utf8
import TokenKeeper.Text.Percent

/-!
# JSON strings

What stands between the quotes of a JSON string. `decode?` reads a text there: bytes that are UTF-8,
in which a backslash starts an escape. A character beyond U+FFFF may be written as two escapes, one
for each half of a surrogate pair; half of one alone stands for nothing.
-/

namespace TokenKeeper.JsonText

/-- The value of a hexadecimal digit. -/
def hexValue? (c : Char) : Option Nat :=
  if c.toNat < 0x80 then Percent.hexValue? c.toNat.toUInt8 else none

/-- The number of four hexadecimal digits. -/
def number? (a b c d : Char) : Option Nat := do
  return (((← hexValue? a) * 16 + (← hexValue? b)) * 16 + (← hexValue? c)) * 16 + (← hexValue? d)

/-- The character of an escape of one letter. -/
def escaped? (c : Char) : Option Char :=
  if c = '"' ∨ c = '\\' ∨ c = '/' then some c
  else if c = 'b' then some (Char.ofNat 8)
  else if c = 'f' then some (Char.ofNat 12)
  else if c = 'n' then some '\n'
  else if c = 'r' then some '\r'
  else if c = 't' then some '\t'
  else none

/-- The first half of a surrogate pair. -/
def isHighHalf (n : Nat) : Bool :=
  0xD800 ≤ n && n ≤ 0xDBFF

/-- The second half of a surrogate pair. -/
def isLowHalf (n : Nat) : Bool :=
  0xDC00 ≤ n && n ≤ 0xDFFF

/-- Resolve the escapes. -/
def unescape : List Char → Option (List Char)
  | [] => some []
  | '\\' :: 'u' :: a :: b :: c :: d :: rest =>
    match number? a b c d with
    | none => none
    | some n =>
      if isHighHalf n then
        match rest with
        | '\\' :: 'u' :: e :: f :: g :: h :: behind =>
          match number? e f g h with
          | some m =>
            if isLowHalf m then
              (unescape behind).map
                (Char.ofNat (0x10000 + (n - 0xD800) * 0x400 + (m - 0xDC00)) :: ·)
            else none
          | none => none
        | _ => none
      else if isLowHalf n then none
      else (unescape rest).map (Char.ofNat n :: ·)
  | '\\' :: c :: rest =>
    match escaped? c with
    | some e => (unescape rest).map (e :: ·)
    | none => none
  | c :: rest => if c = '\\' then none else (unescape rest).map (c :: ·)

/-- The text that stands between the quotes. -/
def decode? (raw : List UInt8) : Option String := do
  return String.ofList (← unescape (← Utf8.decode? raw))

end TokenKeeper.JsonText
