import TokenKeeper.Text.Invisible

/-!
# Quoted text

Text shown between double quotes for a reader of a log: a quote and a backslash get a backslash, the
common controls get a letter, and every other character that does not show is written by its number
in hexadecimal, as in `\u{7f}`.
-/

namespace TokenKeeper.Quoted

/-- The hexadecimal digits of a number, lower case, at least one. -/
def hex (n : Nat) : List Char :=
  Nat.toDigits 16 n

/-- One character between the quotes. -/
def encodeChar (c : Char) : List Char :=
  if c = '"' then ['\\', '"']
  else if c = '\\' then ['\\', '\\']
  else if c = '\n' then ['\\', 'n']
  else if c = '\r' then ['\\', 'r']
  else if c = '\t' then ['\\', 't']
  else if c = Char.ofNat 0 then ['\\', '0']
  else if c.toNat < 0x20 || c.toNat == 0x7F || isInvisible c then
    '\\' :: 'u' :: '\x7b' :: (hex c.toNat ++ ['\x7d'])
  else [c]

/-- A text between quotes. -/
def encode (s : String) : String :=
  String.ofList ('"' :: (s.toList.flatMap encodeChar ++ ['"']))

/-- What stands in place of a secret. -/
def redacted : String :=
  encode "[REDACTED]"

end TokenKeeper.Quoted
