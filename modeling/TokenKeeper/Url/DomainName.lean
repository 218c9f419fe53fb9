import TokenKeeper.Text.Invisible
import TokenKeeper.Url.Punycode

/-!
# Domain names

The one form in ASCII of a domain name. Capital letters and wide forms are mapped to their plain
small letters and characters that mean nothing are dropped; then every label with characters
outside ASCII is written in Punycode behind `xn--`, and a label that is already written so must be
one that this writes. The mapping covers the alphabets that have capital letters; accents that are
written as characters of their own are not put together with their letters.
-/

namespace TokenKeeper.DomainName

/-! ## Mapping -/

/-- A row of the mapping: every character from `first` to `last`, in steps, goes to the one as far
behind `target` as it is behind `first`. -/
structure Row where
  first : Nat
  last : Nat
  step : Nat
  target : Nat

/-- The mapping of single characters outside ASCII. -/
def rows : List Row :=
  [ -- letters and digits used as signs, letters in circles
    ⟨0xAA, 0xAA, 1, 0x61⟩, ⟨0xB2, 0xB3, 1, 0x32⟩, ⟨0xB5, 0xB5, 1, 0x3BC⟩, ⟨0xB9, 0xB9, 1, 0x31⟩,
    ⟨0xBA, 0xBA, 1, 0x6F⟩, ⟨0x212A, 0x212A, 1, 0x6B⟩, ⟨0x212B, 0x212B, 1, 0xE5⟩,
    ⟨0x24B6, 0x24CF, 1, 0x61⟩, ⟨0x24D0, 0x24E9, 1, 0x61⟩,
    -- Latin
    ⟨0xC0, 0xD6, 1, 0xE0⟩, ⟨0xD8, 0xDE, 1, 0xF8⟩, ⟨0x100, 0x12E, 2, 0x101⟩,
    ⟨0x134, 0x136, 2, 0x135⟩, ⟨0x139, 0x13D, 2, 0x13A⟩, ⟨0x141, 0x147, 2, 0x142⟩,
    ⟨0x14A, 0x176, 2, 0x14B⟩, ⟨0x178, 0x178, 1, 0xFF⟩, ⟨0x179, 0x17D, 2, 0x17A⟩,
    ⟨0x17F, 0x17F, 1, 0x73⟩, ⟨0x1CD, 0x1DB, 2, 0x1CE⟩, ⟨0x1DE, 0x1EE, 2, 0x1DF⟩,
    ⟨0x1F8, 0x21E, 2, 0x1F9⟩, ⟨0x222, 0x232, 2, 0x223⟩, ⟨0x1E00, 0x1E94, 2, 0x1E01⟩,
    ⟨0x1E9E, 0x1E9E, 1, 0xDF⟩, ⟨0x1EA0, 0x1EFE, 2, 0x1EA1⟩,
    -- Greek
    ⟨0x386, 0x386, 1, 0x3AC⟩, ⟨0x388, 0x38A, 1, 0x3AD⟩, ⟨0x38C, 0x38C, 1, 0x3CC⟩,
    ⟨0x38E, 0x38F, 1, 0x3CD⟩, ⟨0x391, 0x3A1, 1, 0x3B1⟩, ⟨0x3A3, 0x3AB, 1, 0x3C3⟩,
    -- Cyrillic and Armenian
    ⟨0x400, 0x40F, 1, 0x450⟩, ⟨0x410, 0x42F, 1, 0x430⟩, ⟨0x460, 0x480, 2, 0x461⟩,
    ⟨0x48A, 0x4BE, 2, 0x48B⟩, ⟨0x4C1, 0x4CD, 2, 0x4C2⟩, ⟨0x4D0, 0x52E, 2, 0x4D1⟩,
    ⟨0x531, 0x556, 1, 0x561⟩,
    -- full stops and wide forms
    ⟨0x3002, 0x3002, 1, 0x2E⟩, ⟨0xFF01, 0xFF20, 1, 0x21⟩, ⟨0xFF21, 0xFF3A, 1, 0x61⟩,
    ⟨0xFF3B, 0xFF5E, 1, 0x5B⟩, ⟨0xFF61, 0xFF61, 1, 0x2E⟩ ]

/-- Whether a row is about a code point. -/
def Row.holds (r : Row) (n : Nat) : Bool :=
  r.first ≤ n && n ≤ r.last && (n - r.first) % r.step == 0

/-- A character that means nothing in a name. -/
def isIgnored (c : Char) : Bool :=
  let n := c.toNat
  n == 0xAD || n == 0x34F || (0x180B ≤ n && n ≤ 0x180F && n != 0x180E) || n == 0x200B ||
    n == 0x2060 || n == 0x2064 || (0xFE00 ≤ n && n ≤ 0xFE0F) || n == 0xFEFF

/-- What the mapping makes of one character. -/
def mapChar (c : Char) : List Char :=
  if c.toNat < 0x80 then [c.toLower]
  else if isIgnored c then []
  else
    match rows.find? (·.holds c.toNat) with
    | some r => [Char.ofNat (r.target + (c.toNat - r.first))]
    | none => [c]

/-! ## Labels -/

/-- A character that no label may hold: a space, a control, a sign of direction or of joining, a
character for private use, a replacement, or no character at all. -/
def isDisallowed (c : Char) : Bool :=
  let n := c.toNat
  (0x80 ≤ n && n ≤ 0xA0) || n == 0x1680 || n == 0x180E || (0x2000 ≤ n && n ≤ 0x200F) ||
    (0x2028 ≤ n && n ≤ 0x202F) || (0x205F ≤ n && n ≤ 0x206F) || n == 0x3000 ||
    (0xE000 ≤ n && n ≤ 0xF8FF) || (0xFDD0 ≤ n && n ≤ 0xFDEF) || (0xFFF0 ≤ n && n ≤ 0xFFFF) ||
    n % 0x10000 ≥ 0xFFFE || 0xE0000 ≤ n

/-- A character of ASCII. -/
def isAscii (c : Char) : Bool :=
  c.toNat < 0x80

/-- The beginning of a label that is written in Punycode. -/
def codeMark : List Char := "xn--".toList

/-- Whether characters outside ASCII make a label: none is disallowed, the mapping leaves each as it
is, and the first is no mark that belongs to a character before it. -/
def isLabel (label : List Char) : Bool :=
  label.all (fun c => !isDisallowed c && mapChar c == [c]) && (label.head?.all (!isInvisible ·)) &&
    !label.all isAscii && !codeMark.isPrefixOf label

/-- A mapped label in ASCII. -/
def asciiLabel? (label : List Char) : Option (List Char) :=
  if label.all isAscii then
    if codeMark.isPrefixOf label then
      if (Punycode.decode? (label.drop codeMark.length)).any isLabel then some label else none
    else some label
  else if isLabel label then some (codeMark ++ Punycode.encode label)
  else none

/-- A name in ASCII. -/
def toAscii? (s : List Char) : Option (List Char) := do
  let labels ← ((s.flatMap mapChar).splitOn '.').mapM asciiLabel?
  return ['.'].intercalate labels

end TokenKeeper.DomainName
