/-!
# Blank characters

Which characters count as blank when text from outside is trimmed or tested for being empty. The
rule is the Unicode property `White_Space`: a set of twenty-five characters, wider than the four
that the core library's `Char.isWhitespace` knows.
-/

namespace TokenKeeper

/-- A character with the Unicode property `White_Space`. -/
def isBlank (c : Char) : Bool :=
  let n := c.toNat
  (9 ≤ n && n ≤ 13) || n == 0x20 || n == 0x85 || n == 0xA0 || n == 0x1680 ||
    (0x2000 ≤ n && n ≤ 0x200A) || n == 0x2028 || n == 0x2029 || n == 0x202F || n == 0x205F ||
    n == 0x3000

/-- The characters left after dropping blanks from both ends. -/
def trimBlanks (s : List Char) : List Char :=
  ((s.dropWhile isBlank).reverse.dropWhile isBlank).reverse

/-- The text without the blanks at its ends. -/
def trimText (s : String) : String :=
  String.ofList (trimBlanks s.toList)

/-- Nothing but blanks, or nothing at all. -/
def isBlankText (s : String) : Bool :=
  s.toList.all isBlank

end TokenKeeper
