import TokenKeeper.Text.Percent
import TokenKeeper.Text.Blank
import TokenKeeper.Number.Decimal

/-!
# Header fields

The header of a message as a list of fields in order. Names are kept in lower case, so equal names
are equal strings; values are bytes. Fields of different names do not depend on each other's place,
fields of one name do.
-/

namespace TokenKeeper.Http

/-- One field. -/
structure Field where
  /-- Lower case. -/
  name : String
  value : List UInt8
deriving DecidableEq, Repr

/-- A header: fields in order. -/
abbrev Header := List Field

/-- A byte of a name or of a method: letters, digits and a few marks. -/
def isTokenByte (b : UInt8) : Bool :=
  Percent.isAlphanumeric b || Percent.isAmong "!#$%&'*+-.^_`|~" b

/-- Bytes that are a name or a method: one or more token bytes. -/
def isToken (bytes : List UInt8) : Bool :=
  bytes ≠ [] && bytes.all isTokenByte

/-- A byte that a value may hold: none of the controls but tab. -/
def isValueByte (b : UInt8) : Bool :=
  (b ≥ 0x20 && b != 0x7F) || b == 0x09

/-- Bytes that are a legal value. -/
def isValue (bytes : List UInt8) : Bool :=
  bytes.all isValueByte

/-- The text of a value of visible ASCII characters, spaces and tabs; other values have none. -/
def visibleText? (bytes : List UInt8) : Option String :=
  if bytes.all fun b => (0x20 ≤ b && b < 0x7F) || b == 0x09 then some (Percent.asciiText bytes)
  else none

/-- A space or a tab. -/
def isPadding (b : UInt8) : Bool :=
  b == 0x20 || b == 0x09

/-- A value without the padding around it. -/
def trimValue (bytes : List UInt8) : List UInt8 :=
  ((bytes.dropWhile isPadding).reverse.dropWhile isPadding).reverse

/-- The name that bytes spell in either case. -/
def fieldName? (bytes : List UInt8) : Option String :=
  if isToken bytes then some ((Percent.asciiText bytes).map Char.toLower) else none

/-- A field with a text as value. -/
def Field.ofText (name value : String) : Field :=
  ⟨name, Utf8.ofText value⟩

namespace Header

/-- The values of a name, in order. -/
def getAll (h : Header) (name : String) : List (List UInt8) :=
  (h.filter (·.name == name)).map (·.value)

/-- The first value of a name. -/
def get? (h : Header) (name : String) : Option (List UInt8) :=
  (h.getAll name).head?

/-- Whether there is a field of the name. -/
def has (h : Header) (name : String) : Bool :=
  h.any (·.name == name)

/-- Without the fields of a name. -/
def erase (h : Header) (name : String) : Header :=
  h.filter (·.name != name)

/-- Without the fields of several names. -/
def eraseAll (h : Header) (names : List String) : Header :=
  h.filter fun f => !names.contains f.name

/-- With one more field behind the others. -/
def append (h : Header) (name : String) (value : List UInt8) : Header :=
  h ++ [⟨name, value⟩]

/-- With one field in place of all of its name. -/
def insert (h : Header) (name : String) (value : List UInt8) : Header :=
  (h.erase name).append name value

/-- In the order of names, fields of one name in their own order. -/
def sorted (h : Header) : Header :=
  h.mergeSort fun a b => a.name ≤ b.name

/-- The values of a name that are visible text, in order. -/
def visibleTexts (h : Header) (name : String) : List String :=
  (h.getAll name).filterMap visibleText?

/-- The elements of a list written in values with commas between, without the blanks around them. -/
def listed (h : Header) (name : String) : List String :=
  (h.visibleTexts name).flatMap fun v =>
    (v.toList.splitOn ',').map fun e => String.ofList (trimBlanks e)

/-- The length that the `content-length` fields announce, if they all give the same one. -/
def announcedLength? (h : Header) : Option Nat :=
  let values := h.getAll "content-length"
  if values.all fun v => (visibleText? v).isSome then
    match (h.listed "content-length").map (Decimal.toNat? ·.toList) with
    | some n :: rest => if rest.all (· == some n) ∧ n ≤ 0xFFFFFFFFFFFFFFFF then some n else none
    | _ => none
  else none

/-- Whether the last transfer coding is `chunked`. -/
def isChunked (h : Header) : Bool :=
  match (h.getAll "transfer-encoding").getLast?.bind visibleText? with
  | some v =>
    match (v.toList.splitOn ',').getLast? with
    | some coding => (trimBlanks coding).map Char.toLower == "chunked".toList
    | none => false
  | none => false

end Header

end TokenKeeper.Http
