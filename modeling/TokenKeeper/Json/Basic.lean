import TokenKeeper.Json.Text
import TokenKeeper.Number.Decimal

/-!
# JSON values

A JSON value as it is written: numbers and strings keep their spelling, objects keep the order and
the repetitions of their members. What a spelling stands for is asked only where it is needed, so a
document may hold numbers of any size and strings that are no text wherever nobody looks at them.

`record?` reads a value as a record with named fields. It takes an object or, in place of it, an
array with the fields in their order.
-/

namespace TokenKeeper

/-- A JSON value. -/
inductive Json where
  | null
  | bool (value : Bool)
  /-- A number in its spelling. -/
  | number (literal : List UInt8)
  /-- A string, the bytes between its quotes with the escapes in them. -/
  | string (raw : List UInt8)
  | array (items : List Json)
  /-- An object, each member with the bytes between the quotes of its name. -/
  | object (members : List (List UInt8 × Json))
deriving Inhabited

namespace Json

/-- The text that a string stands for. -/
def text? : Json → Option String
  | string raw => JsonText.decode? raw
  | _ => none

/-- The text of a string, or nothing for `null`. The outer `none` means that it is neither. -/
def optionalText? : Json → Option (Option String)
  | null => some none
  | v => v.text?.map some

/-- The whole numbers of 64 bits with a sign. -/
def isInt64 (n : Int) : Bool :=
  -0x8000000000000000 ≤ n && n ≤ 0x7FFFFFFFFFFFFFFF

/-- The whole number that a number stands for, if it is spelled with digits only and fits 64 bits.
The spelling `-0` is no whole number. -/
def int64? : Json → Option Int
  | number literal =>
    let spelled := literal.map fun b => Char.ofNat b.toNat
    if spelled = ['-', '0'] then none
    else
      match Decimal.toInt? spelled with
      | some n => if isInt64 n then some n else none
      | none => none
  | _ => none

/-- The values that members with the given name have. -/
def membersNamed (members : List (String × Json)) (name : String) : List Json :=
  (members.filter (·.1 == name)).map (·.2)

/-- The fields of a record, in the order of `names`: the value of the one member with the name, or
of the array's item at its place. Every member's name must be text, a field may not be given
twice, and an array may not have more items than there are fields. -/
def record? (names : List String) : Json → Option (List (Option Json))
  | object members => do
    let named ← members.mapM fun (raw, v) => (JsonText.decode? raw).map (·, v)
    if names.all fun n => (membersNamed named n).length ≤ 1 then
      return names.map fun n => (membersNamed named n).head?
    else none
  | array items =>
    if items.length ≤ names.length then
      some ((List.range names.length).map (items[·]?))
    else none
  | _ => none

end Json

end TokenKeeper
