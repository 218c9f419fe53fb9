import TokenKeeper.Text.Percent

/-!
# Paths on the wire

A path as it stands in a request is percent-coded, and one decoded path has many coded forms. A
`WirePath` keeps the decoded path and, only where it is not the one that plain escaping would write,
the form on the wire. `join` puts two paths together with exactly one slash between them where they
meet, without changing how either of them is coded.
-/

namespace TokenKeeper

/-- A path with its form on the wire. -/
structure WirePath where
  /-- The decoded path. -/
  path : String
  /-- The form on the wire, unless it is `plainForm path`. -/
  raw : Option String
deriving DecidableEq, Repr

namespace WirePath

/-- Escaped in the plain form of a path. -/
def isEscaped (b : UInt8) : Bool :=
  Percent.isControl b || Percent.isAmong " \"#%<>?`\x7b\x7d\\^|[]" b

/-- The form in which a decoded path is written unless another one is known. -/
def plainForm (path : String) : String :=
  Percent.encodeText isEscaped path

/-- The path of a form on the wire. -/
def ofWire (wire : String) : WirePath :=
  let path := Percent.decodeText wire
  { path, raw := if plainForm path = wire then none else some wire }

/-- The form on the wire. -/
def wire (p : WirePath) : String :=
  p.raw.getD (plainForm p.path)

/-- Whether a text ends in a slash. -/
def endsInSlash (s : String) : Bool :=
  s.toList.getLast? == some '/'

/-- Whether a text starts with a slash. -/
def startsWithSlash (s : String) : Bool :=
  s.toList.head? == some '/'

/-- A text without its first character. -/
def withoutFirst (s : String) : String :=
  String.ofList s.toList.tail

/-- A text without its first byte: without its first character if that is ASCII, else nothing. -/
def withoutFirstByte (s : String) : String :=
  match s.toList with
  | c :: rest => if c.toNat < 0x80 then String.ofList rest else ""
  | [] => ""

/-- Two texts with one slash between them: one is added if neither brings it, and dropped if both
do. -/
def joinTexts (a b : String) : String :=
  if endsInSlash a && startsWithSlash b then a ++ withoutFirst b
  else if !endsInSlash a && !startsWithSlash b then a ++ "/" ++ b
  else a ++ b

/-- Two paths with one slash between them. Whether a slash is added or dropped is decided by the
forms on the wire if one of them is kept, so that an escaped slash does not count. -/
def join (a b : WirePath) : WirePath :=
  if a.raw.isNone && b.raw.isNone then
    { path := joinTexts a.path b.path, raw := none }
  else
    let ends := endsInSlash a.wire
    let starts := startsWithSlash b.wire
    if ends && starts then
      { path := a.path ++ withoutFirstByte b.path, raw := some (a.wire ++ withoutFirst b.wire) }
    else if !ends && !starts then
      { path := a.path ++ "/" ++ b.path, raw := some (a.wire ++ "/" ++ b.wire) }
    else
      { path := a.path ++ b.path, raw := some (a.wire ++ b.wire) }

end WirePath

end TokenKeeper
