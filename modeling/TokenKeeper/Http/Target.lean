import TokenKeeper.Text.Percent

/-!
# Request targets

What a request asks for, in any of the forms in which a request line may give it: a path with a
query, an absolute URI, an authority alone, or `*`. Of each only path and query are kept. Reading
is strict about the characters and says nothing about what a path means.
-/

namespace TokenKeeper.Http

/-- Path and query of a request. -/
structure Target where
  path : String
  /-- Without the question mark. -/
  query : Option String := none
deriving DecidableEq, Repr

namespace Target

/-! ## Characters -/

/-- A byte of a path. Those beyond ASCII are, the control 0x7F is not. -/
def isPathByte (b : UInt8) : Bool :=
  (0x24 ≤ b && b ≤ 0x3B) || (0x40 ≤ b && b ≤ 0x5F) || (0x61 ≤ b && b ≤ 0x7A) || b ≥ 0x80 ||
    Percent.isAmong "!\"=\x7b|\x7d~" b

/-- A byte of a query, where 0x7F is none either. -/
def isQueryByte (b : UInt8) : Bool :=
  (0x24 ≤ b && b ≤ 0x3B) || (0x3F ≤ b && b ≤ 0x7E) || b ≥ 0x80 || b == 0x21 || b == 0x3D

/-- A byte of an authority, apart from `%`. -/
def isAuthorityByte (b : UInt8) : Bool :=
  Percent.isAlphanumeric b || Percent.isAmong "!$&'()*+,-.:;=@[]_~" b

/-- A byte of a scheme. -/
def isSchemeByte (b : UInt8) : Bool :=
  Percent.isAlphanumeric b || Percent.isAmong "+-." b

/-! ## Parts -/

/-- Read a path and a query up to the end or a `#`. No path is the root. -/
def ofPathAndQuery? (s : List UInt8) : Option Target :=
  let s := s.takeWhile (· != 0x23)
  let path := s.takeWhile (· != 0x3F)
  let query := (s.dropWhile (· != 0x3F)).tail?
  if path.all isPathByte ∧ (query.getD []).all isQueryByte then do
    let pathText ← Utf8.toText? path
    match query with
    | none => return { path := if path = [] then "/" else pathText }
    | some q =>
      return { path := if path = [] then "/" else pathText, query := some (← Utf8.toText? q) }
  else none

/-- What has been seen of an authority: colons and a `%` since the last `@` or closing bracket, and
which brackets. -/
structure AuthorityScan where
  colons : Nat := 0
  percent : Bool := false
  opened : Bool := false
  closed : Bool := false

/-- Take one byte of an authority. -/
def AuthorityScan.step (s : AuthorityScan) (b : UInt8) : Option AuthorityScan :=
  if b == 0x25 then some { s with percent := true }
  else if !isAuthorityByte b then none
  else if b == 0x3A then if s.colons ≥ 8 then none else some { s with colons := s.colons + 1 }
  else if b == 0x5B then if s.percent || s.opened then none else some { s with opened := true }
  else if b == 0x5D then
    if !s.opened || s.closed then none
    else some { s with closed := true, colons := 0, percent := false }
  else if b == 0x40 then some { s with colons := 0, percent := false }
  else some s

/-- Whether bytes are an authority: brackets in pairs, at most one colon before a port, no `%` in
the host, and something after an `@`. -/
def isAuthority (s : List UInt8) : Bool :=
  match s.foldlM AuthorityScan.step ({} : AuthorityScan) with
  | some scan =>
    scan.opened == scan.closed && scan.colons ≤ 1 && !scan.percent && s.getLast? != some 0x40
  | none => false

/-- A byte that ends an authority. -/
def endsAuthority (b : UInt8) : Bool :=
  b == 0x2F || b == 0x3F || b == 0x23

/-- What follows a scheme and `://`. -/
def afterScheme? (s : List UInt8) : Option (List UInt8) :=
  match s.dropWhile isSchemeByte with
  | 0x3A :: 0x2F :: 0x2F :: rest => some rest
  | _ => none

/-! ## Reading -/

/-- Read a target. -/
def ofBytes? (s : List UInt8) : Option Target :=
  if s.length ≥ 65535 then none
  else
    match s with
    | [] => none
    | [0x2A] => some { path := "*" }
    | 0x2F :: _ => ofPathAndQuery? s
    | _ =>
      match afterScheme? s with
      | some rest =>
        let authority := rest.takeWhile (!endsAuthority ·)
        if authority ≠ [] ∧ isAuthority authority then
          ofPathAndQuery? (rest.drop authority.length)
        else none
      | none => if isAuthority s then some { path := "/" } else none

/-- Read a target from text. -/
def ofText? (s : String) : Option Target :=
  ofBytes? (Utf8.ofText s)

end Target

end TokenKeeper.Http
