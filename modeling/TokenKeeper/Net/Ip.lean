import TokenKeeper.Number.Decimal

/-!
# Internet addresses

Addresses of the two versions of the Internet Protocol and their text forms. Version 6 is written
with its longest run of two or more zero groups as `::`; `Ipv6.text` keeps all groups hexadecimal,
as a URL does, and `Ipv6.mappedText` shows an address that carries one of version 4 with that one
dotted, as a log does.
-/

namespace TokenKeeper

/-- An address of version 4, as one number of 32 bits. -/
structure Ipv4 where
  value : Nat
deriving DecidableEq, Repr

/-- An address of version 6: eight groups of 16 bits. -/
structure Ipv6 where
  groups : List Nat
deriving DecidableEq, Repr

namespace Ipv4

/-- The four bytes with points between. -/
def text (a : Ipv4) : String :=
  Decimal.ofNat (a.value / 16777216 % 256) ++ "." ++ Decimal.ofNat (a.value / 65536 % 256) ++ "." ++
    Decimal.ofNat (a.value / 256 % 256) ++ "." ++ Decimal.ofNat (a.value % 256)

/-- Read one byte of the dotted form: at most three digits, none a leading zero. -/
def byte? (s : List Char) : Option Nat :=
  if s.length ≤ 3 ∧ ¬(s.head? = some '0' ∧ s.length > 1) then
    match Decimal.toNat? s with
    | some n => if n ≤ 255 then some n else none
    | none => none
  else none

/-- Read the dotted form: four bytes and three points. -/
def ofDotted? (s : List Char) : Option Ipv4 :=
  match s.splitOn '.' with
  | [a, b, c, d] => do
    return ⟨(((← byte? a) * 256 + (← byte? b)) * 256 + (← byte? c)) * 256 + (← byte? d)⟩
  | _ => none

end Ipv4

namespace Ipv6

/-- The value of a hexadecimal digit of either case. -/
def hexValue? (c : Char) : Option Nat :=
  let n := c.toNat
  if 0x30 ≤ n ∧ n ≤ 0x39 then some (n - 0x30)
  else if 0x41 ≤ n ∧ n ≤ 0x46 then some (n - 0x41 + 10)
  else if 0x61 ≤ n ∧ n ≤ 0x66 then some (n - 0x61 + 10)
  else none

/-- Read one group: one to four hexadecimal digits. -/
def group? (s : List Char) : Option Nat :=
  if s ≠ [] ∧ s.length ≤ 4 then
    s.foldlM (fun n c => (hexValue? c).map fun d => n * 16 + d) 0
  else none

/-- Read groups with single colons between; the last may be an address of version 4, which is two
groups, if `dotted` allows it. -/
def groups? (dotted : Bool) (s : List Char) : Option (List Nat) :=
  if s = [] then some []
  else
    let parts := s.splitOn ':'
    let last := parts.getLast?.getD []
    if dotted ∧ last.contains '.' then do
      let firsts ← parts.dropLast.mapM group?
      let v4 ← Ipv4.ofDotted? last
      return firsts ++ [v4.value / 65536, v4.value % 65536]
    else parts.mapM group?

/-- Split at the first `::`. -/
def splitGap : List Char → Option (List Char × List Char)
  | ':' :: ':' :: rest => some ([], rest)
  | c :: rest => (splitGap rest).map fun (a, b) => (c :: a, b)
  | [] => none

/-- Read an address. One `::` stands for the groups that are missing, at least `leastGap` of them.
-/
def ofText? (leastGap : Nat) (s : List Char) : Option Ipv6 :=
  match splitGap s with
  | none => do
    let gs ← groups? true s
    if gs.length = 8 then return ⟨gs⟩ else none
  | some (before, behind) => do
    let hs ← groups? false before
    let ts ← groups? true behind
    if hs.length + ts.length + leastGap ≤ 8 then
      return ⟨hs ++ List.replicate (8 - hs.length - ts.length) 0 ++ ts⟩
    else none

/-- The number of zero groups at the head. -/
def zerosAtHead (gs : List Nat) : Nat :=
  (gs.takeWhile (· == 0)).length

/-- Position and length of the first of the longest runs of zero groups. -/
def longestRun (gs : List Nat) : Nat × Nat :=
  (List.range gs.length).foldl
    (fun best i => if zerosAtHead (gs.drop i) > best.2 then (i, zerosAtHead (gs.drop i)) else best)
    (0, 0)

/-- A group in hexadecimal. -/
def groupText (n : Nat) : String :=
  String.ofList (Nat.toDigits 16 n)

/-- All groups in hexadecimal, with the longest run of two or more zeros as `::`. -/
def text (a : Ipv6) : String :=
  let (start, len) := longestRun a.groups
  let join (gs : List Nat) := ":".intercalate (gs.map groupText)
  if len < 2 then join a.groups
  else join (a.groups.take start) ++ "::" ++ join (a.groups.drop (start + len))

/-- Like `text`, with an address of version 4 that is carried in the last two groups dotted. -/
def mappedText (a : Ipv6) : String :=
  match a.groups with
  | [0, 0, 0, 0, 0, 0xFFFF, hi, lo] => "::ffff:" ++ (Ipv4.mk (hi * 65536 + lo)).text
  | _ => a.text

end Ipv6

/-- The address of the other end of a connection, without its port. -/
inductive ClientAddress where
  | v4 (a : Ipv4)
  | v6 (a : Ipv6)
deriving DecidableEq, Repr

namespace ClientAddress

/-- The address as it is named to the server behind. -/
def text : ClientAddress → String
  | v4 a => a.text
  | v6 a => a.mappedText

/-- A port number. -/
def port? (s : List Char) : Option Nat :=
  match Decimal.toNat? s with
  | some n => if n < 65536 then some n else none
  | none => none

/-- Read an address and a port, as in `10.0.0.1:80` and `[::1]:80`; the port is not kept. A
version 6 address may carry a zone number. -/
def ofSocketText? (s : String) : Option ClientAddress :=
  match s.toList with
  | '[' :: rest =>
    let inside := rest.takeWhile (· != ']')
    match rest.dropWhile (· != ']') with
    | ']' :: ':' :: port => do
      let _ ← port? port
      let zone := (inside.dropWhile (· != '%')).drop 1
      if inside.contains '%' ∧ (Decimal.toNat? zone).all (· > 0xFFFFFFFF) then none
      else return v6 (← Ipv6.ofText? 1 (inside.takeWhile (· != '%')))
    | _ => none
  | cs =>
    match cs.splitOn ':' with
    | [address, port] => do
      let _ ← port? port
      return v4 (← Ipv4.ofDotted? address)
    | _ => none

end ClientAddress

end TokenKeeper
