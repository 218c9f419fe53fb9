import TokenKeeper.Text.Percent
import TokenKeeper.Url.Basic
import TokenKeeper.Url.DomainName

/-!
# Hosts as text

Reading the host of a URL. Where the scheme says that hosts are domains, the text is
percent-decoded, brought to its one form in ASCII, refused if it holds a character no domain may
hold, and read as a number if its last label is one. Elsewhere a host is any text without
delimiters. Brackets always hold an address of version 6.
-/

namespace TokenKeeper.Host

/-- A character that no host may hold, wherever the scheme says nothing about hosts. -/
def isForbidden (c : Char) : Bool :=
  c.toNat == 0 || c == '\t' || c == '\n' || c == '\r' || " #/:<>?@[\\]^|".toList.contains c

/-- A character that no domain may hold. -/
def isForbiddenInDomain (c : Char) : Bool :=
  isForbidden c || c.toNat < 0x20 || c == '%' || c.toNat == 0x7F

/-! ## Numeric hosts -/

/-- Read digits of a base. -/
def digits? (base : Nat) (s : List Char) : Option Nat :=
  s.foldlM
    (fun n c => (Ipv6.hexValue? c).bind fun d => if d < base then some (n * base + d) else none) 0

/-- Read one part of a numeric host: `0x` starts hexadecimal and `0` octal. -/
def number? (s : List Char) : Option Nat :=
  match s with
  | [] => none
  | '0' :: 'x' :: rest => digits? 16 rest
  | '0' :: 'X' :: rest => digits? 16 rest
  | '0' :: c :: rest => digits? 8 (c :: rest)
  | _ => digits? 10 s

/-- The labels of a domain without an empty one at the end. -/
def labels (s : List Char) : List (List Char) :=
  let parts := s.splitOn '.'
  if parts.length > 1 ∧ parts.getLast? = some [] then parts.dropLast else parts

/-- Whether the last label makes the host a number. -/
def endsInNumber (s : List Char) : Bool :=
  match (labels s).getLast? with
  | some last => (last ≠ [] && last.all Decimal.isDigit) || (number? last).isSome
  | none => false

/-- Read a numeric host: every part but the last is one byte, and the last fills the rest. -/
def ipv4? (s : List Char) : Option Ipv4 := do
  let parts ← (labels s).mapM number?
  let last ← parts.getLast?
  let firsts := parts.dropLast
  if parts.length ≤ 4 ∧ firsts.all (· ≤ 255) ∧ last < Nat.pow 256 (5 - parts.length) then
    let bytes := firsts ++ List.replicate (4 - firsts.length) 0
    return ⟨bytes.foldl (fun n b => n * 256 + b) 0 + last⟩
  else none

/-! ## Reading -/

/-- Read a host in brackets, given without the first bracket. -/
def bracketed (s : List Char) : Except UrlError Host :=
  if s.getLast? = some ']' then
    match Ipv6.ofText? 0 s.dropLast with
    | some address => .ok (v6 address)
    | none => .error .invalidIpv6
  else .error .invalidIpv6

/-- Read the host of a URL whose scheme says that hosts are domains. -/
def ofDomainText (s : List Char) : Except UrlError Host :=
  match s with
  | '[' :: rest => bracketed rest
  | _ =>
    match (Utf8.decode? (Percent.decode (Utf8.encode s))).bind DomainName.toAscii? with
    | none => .error .invalidDomain
    | some domain =>
      if domain.any isForbiddenInDomain then .error .invalidDomain
      else if domain = [] then .error .emptyHost
      else if endsInNumber domain then
        match ipv4? domain with
        | some address => .ok (v4 address)
        | none => .error .invalidIpv4
      else .ok (name (String.ofList domain))

/-- Read the host of any other URL. -/
def ofFreeText (s : List Char) : Except UrlError Host :=
  match s with
  | '[' :: rest => bracketed rest
  | _ =>
    if s.any isForbidden then .error .invalidDomain
    else .ok (name (Percent.encodeText Percent.isControl (String.ofList s)))

end TokenKeeper.Host
