import TokenKeeper.Net.Ip

/-!
# URLs

A URL taken apart: scheme, user information, host, port, path, query and fragment, each already in
the form in which it is written. A path is either a list of segments, each written after a slash,
or, in URLs such as `mailto:x@y`, plain text that no relative reference can be resolved against.
`text` writes a URL; the parser that makes one from text is in `Url.Parser`.
-/

namespace TokenKeeper

/-- Why a text is no URL. -/
inductive UrlError where
  | relativeWithoutBase
  | emptyHost
  | invalidPort
  | invalidIpv4
  | invalidIpv6
  | invalidDomain
deriving DecidableEq, Repr

/-- The wording of each refusal. -/
def UrlError.message : UrlError → String
  | relativeWithoutBase => "relative URL without a base"
  | emptyHost => "empty host"
  | invalidPort => "invalid port number"
  | invalidIpv4 => "invalid IPv4 address"
  | invalidIpv6 => "invalid IPv6 address"
  | invalidDomain => "invalid international domain name"

/-- The host of a URL. -/
inductive Host where
  /-- A domain name, or any other name where the scheme does not say what hosts are. -/
  | name (text : String)
  | v4 (address : Ipv4)
  | v6 (address : Ipv6)
deriving DecidableEq, Repr

/-- The host as it is written in a URL: version 6 addresses in brackets. -/
def Host.text : Host → String
  | name text => text
  | v4 address => address.text
  | v6 address => "[" ++ address.text ++ "]"

/-- The path of a URL. -/
inductive Url.Path where
  /-- Segments, each with a slash in front of it. -/
  | rooted (segments : List String)
  /-- Text without structure. -/
  | plain (text : String)
deriving DecidableEq, Repr

/-- The path as it is written. -/
def Url.Path.text : Url.Path → String
  | rooted segments => String.join (segments.map ("/" ++ ·))
  | plain text => text

/-- A URL. -/
structure Url where
  /-- Lower case, without the colon. -/
  scheme : String
  /-- Percent-coded, empty if there is none. -/
  username : String := ""
  /-- Percent-coded. -/
  password : Option String := none
  /-- `none` without the two slashes, an empty name if nothing stands after them. -/
  host : Option Host := none
  /-- Present only if it is not the scheme's default. -/
  port : Option Nat := none
  path : Url.Path
  /-- Percent-coded, without the question mark. -/
  query : Option String := none
  /-- Percent-coded, without the number sign. -/
  fragment : Option String := none
deriving DecidableEq, Repr

namespace Url

/-- The port that a scheme stands for by itself, where its URLs always have a host. -/
def defaultPort? (scheme : String) : Option Nat :=
  if scheme = "http" ∨ scheme = "ws" then some 80
  else if scheme = "https" ∨ scheme = "wss" then some 443
  else if scheme = "ftp" then some 21
  else none

/-- Whether backslashes count as slashes, hosts are domains and a path is never empty. -/
def isSpecial (scheme : String) : Bool :=
  (defaultPort? scheme).isSome || scheme == "file"

/-- The port that a connection goes to, if the scheme tells one. -/
def effectivePort (u : Url) : Option Nat :=
  u.port <|> defaultPort? u.scheme

/-- The path as it is written. -/
def pathText (u : Url) : String :=
  u.path.text

/-- The host as it is written, if the URL has one that is not empty. -/
def hostText? (u : Url) : Option String :=
  match u.host with
  | some (.name "") => none
  | some host => some host.text
  | none => none

/-- A host and, unless it is the default, the port. -/
def withPort (host : String) (port : Option Nat) : String :=
  match port with
  | some port => host ++ ":" ++ Decimal.ofNat port
  | none => host

/-- User information with its `@`, or nothing. -/
def credentialsText (u : Url) : String :=
  if u.username = "" ∧ u.password.isNone then ""
  else
    u.username ++ (match u.password with
      | some p => ":" ++ p
      | none => "") ++ "@"

/-- Query and fragment with their marks. -/
def tailText (u : Url) : String :=
  (match u.query with
    | some q => "?" ++ q
    | none => "") ++
  (match u.fragment with
    | some f => "#" ++ f
    | none => "")

/-- The URL as text. A path that begins with two slashes gets `/.` in front where it would otherwise
read as a host. -/
def text (u : Url) : String :=
  let front :=
    match u.host with
    | some host => "//" ++ u.credentialsText ++ withPort host.text u.port
    | none =>
      match u.path with
      | .rooted ("" :: _ :: _) => "/."
      | _ => ""
  u.scheme ++ ":" ++ front ++ u.pathText ++ u.tailText

/-- The URL without user information. -/
def withoutCredentials (u : Url) : Url :=
  { u with username := "", password := none }

/-- The URL without its fragment. -/
def withoutFragment (u : Url) : Url :=
  { u with fragment := none }

end Url

end TokenKeeper
