import TokenKeeper.Files.ErrorNumber
import TokenKeeper.Net.Ip

/-!
# Listening

Taking hold of an address to listen on: a host, a colon and a port.
-/

namespace TokenKeeper

/-- Why an address cannot be listened on. -/
inductive ListenFault where
  /-- There is no colon. -/
  | badAddress
  /-- What follows the last colon is no port. -/
  | badPort
  /-- The host is no address, and no name that is known here. -/
  | unknownHost
  /-- Somebody else listens there. -/
  | inUse
deriving DecidableEq, Repr

/-- The wording of a fault. -/
def ListenFault.message : ListenFault → String
  | badAddress => "invalid socket address"
  | badPort => "invalid port value"
  | unknownHost =>
    "failed to lookup address information: Temporary failure in name resolution"
  | inUse => ErrorNumber.addressInUse.text

namespace Listen

/-- Read a port: digits, perhaps with a `+` before them. -/
def port? (s : List Char) : Option Nat :=
  match s with
  | '+' :: ds => ClientAddress.port? ds
  | _ => ClientAddress.port? s

/-- Whether a host is an address, or the name of the machine itself. -/
def isKnownHost (host : List Char) : Bool :=
  (Ipv4.ofDotted? host).isSome || host == "localhost".toList || (Ipv6.ofText? 1 host).isSome ||
    match host with
    | '[' :: rest => rest.getLast? == some ']' && (Ipv6.ofText? 1 rest.dropLast).isSome
    | _ => false

/-- Take hold of an address, given the ports that somebody else listens on. -/
def bind (busy : List Nat) (address : String) : Except ListenFault Unit :=
  let back := address.toList.reverse
  match back.dropWhile (· != ':') with
  | [] => .error .badAddress
  | _ :: host =>
    match port? (back.takeWhile (· != ':')).reverse with
    | none => .error .badPort
    | some port =>
      if !isKnownHost host.reverse then .error .unknownHost
      else if busy.contains port then .error .inUse
      else .ok ()

/-- What is said when an address cannot be listened on. -/
def failureText (address : String) : String :=
  "failed to listen on " ++ address

end Listen

end TokenKeeper
