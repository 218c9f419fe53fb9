import TokenKeeper.Http.Message
import TokenKeeper.Http.Target
import TokenKeeper.Net.Ip

/-!
# Requests of clients

A request as it reaches a server of this program. `Incoming.ofParts` checks the parts of one in
order: the method, the target, the fields and the address of the client.
-/

namespace TokenKeeper

open Http

/-- A request of a client. -/
structure Incoming where
  method : String := "GET"
  target : Target
  header : Header := []
  payload : Payload := .none
  /-- The address of the client, if it is known. -/
  client : Option ClientAddress := none
deriving DecidableEq, Repr

/-- The part of a request that cannot be. -/
inductive IncomingFault where
  | method | target | header | client
deriving DecidableEq, Repr

namespace Incoming

/-- The field of a name and a value. -/
def field? (part : String × List UInt8) : Option Field :=
  match fieldName? (Utf8.ofText part.1) with
  | some name => if isValue part.2 then some ⟨name, part.2⟩ else none
  | none => none

/-- A request of its parts. The address of the client is that of its end of the connection. -/
def ofParts (method target : String) (fields : List (String × List UInt8)) (payload : Payload)
    (client : Option String) : Except IncomingFault Incoming := do
  if !isToken (Utf8.ofText method) then throw .method
  let some target := Target.ofText? target | throw .target
  let some header := fields.mapM field? | throw .header
  let client ←
    match client with
    | none => pure none
    | some socket =>
      match ClientAddress.ofSocketText? socket with
      | some address => pure (some address)
      | none => throw .client
  return { method, target, header, payload, client }

/-- The request as it arrives over a connection: its first field names the server, it asks to close
the connection, and a payload comes with its length. -/
def overConnection (r : Incoming) (host : String) (client : ClientAddress) : Incoming :=
  let length : Header :=
    match r.payload with
    | .streamed bytes | .sized bytes =>
      [.ofText "content-length" (Decimal.ofNat bytes.length)]
    | _ => []
  { r with
    header := .ofText "host" host :: r.header ++ length ++ [.ofText "connection" "close"]
    client := some client }

end Incoming

end TokenKeeper
