import TokenKeeper.Http.Header
import TokenKeeper.Http.Status
import TokenKeeper.Url.Basic

/-!
# Requests and responses

The messages that pass between a client and a server. A request carries its payload in one of the
forms in which a client can have it before it is sent; a response carries a body that may have been
cut short on the way.
-/

namespace TokenKeeper.Http

/-- What a client has to send with a request. -/
inductive Payload where
  | none
  /-- Bytes that are all there before sending starts. -/
  | sized (bytes : List UInt8)
  /-- Bytes that become known only while they are sent. -/
  | streamed (bytes : List UInt8)
  /-- A stream that never ends. -/
  | endless
deriving DecidableEq, Repr

/-- A request of a client. -/
structure Request where
  method : String
  url : Url
  header : Header := []
  payload : Payload := .none
deriving DecidableEq, Repr

/-- A request as the server sees it. -/
structure SeenRequest where
  method : String
  /-- The absolute URL that was asked for. -/
  target : String
  header : Header
  body : List UInt8
deriving DecidableEq, Repr

/-- The body of a response. -/
structure Body where
  bytes : List UInt8
  /-- Whether it arrived up to its end. -/
  complete : Bool := true
deriving DecidableEq, Repr

/-- The bytes of a body that arrived up to its end. -/
def Body.whole? (b : Body) : Option (List UInt8) :=
  if b.complete then some b.bytes else .none

/-- A response. -/
structure Response where
  status : Status
  header : Header := []
  body : Body := ⟨[], true⟩
deriving DecidableEq, Repr

end TokenKeeper.Http
