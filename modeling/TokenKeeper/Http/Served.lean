import TokenKeeper.Http.Message

/-!
# Responses over a connection

How a server writes a response on a connection that it closes afterwards. A body whose length the
header does not announce is sent in chunks if it is a stream, and announced if it is empty;
responses that never have a body get neither.
-/

namespace TokenKeeper.Http

/-- A response as it is read off a connection. -/
structure Served where
  statusLine : String
  header : Header
  body : List UInt8
deriving DecidableEq, Repr

/-- Where a body comes from. -/
inductive BodySource where
  /-- It is all there. -/
  | whole
  /-- It comes bit by bit, and its length is not known. -/
  | stream
deriving DecidableEq, Repr

/-- The fields that say how long a body is, where the header does not. -/
def lengthFields (method : String) (r : Response) (source : BodySource) : Header :=
  if r.header.has "content-length" || method == "HEAD" || r.status.isBodiless then []
  else
    match source with
    | .whole => [.ofText "content-length" (Decimal.ofNat r.body.bytes.length)]
    | .stream => [.ofText "transfer-encoding" "chunked"]

/-- The response to a request of the method as it is read off the connection. -/
def Response.served (r : Response) (method : String) (source : BodySource) : Served :=
  { statusLine := "HTTP/1.1 " ++ r.status.codeText ++ " " ++ r.status.reason?.getD "<none>"
    header := r.header ++ lengthFields method r source ++ [.ofText "connection" "close"]
    body := if method == "HEAD" || r.status.isBodiless then [] else r.body.bytes }

end TokenKeeper.Http
