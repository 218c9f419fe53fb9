import TokenKeeper.Http.Wire
import TokenKeeper.Http.Target

/-!
# The network

What a client finds on the other side of its connections: nothing at all, or a server that answers
each request with the next of a list of replies. It is spoken to under the schemes that it serves,
over plain connections, encrypted ones or both. A reply is given by what the server does,
`Reply.wire` says which bytes that puts on the connection, and what the client makes of them is
for `Wire.response?` to say. The network keeps the requests that reached the server.
-/

namespace TokenKeeper.Http

/-- How a server marks the end of a body. -/
inductive Framing where
  /-- By its length in the header. -/
  | announced
  /-- By sending it in chunks. -/
  | chunked
  /-- By a length that is larger than what it sends. -/
  | overstated
deriving DecidableEq, Repr

/-- What a server does with a request. -/
inductive Reply where
  /-- It answers. -/
  | answer (status : Status) (fields : List (String × List UInt8)) (body : List UInt8)
      (framing : Framing)
  /-- It closes the connection. -/
  | close
  /-- It keeps the connection and sends nothing. -/
  | hang
  /-- It sends some bytes and closes the connection. -/
  | raw (bytes : List UInt8)
deriving DecidableEq, Repr

namespace Reply

/-- The end of a line. -/
def lineEnd : List UInt8 := [0x0D, 0x0A]

/-- The line of a field. -/
def fieldLine (name : String) (value : List UInt8) : List UInt8 :=
  Utf8.ofText (name ++ ": ") ++ value ++ lineEnd

/-- A body as one chunk, or none if it is empty, and the empty chunk that ends it. -/
def chunks (body : List UInt8) : List UInt8 :=
  (if body = [] then []
    else (Nat.toDigits 16 body.length).flatMap Utf8.encodeChar ++ lineEnd ++ body ++ lineEnd) ++
  Utf8.ofText "0" ++ lineEnd ++ lineEnd

/-- The bytes that a reply to a request of the method puts on the connection before it is closed;
`none` if it is not closed. A response that never has a body announces none, and none is sent in
answer to `HEAD`. -/
def wire (method : String) : Reply → Option (List UInt8)
  | answer status fields body framing =>
    let length (n : Nat) := fieldLine "content-length" (Utf8.ofText (Decimal.ofNat n))
    let (extra, sent) :=
      match framing with
      | .announced => if status.isBodiless then ([], []) else (length body.length, body)
      | .chunked => (fieldLine "transfer-encoding" (Utf8.ofText "chunked"), chunks body)
      | .overstated => (length (body.length + 10), body)
    some
      (Utf8.ofText ("HTTP/1.1 " ++ status.codeText ++ " " ++ status.reason?.getD "") ++ lineEnd ++
        fields.flatMap (fun (name, value) => fieldLine name value) ++ extra ++ lineEnd ++
        if method == "HEAD" then [] else sent)
  | close => some []
  | hang => none
  | raw bytes => some bytes

end Reply

/-- What is on the other side. -/
structure Network where
  /-- Whether there is a server. -/
  reachable : Bool
  /-- The schemes of the URLs that lead to it: `http` for plain connections, `https` for encrypted
  ones. -/
  schemes : List String := ["http"]
  /-- What the server does next. After that it closes every connection. -/
  replies : List Reply := []
  /-- The requests that reached the server, in order. -/
  seen : List SeenRequest := []
deriving DecidableEq, Repr

/-- What comes of one request. -/
inductive Outcome where
  | response (r : Response)
  /-- No connection, or one that ended without a response. -/
  | broken
  /-- Nothing, for ever. -/
  | pending
deriving DecidableEq, Repr

/-- The body that a client puts on the connection. -/
inductive SentBody where
  | whole (bytes : List UInt8)
  /-- It ends before the announced length. -/
  | short
  /-- The server waits for its end for ever. -/
  | unending
deriving DecidableEq, Repr

/-- What a client puts on the connection for a payload. -/
structure SentPayload where
  /-- The fields that it adds. -/
  fields : Header
  body : SentBody

/-- A body under an announced length: cut to it, or too short. -/
def SentBody.cut (length : Nat) (bytes : List UInt8) : SentBody :=
  if length ≤ bytes.length then whole (bytes.take length) else short

/-- The methods that hardly ever have a body. -/
def isBodilessMethod (method : String) : Bool :=
  method == "GET" || method == "HEAD" || method == "CONNECT"

/-- How a payload is sent. One of known length is announced. A stream is sent in chunks, unless the
header already announces a length; and without that, the methods that hardly ever have a body send
none. -/
def Payload.sent (p : Payload) (method : String) (h : Header) : SentPayload :=
  match p with
  | .none => ⟨[], if h.announcedLength?.getD 0 = 0 then .whole [] else .unending⟩
  | .sized bytes =>
    match h.announcedLength? with
    | some n => ⟨[], .cut n bytes⟩
    | _ => ⟨[.ofText "content-length" (Decimal.ofNat bytes.length)], .whole bytes⟩
  | .streamed bytes =>
    match h.announcedLength? with
    | some n => ⟨[], .cut n bytes⟩
    | _ =>
      if isBodilessMethod method then ⟨[], .whole []⟩
      else ⟨[.ofText "transfer-encoding" "chunked"], .whole bytes⟩
  | .endless =>
    match h.announcedLength? with
    | some 0 => ⟨[], .whole []⟩
    | some _ => ⟨[], .unending⟩
    | _ => ⟨[], if isBodilessMethod method then .whole [] else .unending⟩

/-- Whether the client waits for bytes of a payload for ever. It does not if it sends none of them,
and then it does not read any either. -/
def Request.awaitsPayload (r : Request) : Bool :=
  r.payload == .endless && (r.payload.sent r.method r.header).body == .unending

namespace Network

/-- The URL that a request asks for, as the server sees it. -/
def targetText (u : Url) : String :=
  u.withoutCredentials.withoutFragment.text

/-- The fields that a client adds to a request: the host, and what it accepts. -/
def clientFields (r : Request) : Header :=
  (if r.header.has "host" then []
    else [.ofText "host" (Url.withPort (r.url.hostText?.getD "") r.url.port)]) ++
  (if r.header.has "accept" then [] else [.ofText "accept" "*/*"])

/-- The request as it reaches the server with the fields and the body that are sent. -/
def seenRequest (r : Request) (fields : Header) (body : List UInt8) : SeenRequest :=
  { method := r.method
    target := targetText r.url
    header := (r.header ++ clientFields r ++ fields).map fun f =>
      { f with value := trimValue f.value }
    body }

/-- Take the server's next reply to a request that reached it. -/
def answer (n : Network) (seen : SeenRequest) : Outcome × Network :=
  let reply := n.replies.head?.getD .close
  let n := { n with replies := n.replies.tail, seen := n.seen ++ [seen] }
  match reply.wire seen.method with
  | none => (.pending, n)
  | some bytes =>
    match Wire.response? seen.method bytes with
    | some response => (.response response, n)
    | none => (.broken, n)

/-- Whether a URL of a scheme leads to the server. -/
def serves (n : Network) (scheme : String) : Bool :=
  n.reachable && n.schemes.contains scheme

/-- Send one request and take what comes of it. -/
def exchange (n : Network) (r : Request) : Outcome × Network :=
  if n.serves r.url.scheme then
    let sent := r.payload.sent r.method r.header
    match sent.body with
    | .unending => (.pending, n)
    | .short => (.broken, n)
    | .whole body => n.answer (seenRequest r sent.fields body)
  else (.broken, n)

end Network

end TokenKeeper.Http
