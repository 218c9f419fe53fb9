import TokenKeeper.Metrics.Registry
import TokenKeeper.Proxy.Backend
import TokenKeeper.Proxy.HopFields
import TokenKeeper.Proxy.Incoming
import TokenKeeper.Token.Channel

/-!
# Forwarding

The proxy passes each request on to its backend with the live token in it, and the response back.
What a client says about the host and about its own authorization is not passed on; without a
token that is of use a request goes without authorization. A backend that does not answer makes a
response of the proxy's own, and so does running out of time.
-/

namespace TokenKeeper

open Http

/-- A proxy for one backend. -/
structure Proxy where
  backend : Backend
  /-- The time for reading the body of a request. -/
  readTimeout : Option Span := none
  /-- The time for answering a request. -/
  writeTimeout : Option Span := none
deriving DecidableEq, Repr

namespace Proxy

/-- The value of the authorization that a token gives, if it is a legal value. -/
def authorization? (t : Token) : Option (List UInt8) :=
  let value := Utf8.ofText t.authorization
  if isValue value then some value else none

/-- The header that is passed on, with the live token if there is one. -/
def forwardedHeader (r : Incoming) (token : Option Token) : Header :=
  let kept := (r.header.withoutHopFields.erase "host").erase "authorization"
  let chained :=
    match r.client with
    | some client => kept.appendForwardedFor client.text
    | none => kept
  let h := chained.append Header.forwardedPrefix (Utf8.ofText "/")
  match token.bind authorization? with
  | some value => h.insert "authorization" value
  | none => h

/-- The request to the backend. -/
def outgoing (p : Proxy) (r : Incoming) (token : Option Token) : Except ClientFault Request :=
  match Url.ofText (p.backend.target r.target) with
  | .ok url => Request.toUrl? r.method url (forwardedHeader r token) r.payload
  | .error _ => .error .unbuildable

/-- A response of the proxy's own. -/
def ownResponse (status : Status) : Response :=
  { status, header := [.ofText "content-length" "0"] }

/-- What is passed back of a response. -/
def returned (r : Response) : Response :=
  { r with header := r.header.withoutHopFields }

/-- The limit of time for reading the body of a request, if the client that sends it on reads it and
it never ends. -/
def readLimit (p : Proxy) (request : Request) : Option Span :=
  if request.awaitsPayload then p.readTimeout else none

/-- The response when nothing ever comes of a request to the backend, if there is a limit of time
that ends the wait. -/
def timedOut (p : Proxy) (request : Request) : Option Response :=
  match p.readLimit request, p.writeTimeout with
  | some read, some write =>
    some (ownResponse (if read < write then .badGateway else .requestTimeout))
  | some _, none => some (ownResponse .badGateway)
  | none, some _ => some (ownResponse .requestTimeout)
  | none, none => none

/-- Answer a request. `none` means that there is never a response. -/
def answer (p : Proxy) (token : Option Token) (r : Incoming) (n : Network) :
    Option Response × Network :=
  match p.outgoing r token with
  | .error _ => (some (ownResponse .badGateway), n)
  | .ok request =>
    match n.send request with
    | (some (.ok response), n) => (some (returned response), n)
    | (some (.error _), n) => (some (ownResponse .badGateway), n)
    | (none, n) => (p.timedOut request, n)

end Proxy

/-! ## A proxy at work -/

/-- What a proxy at work keeps. -/
structure ProxyState where
  channel : Channel := {}
  now : Instant
  metrics : Registry := {}
deriving DecidableEq, Repr

/-- What happens to a proxy at work. -/
inductive ProxyAction where
  /-- The clock is set. -/
  | clock (now : Instant)
  /-- A token is published. -/
  | publish (t : Token)
  /-- The writer of tokens goes away. -/
  | dropWriter
  /-- A request is answered, with the network as it is then. -/
  | request (r : Incoming) (n : Network)
deriving DecidableEq, Repr

/-- What came of a request: the requests that reached the backend, and the response. -/
structure ProxyAnswer where
  seen : List SeenRequest
  response : Option Response
deriving DecidableEq, Repr

namespace Proxy

/-- The token that requests carry: what was published last, while it is of use. -/
def liveToken (s : ProxyState) : Option Token :=
  (s.channel.get? 0 s.now).getD none

/-- Answer a request, and record that it was answered. -/
def serve (p : Proxy) (s : ProxyState) (r : Incoming) (n : Network) : ProxyAnswer × ProxyState :=
  let (response, n') := p.answer (liveToken s) r n
  let metrics :=
    match response with
    | some response => s.metrics.recordAnswer r.method response.status.codeText
    | none => s.metrics
  ({ seen := n'.seen.drop n.seen.length, response }, { s with metrics })

/-- One thing that happens. -/
def step (p : Proxy) (s : ProxyState) : ProxyAction → Option ProxyAnswer × ProxyState
  | .clock now => (none, { s with now })
  | .publish t =>
    (none, if s.channel.hasWriter then { s with channel := s.channel.write t } else s)
  | .dropWriter => (none, { s with channel := { s.channel with hasWriter := false } })
  | .request r n =>
    let (answer, s) := p.serve s r n
    (some answer, s)

/-- Several things that happen one after the other. -/
def run (p : Proxy) (s : ProxyState) : List ProxyAction → List (Option ProxyAnswer) × ProxyState
  | [] => ([], s)
  | a :: rest =>
    let (answer, s) := p.step s a
    let (answers, s) := p.run s rest
    (answer :: answers, s)

end Proxy

end TokenKeeper
