import TokenKeeper.Issuer.Grant
import TokenKeeper.Metrics.Registry
import TokenKeeper.Token.Response

/-!
# Asking for a token

One exchange with a token endpoint. The request names the client by a name and a password, each
percent-coded before they are put together, and carries the pairs of the grant as a form. Only a
response with a status of success is read as a token, and only a token that is of use on arrival is
handed on. `Exchange` is what an exchange changes: the network, and what is recorded of it.
-/

namespace TokenKeeper

open Http

/-- What is outside the program, and what has been recorded of it. -/
structure Exchange where
  network : Network
  metrics : Registry := {}
deriving DecidableEq, Repr

namespace Exchange

/-- Send a request to the issuer, and record it and the code of the response. The outer `none` means
that nothing ever comes, and then nothing is recorded. -/
def send (x : Exchange) (r : Request) : Option (Except ClientFault Response) × Exchange :=
  let (result, network) := x.network.sendFollowing r
  let metrics :=
    match result with
    | some (.ok response) =>
      x.metrics.recordIssuerRequest r.method (some response.status.codeText)
    | some (.error _) => x.metrics.recordIssuerRequest r.method none
    | none => x.metrics
  (result, { network, metrics })

end Exchange

namespace TokenSource

/-- Escaped in a client's name and password: all but letters, digits and `-_.~`. -/
def isEscaped (b : UInt8) : Bool :=
  !(Percent.isAlphanumeric b || Percent.isAmong "-_.~" b)

/-- The value of the `Authorization` field. -/
def authorization (s : TokenSource) : List UInt8 :=
  basicAuthorization (Percent.encode isEscaped (Utf8.ofText s.clientId))
    (Percent.encode isEscaped (Utf8.ofText s.clientSecret))

/-- The body of a request. -/
def requestBody (s : TokenSource) : List UInt8 :=
  Form.encode s.grant.form

/-- The request for a token. -/
def request (s : TokenSource) : Except ClientFault Request :=
  Request.toUrl? "POST" s.tokenUrl
    [ ⟨"authorization", s.authorization⟩,
      .ofText "accept" "application/json",
      .ofText "content-type" "application/x-www-form-urlencoded" ]
    (.sized s.requestBody)

/-- The content type of a response, if it is visible text. -/
def contentType (r : Response) : String :=
  ((r.header.get? "content-type").bind visibleText?).getD ""

/-- The token that a response gives at an instant. -/
def tokenOf (r : Response) (now : Instant) : Except Error Token :=
  match r.body.whole? with
  | none => .error (.fetch (.brokenBody .body))
  | some body =>
    if r.status.isSuccess then
      match Token.ofResponse (contentType r) body now with
      | .ok token =>
        if token.isValidAt now then .ok token else .error (.invalidToken token.expiry)
      | .error e => .error e
    else .error (.fetch (.refused r.status (IssuerRefusal.ofBody body)))

/-- Ask for a token; the response arrives at `now`. The outer `none` means that none ever does. -/
def fetch (s : TokenSource) (x : Exchange) (now : Instant) :
    Option (Except Error Token) × Exchange :=
  match s.request with
  | .error fault => (some (.error (.fetch (.unsendable fault))), x)
  | .ok request =>
    match x.send request with
    | (some (.error fault), x) => (some (.error (.fetch (.unanswered fault))), x)
    | (some (.ok response), x) => (some (tokenOf response now), x)
    | (none, x) => (none, x)

/-- Ask several times in a row at one instant, as long as something comes of it. -/
def fetchTimes (s : TokenSource) (now : Instant) (x : Exchange) :
    Nat → List (Except Error Token) × Exchange
  | 0 => ([], x)
  | n + 1 =>
    match s.fetch x now with
    | (some result, x) =>
      let (results, x) := s.fetchTimes now x n
      (result :: results, x)
    | (none, x) => ([], x)

end TokenSource

end TokenKeeper
