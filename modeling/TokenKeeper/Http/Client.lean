import TokenKeeper.Http.Network
import TokenKeeper.Text.Base64
import TokenKeeper.Url.Parser

/-!
# Clients

A client that sends requests to URLs. `Request.toUrl?` makes a request, moving user information from
the URL into the header; `Network.send` sends one and takes the response as it is, and
`Network.sendFollowing` also follows redirects. What goes wrong is a `ClientFault`.
-/

namespace TokenKeeper.Http

/-- Why there is no response, or not all of one. -/
inductive ClientFault where
  /-- What is asked of the client makes no sense. -/
  | unbuildable
  /-- The URL is none that a client can send to. -/
  | refusedUrl (url : String)
  /-- The connection failed, or ended without a response. -/
  | transport (url : String)
  /-- One redirect too many. -/
  | redirects (url : String)
  /-- The body broke off or is not what was expected. -/
  | body
deriving DecidableEq, Repr

/-- The wording of each fault. -/
def ClientFault.message : ClientFault → String
  | unbuildable => "builder error"
  | refusedUrl url => "builder error for url (" ++ url ++ ")"
  | transport url => "error sending request for url (" ++ url ++ ")"
  | redirects url => "error following redirect for url (" ++ url ++ ")"
  | body => "error decoding response body"

/-- The value of a field with a name and a password, both as they are. -/
def basicAuthorization (user password : List UInt8) : List UInt8 :=
  Utf8.ofText "Basic " ++ Base64.encode (user ++ 0x3A :: password)

/-- The field for the user information of a URL, if it has any. -/
def credentialFields (u : Url) : Header :=
  if u.username = "" ∧ u.password.isNone then []
  else
    [⟨"authorization", basicAuthorization (Utf8.ofText (Percent.decodeText u.username))
      (Utf8.ofText (Percent.decodeText (u.password.getD "")))⟩]

/-- A request to a URL, which must name a host. User information goes into the header. -/
def Request.toUrl? (method : String) (url : Url) (header : Header) (payload : Payload) :
    Except ClientFault Request :=
  if url.hostText?.isNone then .error (.refusedUrl url.text)
  else
    .ok { method, url := url.withoutCredentials, header := credentialFields url ++ header, payload }

/-- Whether a client sends to a URL: its scheme is one of the two of this protocol, and what the URL
says can stand in a request. -/
def isSendable (u : Url) : Bool :=
  (u.scheme == "http" || u.scheme == "https") && (Target.ofText? u.withoutFragment.text).isSome

/-- Send a request and take the response as it is. The outer `none` means that nothing ever comes.
-/
def Network.send (n : Network) (r : Request) : Option (Except ClientFault Response) × Network :=
  if isSendable r.url then
    match n.exchange r with
    | (.response response, n) => (some (.ok response), n)
    | (.broken, n) => (some (.error (.transport r.url.text)), n)
    | (.pending, n) => (none, n)
  else (some (.error (.refusedUrl r.url.text)), n)

/-! ## Redirects -/

/-- The number of redirects that a client follows. -/
def maxRedirects : Nat := 10

/-- The statuses that send a client elsewhere. -/
def isRedirect (s : Status) : Bool :=
  s.code == 301 || s.code == 302 || s.code == 303 || s.code == 307 || s.code == 308

/-- A byte that a reference in a response may hold. -/
def isReferenceByte (b : UInt8) : Bool :=
  Percent.isAlphanumeric b || Percent.isAmong "-._~!$&'()*+,;=:/?#@[]%" b

/-- Where a response sends the client, if it says so in a reference that can be read. -/
def redirectUrl? (base : Url) (r : Response) : Option Url :=
  if isRedirect r.status then
    match r.header.get? "location" with
    | some location =>
      if location.all isReferenceByte then
        (Url.resolve base (Percent.asciiText location)).toOption
      else none
    | none => none
  else none

/-- What a redirect makes of a request before it is sent elsewhere: after 303, and after 301 and 302
if it was a `POST`, it asks with `GET` and without payload. -/
def Request.redirected (r : Request) (s : Status) : Request :=
  let asks := s.code == 303 || ((s.code == 301 || s.code == 302) && r.method == "POST")
  if asks then
    { r with
      method := if r.method == "HEAD" then r.method else "GET"
      payload := .none
      header := r.header.eraseAll
        ["content-type", "content-length", "content-encoding", "transfer-encoding"] }
  else r

/-- Whether two URLs lead to different servers. -/
def isForeign (a b : Url) : Bool :=
  a.host != b.host || a.effectivePort != b.effectivePort

/-- The header of a request that was redirected from one URL to another: it names the first, and
credentials do not go to another server. -/
def redirectedHeader (h : Header) (source target : Url) : Header :=
  let h :=
    if isForeign source target then
      h.eraseAll ["authorization", "cookie", "cookie2", "proxy-authorization", "www-authenticate"]
    else h
  if target.scheme == "http" && source.scheme == "https" then h
  else h.insert "referer" (Utf8.ofText (Network.targetText source))

/-- Send a request and follow redirects, `left` of them at most. `r` is the request without what the
last redirect has changed in its header, `sent` the one to send. -/
def Network.follow (n : Network) (first : Url) (r sent : Request) (left : Nat) :
    Option (Except ClientFault Response) × Network :=
  match n.exchange sent with
  | (.response response, n) =>
    match redirectUrl? r.url response with
    | none => (some (.ok response), n)
    | some url =>
      match left with
      | 0 => (some (.error (.redirects r.url.text)), n)
      | left + 1 =>
        if isSendable url then
          let next := { r.redirected response.status with url := url.withoutCredentials }
          n.follow first next { next with header := redirectedHeader next.header r.url url } left
        else (some (.error (.refusedUrl url.text)), n)
  | (.broken, n) => (some (.error (.transport first.text)), n)
  | (.pending, n) => (none, n)

/-- Send a request and follow redirects. There is no limit of time, so the outer `none` means again
that nothing ever comes. -/
def Network.sendFollowing (n : Network) (r : Request) :
    Option (Except ClientFault Response) × Network :=
  if isSendable r.url then n.follow r.url r r maxRedirects
  else (some (.error (.refusedUrl r.url.text)), n)

end TokenKeeper.Http
