import TokenKeeper.Issuer.Exchange

/-!
# Discovery

An issuer publishes its endpoints in a document at a well-known place below its URL.
`Provider.discover` asks for the document and takes the token endpoint from it, provided that the
document is about the very issuer that was asked; slashes at the end of an issuer's URL do not
count.
-/

namespace TokenKeeper

open Http

/-- What of a discovery document is used. -/
structure DiscoveryDocument where
  issuer : String
  tokenEndpoint : Option String
deriving DecidableEq, Repr

/-- The document that a JSON value gives: an object, or an array of the fields in order. -/
def DiscoveryDocument.ofJson? (v : Json) : Option DiscoveryDocument := do
  match ← v.record? ["issuer", "token_endpoint"] with
  | [some issuer, endpoint] =>
    return {
      issuer := ← issuer.text?
      tokenEndpoint := ← (endpoint.map Json.optionalText?).getD (some none) }
  | _ => none

/-- An issuer with its token endpoint. -/
structure Provider where
  issuer : String
  tokenUrl : Url
deriving DecidableEq, Repr

namespace Provider

/-- An issuer's URL without the slashes at its end. -/
def bareIssuer (issuer : String) : String :=
  String.ofList ((issuer.toList.reverse.dropWhile (· == '/')).reverse)

/-- Where an issuer publishes its document. -/
def documentUrl (issuer : String) : String :=
  bareIssuer issuer ++ "/.well-known/openid-configuration"

/-- The request for the document. -/
def request (issuer : String) : Except ClientFault Request :=
  match Url.ofText (documentUrl issuer) with
  | .ok url => Request.toUrl? "GET" url [.ofText "accept" "application/json"] .none
  | .error _ => .error .unbuildable

/-- The document in a response. -/
def documentOf (r : Response) : Except DiscoveryFault DiscoveryDocument :=
  if r.status.isSuccess then
    match (r.body.whole?.bind Json.ofBytes?).bind DiscoveryDocument.ofJson? with
    | some document => .ok document
    | none => .error (.badDocument .body)
  else .error (.refused r.status (Utf8.toTextLossy (r.body.whole?.getD [])))

/-- The provider that a document describes, if it is about the issuer. -/
def ofDocument (issuer : String) (d : DiscoveryDocument) : Except DiscoveryFault Provider :=
  if bareIssuer d.issuer ≠ bareIssuer issuer then .error (.otherIssuer issuer d.issuer)
  else
    match d.tokenEndpoint.filter (· ≠ "") with
    | none => .error .noEndpoint
    | some endpoint =>
      match Url.ofText endpoint with
      | .ok tokenUrl => .ok { issuer := d.issuer, tokenUrl }
      | .error fault => .error (.badEndpoint endpoint fault)

/-- Ask an issuer for its document. The outer `none` means that nothing ever comes of it. -/
def fetch (issuer : String) (x : Exchange) :
    Option (Except DiscoveryFault Provider) × Exchange :=
  match request issuer with
  | .error fault => (some (.error (.badUrl (documentUrl issuer) fault)), x)
  | .ok request =>
    match x.send request with
    | (some (.error fault), x) => (some (.error (.unanswered fault)), x)
    | (some (.ok response), x) => (some (documentOf response >>= ofDocument issuer), x)
    | (none, x) => (none, x)

/-- Find the endpoints of an issuer. -/
def discover (issuer : String) (x : Exchange) : Option (Except Error Provider) × Exchange :=
  let (result, x) := fetch issuer x
  (result.map (·.mapError .discovery), x)

end Provider

/-- The token source of an account at the endpoint that its issuer publishes. -/
def TokenSource.discover (account : IssuerAccount) (scopes : List String) (x : Exchange) :
    Option (Except Error TokenSource) × Exchange :=
  let (result, x) := Provider.discover account.issuerUrl x
  (result.map (·.map fun p => .ofAccount p.tokenUrl account scopes), x)

end TokenKeeper
