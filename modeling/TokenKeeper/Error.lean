import TokenKeeper.Files.ErrorNumber
import TokenKeeper.Http.Client
import TokenKeeper.Time.Calendar

/-!
# Errors

What can go wrong, by cause. An `Error` says in which part of the work it happened: configuration
and discovery end the program before it starts, the others fail one cycle of the refresh loop or
the setup of the proxy. `Error.message` words each of them and `Error.reason` is its short label.
-/

namespace TokenKeeper

open Http

/-- What is wrong with the settings. -/
inductive ConfigFault where
  /-- Both flags for the URL of the backend are given. -/
  | twoBackends
  | unreadableBackend (raw : String) (fault : UrlError)
  | hostlessBackend (raw : String)
  /-- Neither a file nor a backend is given. -/
  | noTarget
  | noIssuer
  | other (message : String)
deriving DecidableEq, Repr

/-- Why the endpoints of an issuer are not known. -/
inductive DiscoveryFault where
  | badUrl (url : String) (fault : ClientFault)
  | unanswered (fault : ClientFault)
  | refused (status : Status) (body : String)
  | badDocument (fault : ClientFault)
  /-- The document is about another issuer. -/
  | otherIssuer (expected got : String)
  | noEndpoint
  | badEndpoint (endpoint : String) (fault : UrlError)
  | other (message : String)
deriving DecidableEq, Repr

/-- What an issuer said when it refused. -/
inductive IssuerRefusal where
  /-- An error by its code, with a description if there is one that is not empty. -/
  | coded (error : String) (description : Option String)
  /-- Any other text. -/
  | plain (text : String)
deriving DecidableEq, Repr

/-- Why an issuer gave no token. -/
inductive FetchFault where
  | unsendable (fault : ClientFault)
  | unanswered (fault : ClientFault)
  | brokenBody (fault : ClientFault)
  | refused (status : Status) (refusal : IssuerRefusal)
  /-- The response is not a token in any known form. -/
  | unreadable
  | badLifetime (text : String)
  | lifetimeOutOfRange (seconds : Int)
  | other (message : String)
deriving DecidableEq, Repr

/-- Why the proxy cannot speak to its backend. -/
inductive BackendFault where
  | unreadableAuthority (path : String) (fault : SystemError)
  | badAuthority (fault : ClientFault)
  | noCertificates (path : String)
  | unusableCertificate (fault : ClientFault)
  | other (message : String)
deriving DecidableEq, Repr

/-- Everything that can go wrong. -/
inductive Error where
  | config (fault : ConfigFault)
  | discovery (fault : DiscoveryFault)
  | fetch (fault : FetchFault)
  /-- The issuer gave a token that is already of no use. -/
  | invalidToken (expiry : Option Instant)
  /-- The token could not be written to a file. -/
  | publish (path : String) (fault : SystemError)
  | backend (fault : BackendFault)
deriving DecidableEq, Repr

/-- What is wrong, naming the flags by which it can be mended. -/
def ConfigFault.message : ConfigFault → String
  | twoBackends => "use only one of --url or --upstream.url"
  | unreadableBackend raw fault => "invalid upstream URL '" ++ raw ++ "': " ++ fault.message
  | hostlessBackend raw => "upstream URL '" ++ raw ++ "' has no host"
  | noTarget => "one of --file or --upstream.url is required"
  | noIssuer => "--oidc.issuer-url is required"
  | other message => message

/-- What went wrong, with what the issuer said where it said something. -/
def DiscoveryFault.message : DiscoveryFault → String
  | badUrl url fault => "invalid discovery URL '" ++ url ++ "': " ++ fault.message
  | unanswered fault => "failed to fetch discovery document: " ++ fault.message
  | refused status body =>
    "failed to fetch discovery document: " ++ status.text ++ " " ++ trimText body
  | badDocument fault => "invalid discovery document: " ++ fault.message
  | otherIssuer expected got =>
    "issuer did not match the issuer returned by provider, expected '" ++ expected ++ "' got '" ++
      got ++ "'"
  | noEndpoint => "discovery document has no token_endpoint"
  | badEndpoint endpoint fault => "invalid token_endpoint '" ++ endpoint ++ "': " ++ fault.message
  | other message => message

/-- What the issuer said, in one line. -/
def IssuerRefusal.message : IssuerRefusal → String
  | coded error (some description) => error ++ ": " ++ description
  | coded error none => error
  | plain text => text

/-- What went wrong; an unreadable response is not quoted, since it may hold a token. -/
def FetchFault.message : FetchFault → String
  | unsendable fault => "cannot build token request: " ++ fault.message
  | unanswered fault => "token request failed: " ++ fault.message
  | brokenBody fault => "cannot read token response: " ++ fault.message
  | refused status refusal =>
    "token endpoint returned " ++ status.text ++ ": " ++ refusal.message
  | unreadable => "cannot parse token response"
  | badLifetime text => "invalid expires_in '" ++ text ++ "'"
  | lifetimeOutOfRange seconds => "expires_in " ++ Decimal.ofInt seconds ++ " out of range"
  | other message => message

/-- What went wrong, naming the file of certificates. -/
def BackendFault.message : BackendFault → String
  | unreadableAuthority path fault =>
    "failed to initialize upstream server TLS CA " ++ path ++ ": " ++ fault.message
  | badAuthority fault => "invalid upstream CA bundle: " ++ fault.message
  | noCertificates path => "no certificates found in upstream CA file " ++ path
  | unusableCertificate fault => "cannot build upstream client: " ++ fault.message
  | other message => message

namespace Error

/-- The wording of an error. -/
def message : Error → String
  | config fault => "invalid configuration: " ++ fault.message
  | discovery fault => "OIDC provider initialization failed: " ++ fault.message
  | fetch fault => "failed to get token: " ++ fault.message
  | invalidToken expiry =>
    "token is invalid, exp: " ++ (expiry.map Instant.rfc3339).getD "none"
  | publish path fault => "failed to write token to " ++ path ++ ": " ++ fault.message
  | backend fault => "upstream setup failed: " ++ fault.message

/-- The label of an error in metrics. -/
def reason : Error → String
  | config _ => "config"
  | discovery _ => "provider"
  | fetch _ => "fetch"
  | invalidToken _ => "invalid"
  | publish _ _ => "publish"
  | backend _ => "upstream"

/-- What lies behind an error that names another one. -/
def cause? : Error → Option String
  | publish _ fault => some fault.message
  | _ => none

end Error

/-- A fault that is made an error of another kind changes nothing about what went well. -/
theorem mapError_eq_ok_iff {α β γ : Type} {wrap : α → β} {result : Except α γ} {value : γ} :
    result.mapError wrap = .ok value ↔ result = .ok value := by
  constructor
  · intro h
    rcases result with fault | value'
    · cases h
    · cases h
      rfl
  · intro h
    rw [h]
    rfl

end TokenKeeper
