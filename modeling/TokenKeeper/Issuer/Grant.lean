import TokenKeeper.Text.Quoted
import TokenKeeper.Url.Basic

/-!
# Grants

On what ground a client asks an issuer for a token. The credentials choose it once: a name and a
password go before scopes, scopes before an audience, and without any of them the client asks for
itself. `Grant.form` is what the grant adds to the request.
-/

namespace TokenKeeper

/-- How the program is known to its issuer. -/
structure IssuerAccount where
  issuerUrl : String
  clientId : String
  clientSecret : String
  audience : Option String := none
  username : Option String := none
  password : Option String := none
deriving DecidableEq, Repr

/-- The ground of a request for a token. -/
inductive Grant where
  | clientCredentials
  | password (username password : String)
  | scope (scope : String)
  | audience (audience : String)
deriving DecidableEq, Repr

namespace Grant

/-- The grant that an account and scopes choose. -/
def select (account : IssuerAccount) (scopes : List String) : Grant :=
  match account.username, account.password with
  | some username, some secret => password username secret
  | _, _ =>
    if scopes ≠ [] then scope (" ".intercalate scopes)
    else
      match account.audience with
      | some a => audience a
      | none => clientCredentials

/-- The pairs of the request's form, in order. -/
def form : Grant → List (String × String)
  | clientCredentials => [("grant_type", "client_credentials")]
  | password username secret =>
    [("grant_type", "password"), ("username", username), ("password", secret)]
  | scope s => [("grant_type", "client_credentials"), ("scope", s)]
  | audience a => [("grant_type", "client_credentials"), ("audience", a)]

/-- The name of a grant. -/
def kind : Grant → String
  | clientCredentials => "client_credentials"
  | password .. => "password"
  | scope _ => "scope"
  | audience _ => "audience"

/-- The grant in a log, without the secret. -/
def logText : Grant → String
  | clientCredentials => "ClientCredentials"
  | password username _ =>
    "Password \x7b username: " ++ Quoted.encode username ++ ", password: " ++ Quoted.redacted ++
      " \x7d"
  | scope s => "Scope(" ++ Quoted.encode s ++ ")"
  | audience a => "Audience(" ++ Quoted.encode a ++ ")"

end Grant

/-- Where and how a client asks for tokens. -/
structure TokenSource where
  tokenUrl : Url
  clientId : String
  clientSecret : String
  grant : Grant
deriving DecidableEq, Repr

namespace TokenSource

/-- The source for an account at a token endpoint. -/
def ofAccount (tokenUrl : Url) (account : IssuerAccount) (scopes : List String) : TokenSource :=
  { tokenUrl, clientId := account.clientId, clientSecret := account.clientSecret
    grant := Grant.select account scopes }

/-- The source in a log, without the secret. -/
def logText (s : TokenSource) : String :=
  "OAuth2Source \x7b token_url: " ++ Quoted.encode s.tokenUrl.text ++ ", client_id: " ++
    Quoted.encode s.clientId ++ ", grant: " ++ s.grant.logText ++ " \x7d"

end TokenSource

end TokenKeeper
