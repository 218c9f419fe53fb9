import TokenKeeper.Files.TokenFile
import TokenKeeper.Issuer.Grant
import TokenKeeper.Settings.Flags

/-!
# Settings

What the program goes by once its flags have been found to make sense: an account with an issuer,
and a token file, a backend or both. `Settings.ofFlags` checks flags and makes settings of them;
blank texts count as not given.
-/

namespace TokenKeeper

/-- What is set about the backend. -/
structure BackendSettings where
  url : Url
  /-- A file with the certificates to trust. -/
  authorityFile : Option String := none
  /-- The time for reading the body of a request. -/
  readTimeout : Option Span := none
  /-- The time for answering a request. -/
  writeTimeout : Option Span := none
deriving DecidableEq, Repr

/-- Settings that make sense. -/
structure Settings where
  account : IssuerAccount
  scopes : List String
  margin : Span
  file : Option TokenFile
  backend : Option BackendSettings
  /-- The address of the proxy. -/
  listen : String
  /-- The address of the internal server. -/
  listenInternal : String
  logLevel : LogLevel
  logFormat : LogFormat
  name : String
deriving DecidableEq, Repr

namespace Settings

/-- A text, unless it is blank. -/
def unlessBlank (s : Option String) : Option String :=
  s.filter fun s => !isBlankText s

/-- A text, unless it is empty. -/
def unlessEmpty (s : Option String) : Option String :=
  s.filter (· ≠ "")

/-- A span, unless it is zero. -/
def unlessZero (d : Span) : Option Span :=
  if d.nanos = 0 then none else some d

/-- What stands between two scopes. -/
def isSeparator (c : Char) : Bool :=
  c == ',' || isBlank c

/-- The scopes in several texts, in order. -/
def splitScopes (raw : List String) : List String :=
  raw.flatMap fun s =>
    ((s.toList.splitOnP isSeparator).filter (· ≠ [])).map String.ofList

/-- An address to listen on. One that starts with a colon is about every interface. -/
def listenAddress (s : String) : String :=
  if s.toList.head? = some ':' then "0.0.0.0" ++ s else s

/-- The URL of the backend, which must have a host. -/
def backendUrl (raw : String) : Except Error Url :=
  match Url.ofText raw with
  | .error fault => .error (.config (.unreadableBackend raw fault))
  | .ok url =>
    if url.hostText?.isNone then .error (.config (.hostlessBackend raw)) else .ok url

/-- What the flags say about the backend. -/
def backendOfFlags (f : Flags) : Except Error (Option BackendSettings) :=
  match unlessBlank f.url, unlessBlank f.backendUrl with
  | some _, some _ => .error (.config .twoBackends)
  | none, none => .ok none
  | some raw, none | none, some raw => do
    return some {
      url := ← backendUrl raw
      authorityFile := unlessEmpty f.authorityFile
      readTimeout := unlessZero f.readTimeout
      writeTimeout := unlessZero f.writeTimeout }

/-- What the flags say about the token file. -/
def fileOfFlags (f : Flags) : Option TokenFile :=
  (unlessEmpty f.file).map fun path => .ofPath path (unlessEmpty f.stagingFile)

/-- What the flags say about the account. -/
def accountOfFlags (f : Flags) : IssuerAccount :=
  { issuerUrl := f.issuerUrl
    clientId := f.clientId
    clientSecret := f.clientSecret
    audience := unlessBlank (some f.audience)
    username := unlessBlank (some f.username)
    password := unlessBlank (some f.password) }

/-- Check flags and make settings of them. -/
def ofFlags (f : Flags) : Except Error Settings := do
  let backend ← backendOfFlags f
  let file := fileOfFlags f
  if file.isNone && backend.isNone then throw (.config .noTarget)
  if isBlankText f.issuerUrl then throw (.config .noIssuer)
  return {
    account := accountOfFlags f
    scopes := splitScopes f.scopes
    margin := f.margin
    file
    backend
    listen := listenAddress f.listen
    listenInternal := listenAddress f.listenInternal
    logLevel := f.logLevel
    logFormat := f.logFormat
    name := f.name }

end Settings

end TokenKeeper
