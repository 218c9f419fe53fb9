import TokenKeeper.Settings.Logging
import TokenKeeper.Time.SpanText

/-!
# Flags

The command line: flags with values, written `--name=value` or `--name value`, some of which may
also be given by a variable of the environment. `Flags.ofArguments` reads arguments from left to
right and stops at the first fault. A value that follows its flag as an argument of its own is
looked at only when the next known flag comes, or at the end; variables are looked at last.
-/

namespace TokenKeeper

/-- What the values of a flag are. -/
inductive FlagKind where
  | text | path | level | format | span
deriving DecidableEq, Repr

/-- A flag that takes a value. -/
structure Flag where
  /-- Without the two dashes. -/
  name : String
  kind : FlagKind := .text
  /-- The variable of the environment that stands in for the flag. -/
  fallback : Option String := none
  /-- Whether it may be given more than once. -/
  repeatable : Bool := false
deriving DecidableEq, Repr

/-- A value in the form that the flag's kind asks for. -/
inductive FlagValue where
  | text (s : String)
  | level (l : LogLevel)
  | format (f : LogFormat)
  | span (d : Span)
deriving DecidableEq, Repr

/-- Why reading stops. Two of the reasons are no faults but requests. -/
inductive FlagError where
  /-- A value is missing, empty or not in the list of words. -/
  | invalidValue
  /-- A value that is no span. -/
  | invalidSpan
  /-- A flag that is given twice. -/
  | conflict
  | unknownArgument
  /-- A value for a flag that takes none. -/
  | unexpectedValue
  | helpWanted
  | versionWanted
deriving DecidableEq, Repr

namespace Flag

/-- All flags that take a value. -/
def all : List Flag :=
  [ { name := "debug.name" },
    { name := "log.level", kind := .level, fallback := some "LOG_LEVEL" },
    { name := "log.format", kind := .format, fallback := some "LOG_FORMAT" },
    { name := "web.internal.listen", fallback := some "WEB_INTERNAL_LISTEN" },
    { name := "web.listen", fallback := some "WEB_LISTEN" },
    { name := "oidc.issuer-url", fallback := some "OIDC_ISSUER_URL" },
    { name := "oidc.client-secret", fallback := some "OIDC_CLIENT_SECRET" },
    { name := "oidc.client-id", fallback := some "OIDC_CLIENT_ID" },
    { name := "oidc.audience", fallback := some "OIDC_AUDIENCE" },
    { name := "oidc.username" },
    { name := "oidc.password" },
    { name := "scope", repeatable := true },
    { name := "file", kind := .path, fallback := some "FILE" },
    { name := "temp-file", kind := .path, fallback := some "TEMP_FILE" },
    { name := "url", fallback := some "URL" },
    { name := "upstream.url" },
    { name := "upstream.ca-file", kind := .path },
    { name := "upstream.read-timeout", kind := .span },
    { name := "upstream.write-timeout", kind := .span },
    { name := "margin", kind := .span } ]

/-- The flag of a name. -/
def ofName? (name : String) : Option Flag :=
  all.find? (·.name == name)

end Flag

/-- Read a value. -/
def FlagKind.read (kind : FlagKind) (raw : String) : Except FlagError FlagValue :=
  match kind with
  | text => .ok (.text raw)
  | path => if raw = "" then .error .invalidValue else .ok (.text raw)
  | level => (LogLevel.ofText? raw).elim (.error .invalidValue) (.ok <| .level ·)
  | format => (LogFormat.ofText? raw).elim (.error .invalidValue) (.ok <| .format ·)
  | span => (Span.ofText raw).toOption.elim (.error .invalidSpan) (.ok <| .span ·)

/-! ## Reading arguments -/

/-- The values that have been given, by the names of their flags and in order. -/
abbrev FlagValues := List (String × FlagValue)

namespace FlagValues

/-- Whether a flag has been given. -/
def has (vs : FlagValues) (name : String) : Bool :=
  vs.any (·.1 == name)

/-- Take a value for a flag. That it has been given before is found out before the value is read. -/
def add (vs : FlagValues) (f : Flag) (raw : String) : Except FlagError FlagValues :=
  if vs.has f.name && !f.repeatable then .error .conflict
  else do return vs ++ [(f.name, ← f.kind.read raw)]

/-- Take the variables of the flags that have not been given, in the order of the flags. -/
def addVariables (vs : FlagValues) (environment : List (String × String)) :
    Except FlagError FlagValues :=
  Flag.all.foldlM
    (fun vs f =>
      match f.fallback.bind fun v => environment.lookup v with
      | some raw => if vs.has f.name then .ok vs else vs.add f raw
      | none => .ok vs)
    vs

end FlagValues

/-- What has been read of the arguments. -/
structure ArgumentScan where
  values : FlagValues := []
  /-- A flag whose value has not been looked at, and the value if it has come. -/
  pending : Option (Flag × Option String) := none

namespace ArgumentScan

/-- Look at the value that is still pending. -/
def settle (s : ArgumentScan) : Except FlagError FlagValues :=
  match s.pending with
  | none => .ok s.values
  | some (_, none) => .error .invalidValue
  | some (f, some raw) => s.values.add f raw

/-- What an argument looks like. -/
inductive Shape where
  /-- Two dashes and nothing else. -/
  | terminator
  /-- Two dashes, a name and perhaps a value after `=`. -/
  | long (name : String) (value : Option String)
  /-- A dash and a letter. -/
  | short (letter : Char)
  | plain
deriving DecidableEq, Repr

/-- The shape of an argument. A dash alone is plain. -/
def shape (argument : String) : Shape :=
  match argument.toList with
  | ['-', '-'] => .terminator
  | '-' :: '-' :: rest =>
    .long (String.ofList (rest.takeWhile (· != '=')))
      ((rest.dropWhile (· != '=')).tail?.map String.ofList)
  | '-' :: c :: _ => .short c
  | _ => .plain

/-- A request that ends reading, unless what is pending is at fault. -/
def request {α : Type} (s : ArgumentScan) (e : FlagError) : Except FlagError α := do
  let _ ← s.settle
  throw e

/-- Take a long argument. -/
def long (s : ArgumentScan) (name : String) (value : Option String) :
    Except FlagError ArgumentScan :=
  if name = "help" ∨ name = "version" then
    if value.isSome then .error .unexpectedValue
    else s.request (if name = "help" then .helpWanted else .versionWanted)
  else
    match Flag.ofName? name, value with
    | none, _ => .error .unknownArgument
    | some f, some raw => do return { values := ← (← s.settle).add f raw }
    | some f, none => do return { values := ← s.settle, pending := some (f, none) }

/-- Take an argument that starts with one dash. -/
def short (s : ArgumentScan) (letter : Char) : Except FlagError ArgumentScan :=
  if letter = 'h' then s.request .helpWanted
  else if letter = 'V' then s.request .versionWanted
  else .error .unknownArgument

/-- Take any other argument: it is the value that is pending, or there is no use for it. -/
def plain (s : ArgumentScan) (argument : String) : Except FlagError ArgumentScan :=
  match s.pending with
  | some (f, none) => .ok { s with pending := some (f, some argument) }
  | _ => .error .unknownArgument

/-- Take all arguments. -/
def all (s : ArgumentScan) : List String → Except FlagError FlagValues
  | [] => s.settle
  | argument :: rest =>
    match shape argument with
    | .terminator => if rest = [] then s.settle else .error .unknownArgument
    | .long name value => do (← s.long name value).all rest
    | .short letter => do (← s.short letter).all rest
    | .plain => do (← s.plain argument).all rest

end ArgumentScan

/-! ## Flags with their defaults -/

/-- The values of all flags. -/
structure Flags where
  name : String := "token-refresher"
  logLevel : LogLevel := .info
  logFormat : LogFormat := .logfmt
  listenInternal : String := ":8081"
  listen : String := ":8080"
  issuerUrl : String := ""
  clientSecret : String := ""
  clientId : String := ""
  audience : String := ""
  username : String := ""
  password : String := ""
  scopes : List String := []
  file : Option String := none
  stagingFile : Option String := none
  url : Option String := none
  backendUrl : Option String := none
  authorityFile : Option String := none
  readTimeout : Span := ⟨0⟩
  writeTimeout : Span := ⟨0⟩
  margin : Span := .seconds 300
deriving DecidableEq, Repr

namespace FlagValues

/-- The texts given for a flag. -/
def texts (vs : FlagValues) (name : String) : List String :=
  vs.filterMap fun
    | (n, .text s) => if n = name then some s else none
    | _ => none

/-- The text given for a flag. -/
def text? (vs : FlagValues) (name : String) : Option String :=
  (vs.texts name).head?

/-- The span given for a flag. -/
def span? (vs : FlagValues) (name : String) : Option Span :=
  vs.findSome? fun
    | (n, .span d) => if n = name then some d else none
    | _ => none

/-- The level given for logs. -/
def level? (vs : FlagValues) : Option LogLevel :=
  vs.findSome? fun
    | (_, .level l) => some l
    | _ => none

/-- The form given for logs. -/
def format? (vs : FlagValues) : Option LogFormat :=
  vs.findSome? fun
    | (_, .format f) => some f
    | _ => none

/-- All flags, with their defaults where nothing is given. -/
def toFlags (vs : FlagValues) : Flags :=
  let d : Flags := {}
  { name := (vs.text? "debug.name").getD d.name
    logLevel := vs.level?.getD d.logLevel
    logFormat := vs.format?.getD d.logFormat
    listenInternal := (vs.text? "web.internal.listen").getD d.listenInternal
    listen := (vs.text? "web.listen").getD d.listen
    issuerUrl := (vs.text? "oidc.issuer-url").getD d.issuerUrl
    clientSecret := (vs.text? "oidc.client-secret").getD d.clientSecret
    clientId := (vs.text? "oidc.client-id").getD d.clientId
    audience := (vs.text? "oidc.audience").getD d.audience
    username := (vs.text? "oidc.username").getD d.username
    password := (vs.text? "oidc.password").getD d.password
    scopes := vs.texts "scope"
    file := vs.text? "file"
    stagingFile := vs.text? "temp-file"
    url := vs.text? "url"
    backendUrl := vs.text? "upstream.url"
    authorityFile := vs.text? "upstream.ca-file"
    readTimeout := (vs.span? "upstream.read-timeout").getD d.readTimeout
    writeTimeout := (vs.span? "upstream.write-timeout").getD d.writeTimeout
    margin := (vs.span? "margin").getD d.margin }

end FlagValues

/-- Read the arguments of the command line under an environment. -/
def Flags.ofArguments (arguments : List String) (environment : List (String × String)) :
    Except FlagError Flags := do
  let given ← ({} : ArgumentScan).all arguments
  return (← given.addVariables environment).toFlags

end TokenKeeper
