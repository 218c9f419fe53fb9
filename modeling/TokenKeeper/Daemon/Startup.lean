import TokenKeeper.Daemon.Listen
import TokenKeeper.Issuer.Discovery
import TokenKeeper.Proxy.Certificates
import TokenKeeper.Proxy.Forward

/-!
# Startup

What the program does before it starts to work, in this order: it reads its flags, checks them,
sets up the proxy, asks the issuer for its endpoints, and takes hold of its addresses. The first
fault ends it. `Machine` is all that startup can change, so that what has happened before a fault
can be read off it.
-/

namespace TokenKeeper

/-- What is around the program. -/
structure Machine where
  exchange : Exchange
  tree : FileTree := {}
  /-- Ports that somebody else listens on. -/
  busyPorts : List Nat := []
  /-- The addresses that the program listens on. -/
  bound : List String := []
deriving DecidableEq, Repr

/-- Why the program failed: what, and what is behind it, and behind that. -/
structure Failure where
  message : String
  causes : List String := []
deriving DecidableEq, Repr

namespace Failure

/-- The failure that an error is. -/
def ofError (e : Error) : Failure :=
  { message := e.message, causes := e.cause?.toList }

/-- The lines of the causes; several are numbered. -/
def causeLines (causes : List String) : List String :=
  match causes with
  | [cause] => ["    " ++ cause]
  | _ => causes.mapIdx fun i cause => "    " ++ Decimal.ofNat i ++ ": " ++ cause

/-- What the program says of a failure. -/
def text (f : Failure) : String :=
  "Error: " ++ f.message ++
    if f.causes = [] then "" else "\n\nCaused by:\n" ++ "\n".intercalate (causeLines f.causes)

end Failure

namespace Startup

/-- The proxy that the settings ask for, if they do. -/
def proxy (s : Settings) (tree : FileTree) : Except Error (Option Proxy) :=
  match s.backend with
  | none => .ok none
  | some b => do
    let backend ← Backend.ofUrl b.url
    let _ ← b.trusted tree
    return some { backend, readTimeout := b.readTimeout, writeTimeout := b.writeTimeout }

/-- What the program works with. -/
structure Wiring where
  settings : Settings
  proxy : Option Proxy
  source : TokenSource
deriving DecidableEq, Repr

/-- Set up the proxy and find the issuer's endpoints. The outer `none` means that the issuer never
responds. -/
def wire (s : Settings) (m : Machine) : Option (Except Error Wiring) × Machine :=
  match proxy s m.tree with
  | .error e => (some (.error e), m)
  | .ok proxy =>
    let (result, exchange) := TokenSource.discover s.account s.scopes m.exchange
    (result.map (·.map fun source => { settings := s, proxy, source }), { m with exchange })

/-- Take hold of an address for the actor of a name. -/
def bind (actor address : String) (m : Machine) : Except Failure Unit × Machine :=
  match Listen.bind m.busyPorts address with
  | .ok () => (.ok (), { m with bound := m.bound ++ [address] })
  | .error fault =>
    (.error ⟨actor ++ " failed", [Listen.failureText address, fault.message]⟩, m)

/-- Take hold of the addresses of all servers. -/
def bindAll (w : Wiring) (m : Machine) : Except Failure Unit × Machine :=
  match bind "internal-server" w.settings.listenInternal m with
  | (.error f, m) => (.error f, m)
  | (.ok (), m) =>
    if w.proxy.isSome then bind "proxy-server" w.settings.listen m else (.ok (), m)

/-- Why the program does not start to work. -/
inductive Refusal where
  | flags (e : FlagError)
  | failure (f : Failure)
deriving DecidableEq, Repr

/-- All of startup. The outer `none` means that it never ends, because the issuer never responds. -/
def start (arguments : List String) (environment : List (String × String)) (m : Machine) :
    Option (Except Refusal Wiring) × Machine :=
  match Flags.ofArguments arguments environment with
  | .error e => (some (.error (.flags e)), m)
  | .ok flags =>
    match Settings.ofFlags flags with
    | .error e => (some (.error (.failure (.ofError e))), m)
    | .ok settings =>
      match wire settings m with
      | (none, m) => (none, m)
      | (some (.error e), m) => (some (.error (.failure (.ofError e))), m)
      | (some (.ok w), m) =>
        match bindAll w m with
        | (.error f, m) => (some (.error (.failure f)), m)
        | (.ok (), m) => (some (.ok w), m)

end Startup

end TokenKeeper
