import TokenKeeper.Error
import TokenKeeper.Http.Target
import TokenKeeper.Url.WirePath

/-!
# The backend

The server that the proxy forwards to. It is named once by a URL, of which scheme, host, port and
path count; the target of every request is that path with the request's path behind it.
-/

namespace TokenKeeper

/-- Where requests are forwarded to. -/
structure Backend where
  scheme : String
  /-- The host, and the port unless it is the default. -/
  authority : String
  basePath : WirePath
deriving DecidableEq, Repr

namespace Backend

/-- The backend that a URL names, which must have a host. -/
def ofUrl (u : Url) : Except Error Backend :=
  match u.hostText? with
  | none => .error (.config (.hostlessBackend u.text))
  | some host =>
    .ok { scheme := u.scheme, authority := Url.withPort host u.port
          basePath := .ofWire u.pathText }

/-- The text of the URL that a request for a target goes to. -/
def target (b : Backend) (t : Http.Target) : String :=
  b.scheme ++ "://" ++ b.authority ++ (b.basePath.join (.ofWire t.path)).wire ++
    (match t.query with
      | some query => "?" ++ query
      | none => "")

end Backend

end TokenKeeper
