import TokenKeeper.Http.Target
import TokenKeeper.Http.Message
import TokenKeeper.Metrics.Exposition

/-!
# The internal server

Three pages for those who watch the program: its metrics, and two that only say that it is there.
They can be asked for with `GET` and `HEAD`.
-/

namespace TokenKeeper.Health

open Http

/-- A page of the internal server. -/
inductive Page where
  | metrics | live | ready
deriving DecidableEq, Repr

/-- The page at a path. -/
def Page.ofPath? (path : String) : Option Page :=
  if path = "/metrics" then some metrics
  else if path = "/live" then some live
  else if path = "/ready" then some ready
  else none

/-- The content type of a page and its text. -/
def Page.content (r : Registry) : Page → String × String
  | metrics => ("text/plain; version=0.0.4", Exposition.text r)
  | live | ready => ("text/plain; charset=utf-8", "OK")

/-- The methods that a page can be asked for with. -/
def allowed : String := "GET,HEAD"

/-- The response with a page. In answer to `HEAD` it has the fields of the page without its text. -/
def found (r : Registry) (method : String) (page : Page) : Response :=
  let (type, text) := page.content r
  let bytes := Utf8.ofText text
  { status := .ok
    header :=
      [ .ofText "content-type" type,
        .ofText "content-length" (Decimal.ofNat bytes.length) ]
    body := ⟨if method == "HEAD" then [] else bytes, true⟩ }

/-- Answer a request. -/
def answer (r : Registry) (method : String) (target : Target) : Response :=
  match Page.ofPath? target.path with
  | none => { status := .notFound }
  | some page =>
    if method == "GET" || method == "HEAD" then found r method page
    else
      { status := .methodNotAllowed
        header := [.ofText "allow" allowed, .ofText "content-length" "0"] }

end TokenKeeper.Health
