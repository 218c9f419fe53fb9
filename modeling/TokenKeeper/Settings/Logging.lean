/-!
# Log settings

How much the program logs, and in which form.
-/

namespace TokenKeeper

/-- The least weight of what is logged. -/
inductive LogLevel where
  | error | warn | info | debug
deriving DecidableEq, Repr

/-- The word for a level. -/
def LogLevel.text : LogLevel → String
  | error => "error"
  | warn => "warn"
  | info => "info"
  | debug => "debug"

/-- The level that a word means. -/
def LogLevel.ofText? (s : String) : Option LogLevel :=
  [error, warn, info, debug].find? (·.text == s)

/-- The form of a log line. -/
inductive LogFormat where
  | logfmt | json
deriving DecidableEq, Repr

/-- The word for a form. -/
def LogFormat.text : LogFormat → String
  | logfmt => "logfmt"
  | json => "json"

/-- The form that a word means. -/
def LogFormat.ofText? (s : String) : Option LogFormat :=
  [logfmt, json].find? (·.text == s)

end TokenKeeper
