import TokenKeeper.Text.Quoted
import TokenKeeper.Time.Calendar

/-!
# Tokens

A bearer token as an issuer gives it. A token never changes; a refresh replaces it by another one.
It is of use while it is not empty and its expiry, if it has one, lies ahead.
-/

namespace TokenKeeper

/-- A bearer token. -/
structure Token where
  accessToken : String
  tokenType : String := "Bearer"
  /-- `none` if the issuer did not say how long the token lasts. -/
  expiry : Option Instant := none
deriving DecidableEq, Repr, Inhabited

namespace Token

/-- Whether a token is of use at an instant. -/
def isValidAt (t : Token) (now : Instant) : Bool :=
  t.accessToken != "" && (t.expiry.all fun expiry => now < expiry)

theorem isValidAt_iff (t : Token) (now : Instant) :
    t.isValidAt now ↔ t.accessToken ≠ "" ∧ ∀ e, t.expiry = some e → now < e := by
  rcases t with ⟨access, type, _ | e⟩ <;> simp [isValidAt]

/-- The value of the `Authorization` field. -/
def authorization (t : Token) : String :=
  "Bearer " ++ t.accessToken

/-- The token in a log, without the secret. -/
def logText (t : Token) : String :=
  "Token \x7b access_token: " ++ Quoted.redacted ++ ", token_type: " ++ Quoted.encode t.tokenType ++
    ", expiry: " ++
    (match t.expiry with
      | some expiry => "Some(" ++ expiry.zuluText ++ ")"
      | none => "None") ++ " \x7d"

end Token

end TokenKeeper
