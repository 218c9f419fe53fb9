import TokenKeeper.Error
import TokenKeeper.Json.Reader
import TokenKeeper.Text.Form
import TokenKeeper.Token.Basic

/-!
# Responses of a token endpoint

An issuer answers a request for a token with a record of three fields, written as JSON or as form
pairs. `TokenRecord.ofBody` reads the record, `TokenRecord.token` makes a token of it: a lifetime
that is missing, blank or not positive gives a token without expiry. `IssuerRefusal.ofBody` reads
what an issuer says when it refuses.
-/

namespace TokenKeeper

/-- How long a token lasts, as the issuer wrote it. -/
inductive Lifetime where
  | seconds (n : Int)
  | text (s : String)
deriving DecidableEq, Repr

/-- What an issuer sends for a token. -/
structure TokenRecord where
  accessToken : String
  tokenType : Option String
  expiresIn : Option Lifetime
deriving DecidableEq, Repr

/-- The number of seconds; a blank text is none. -/
def Lifetime.seconds? : Lifetime → Except FetchFault (Option Int)
  | seconds n => .ok (some n)
  | text s =>
    let trimmed := trimBlanks s.toList
    if trimmed = [] then .ok none
    else
      match Decimal.toInt? trimmed with
      | some n => if Json.isInt64 n then .ok (some n) else .error (.badLifetime s)
      | none => .error (.badLifetime s)

namespace TokenRecord

/-- The names of the fields. -/
def fieldNames : List String := ["access_token", "token_type", "expires_in"]

/-- The record before anything is read. -/
def empty : TokenRecord :=
  { accessToken := "", tokenType := none, expiresIn := none }

/-- The record after one more pair: its value takes the place of what was there under its name.
Pairs of other names are passed over. -/
def withPair (r : TokenRecord) (pair : String × String) : TokenRecord :=
  match pair.1 with
  | "access_token" => { r with accessToken := pair.2 }
  | "token_type" => { r with tokenType := some pair.2 }
  | "expires_in" => { r with expiresIn := some (.text pair.2) }
  | _ => r

/-- The record that pairs give, read one after the other. -/
def ofPairs (pairs : List (String × String)) : TokenRecord :=
  pairs.foldl withPair empty

/-- A lifetime in JSON: a whole number, a string, or `null` for none. -/
def lifetimeOfJson? (v : Json) : Option (Option Lifetime) :=
  match v with
  | .null => some none
  | .string _ => v.text?.map fun s => some (.text s)
  | _ => v.int64?.map fun n => some (.seconds n)

/-- The record that a JSON value gives: an object, or an array of the fields in order. -/
def ofJson? (v : Json) : Option TokenRecord := do
  match ← v.record? fieldNames with
  | [accessToken, tokenType, expiresIn] =>
    return {
      accessToken := ← (accessToken.map Json.text?).getD (some "")
      tokenType := ← (tokenType.map Json.optionalText?).getD (some none)
      expiresIn := ← (expiresIn.map lifetimeOfJson?).getD (some none) }
  | _ => none

/-- The media type in a content type, without parameters. -/
def mediaType (contentType : String) : String :=
  String.ofList (trimBlanks (contentType.toList.takeWhile (· != ';')))

/-- The media types under which a record is written as form pairs. -/
def isFormType (mediaType : String) : Bool :=
  mediaType == "application/x-www-form-urlencoded" || mediaType == "text/plain"

/-- Read a record. All content types but those of forms mean JSON. -/
def ofBody (contentType : String) (body : List UInt8) : Except FetchFault TokenRecord :=
  if isFormType (mediaType contentType) then .ok (ofPairs (Form.decode body))
  else
    match (Json.ofBytes? body).bind ofJson? with
    | some record => .ok record
    | none => .error .unreadable

/-- The token of a record that arrives at an instant. -/
def token (r : TokenRecord) (now : Instant) : Except FetchFault Token := do
  let seconds ←
    match r.expiresIn with
    | some lifetime => lifetime.seconds?
    | none => .ok none
  let expiry ←
    match seconds.filter (· > 0) with
    | none => .ok none
    | some n =>
      match now.checkedAdd? n with
      | some expiry => .ok (some expiry)
      | none => .error (.lifetimeOutOfRange n)
  return {
    accessToken := r.accessToken
    tokenType := (r.tokenType.filter (· ≠ "")).getD "Bearer"
    expiry }

end TokenRecord

/-- The token that a response gives. -/
def Token.ofResponse (contentType : String) (body : List UInt8) (now : Instant) :
    Except Error Token :=
  match TokenRecord.ofBody contentType body with
  | .ok record => (record.token now).mapError .fetch
  | .error fault => .error (.fetch fault)

/-- What is wrong with a response that is read in vain is a fault of the fetch. -/
theorem Token.exists_of_ofResponse_eq_error {contentType : String} {body : List UInt8}
    {now : Instant} {e : Error} (h : Token.ofResponse contentType body now = .error e) :
    ∃ fault, e = .fetch fault := by
  rw [Token.ofResponse] at h
  split at h
  · rename_i record hrecord
    rcases ht : record.token now with fault | t <;> rw [ht] at h <;> cases h
    exact ⟨fault, rfl⟩
  · cases h
    exact ⟨_, rfl⟩

namespace IssuerRefusal

/-- The number of characters of a plain text that are kept. -/
def maxPlain : Nat := 512

/-- An error record in JSON. -/
def ofJson? (v : Json) : Option IssuerRefusal := do
  match ← v.record? ["error", "error_description"] with
  | [some error, description] =>
    let error ← error.text?
    let description ← (description.map Json.optionalText?).getD (some none)
    return coded error (description.filter (· ≠ ""))
  | _ => none

/-- What a body says: an error record, or any text. -/
def ofBody (body : List UInt8) : IssuerRefusal :=
  match (Json.ofBytes? body).bind ofJson? with
  | some refusal => refusal
  | none => plain (String.ofList ((trimBlanks (Utf8.decodeLossy body)).take maxPlain))

end IssuerRefusal

end TokenKeeper
