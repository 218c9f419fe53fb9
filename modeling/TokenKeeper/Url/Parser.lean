import TokenKeeper.Url.HostText

/-!
# Reading URLs

`Url.ofText` reads an absolute URL and `Url.resolve` a reference against a base, as the URL
standard of web browsers does: blanks and controls at the ends and line breaks anywhere are
dropped, the scheme and the host are brought to one form, a default port is left out, `.` and `..`
segments (also where they are percent-coded) are resolved, and what may not stand for itself is
percent-coded. A text is first cut into its parts at the delimiters and each part is then read by
itself.
-/

namespace TokenKeeper.Url

/-! ## Characters -/

/-- Escaped in a fragment. -/
def escapedInFragment (b : UInt8) : Bool :=
  Percent.isControl b || Percent.isAmong " \"<>`" b

/-- Escaped in a path. -/
def escapedInPath (b : UInt8) : Bool :=
  escapedInFragment b || Percent.isAmong "#?\x7b\x7d" b

/-- Escaped in user information. -/
def escapedInUser (b : UInt8) : Bool :=
  escapedInPath b || Percent.isAmong "/:;=@[\\]^|" b

/-- Escaped in a query. An apostrophe is escaped only where hosts are domains. -/
def escapedInQuery (special : Bool) (b : UInt8) : Bool :=
  Percent.isControl b || Percent.isAmong " \"#<>" b || (special && b == 0x27)

/-- Characters as text in which those of a set are percent-coded. -/
def escapeChars (escaped : UInt8 → Bool) (s : List Char) : String :=
  Percent.encodeText escaped (String.ofList s)

/-- A control character of ASCII or a space. -/
def isEdge (c : Char) : Bool :=
  c.toNat ≤ 0x20

/-- The characters of a URL's text: none of the dropped ones. -/
def cleaned (s : String) : List Char :=
  let cs := (s.toList.dropWhile isEdge).reverse.dropWhile isEdge |>.reverse
  cs.filter fun c => !(c == '\t' || c == '\n' || c == '\r')

/-- A slash, or a backslash where it counts as one. -/
def isSlash (special : Bool) (c : Char) : Bool :=
  c == '/' || (special && c == '\\')

/-! ## Parts -/

/-- The scheme and what follows its colon. -/
def splitScheme (s : List Char) : Option (String × List Char) :=
  let scheme := s.takeWhile fun c => c.isAlphanum || c == '+' || c == '-' || c == '.'
  match scheme, s.drop scheme.length with
  | c :: _, ':' :: rest =>
    if c.isAlpha then some (String.ofList (scheme.map Char.toLower), rest) else none
  | _, _ => none

/-- The text before query and fragment, the query and the fragment, each without its mark. -/
def splitTail (s : List Char) : List Char × Option (List Char) × Option (List Char) :=
  let beforeHash := s.takeWhile (· != '#')
  let fragment := match s.drop beforeHash.length with
    | _ :: f => some f
    | [] => none
  let front := beforeHash.takeWhile (· != '?')
  let query := match beforeHash.drop front.length with
    | _ :: q => some q
    | [] => none
  (front, query, fragment)

/-- Put a query and a fragment on a URL. -/
def withTail (u : Url) (query fragment : Option (List Char)) : Url :=
  { u with
    query := query.map (escapeChars (escapedInQuery (isSpecial u.scheme)))
    fragment := fragment.map (escapeChars escapedInFragment) }

/-! ## Paths -/

/-- A segment that means the place itself. -/
def isDot (s : List Char) : Bool :=
  let t := s.map Char.toLower
  t == ".".toList || t == "%2e".toList

/-- A segment that means the place above. -/
def isDoubleDot (s : List Char) : Bool :=
  let t := s.map Char.toLower
  t == "..".toList || t == ".%2e".toList || t == "%2e.".toList || t == "%2e%2e".toList

/-- A segment that names a drive, as in `file:///C:/`. -/
def isDrive (s : List Char) : Bool :=
  match s with
  | [c, d] => c.isAlpha && (d == ':' || d == '|')
  | _ => false

/-- Drop the last segment, but not a lone drive of a `file` URL. -/
def shorten (scheme : String) (segments : List String) : List String :=
  match segments with
  | [s] => if scheme = "file" ∧ isDrive s.toList then segments else []
  | _ => segments.dropLast

/-- Add one segment of the text to those before it. `isLast` tells that no slash follows. -/
def addSegment (scheme : String) (segments : List String) (s : List Char) (isLast : Bool) :
    List String :=
  if isDoubleDot s then
    let up := shorten scheme segments
    if isLast then up ++ [""] else up
  else if isDot s then
    if isLast then segments ++ [""] else segments
  else if scheme = "file" ∧ segments = [] ∧ isDrive s then
    [String.ofList (s.take 1 ++ [':'])]
  else segments ++ [escapeChars escapedInPath s]

/-- Add all segments of the text. -/
def addSegments (scheme : String) (segments : List String) : List (List Char) → List String
  | [] => segments
  | [s] => addSegment scheme segments s true
  | s :: rest => addSegments scheme (addSegment scheme segments s false) rest

/-- The pieces of a path between its slashes. -/
def splitPath (special : Bool) (s : List Char) : List (List Char) :=
  (s.map fun c => if isSlash special c then '/' else c).splitOn '/'

/-- Read a path that begins at the root. -/
def rootedPath (scheme : String) (s : List Char) : Path :=
  let special := isSpecial scheme
  match s with
  | [] => .rooted (if special then [""] else [])
  | c :: rest =>
    .rooted (addSegments scheme [] (splitPath special (if isSlash special c then rest else s)))

/-! ## Authorities -/

/-- Split at the first colon outside brackets. -/
def splitPort (s : List Char) : List Char × Option (List Char) :=
  go false s
where
  /-- Whether a bracket is open, and the rest. -/
  go (inside : Bool) : List Char → List Char × Option (List Char)
    | [] => ([], none)
    | c :: rest =>
      if c == ':' && !inside then ([], some rest)
      else
        let (host, port) := go (if c == '[' then true else if c == ']' then false else inside) rest
        (c :: host, port)

/-- Read a port. An empty one is none, and so is the default. -/
def portOf (scheme : String) (s : Option (List Char)) : Except UrlError (Option Nat) :=
  match s with
  | none => .ok none
  | some [] => .ok none
  | some ds =>
    match Decimal.toNat? ds with
    | some n =>
      if n ≥ 65536 then .error .invalidPort
      else .ok (if defaultPort? scheme = some n then none else some n)
    | none => .error .invalidPort

/-- Split user information off at the last `@`. -/
def splitUser (s : List Char) : Option (List Char) × List Char :=
  if s.contains '@' then
    let host := (s.reverse.takeWhile (· != '@')).reverse
    (some (s.take (s.length - host.length - 1)), host)
  else (none, s)

/-- Read what stands after the two slashes. -/
def ofAuthority (scheme : String) (s : List Char) : Except UrlError Url := do
  let special := isSpecial scheme
  let (front, query, fragment) := splitTail s
  let authority := front.takeWhile (!isSlash special ·)
  let path := front.drop authority.length
  let (user, hostPort) := splitUser authority
  let (hostText, portText) := splitPort hostPort
  if hostText = [] ∧ (special ∨ user.isSome ∨ portText.isSome) then throw .emptyHost
  let host ←
    if hostText = [] then pure (.name "")
    else if special then Host.ofDomainText hostText
    else Host.ofFreeText hostText
  let port ← portOf scheme portText
  let user := user.getD []
  let username := user.takeWhile (· != ':')
  let password := match user.drop username.length with
    | _ :: [] => none
    | _ :: p => some (escapeChars escapedInUser p)
    | [] => none
  return withTail
    { scheme, username := escapeChars escapedInUser username, password
      host := some host, port, path := rootedPath scheme path }
    query fragment

/-- Read what stands after the slashes of a `file` URL that names a host or none. -/
def ofFileAuthority (s : List Char) : Except UrlError Url := do
  let (front, query, fragment) := splitTail s
  let hostText := front.takeWhile (!isSlash true ·)
  if isDrive hostText then
    return withTail
      { scheme := "file", host := some (.name ""), path := rootedPath "file" front } query fragment
  let host ← if hostText = [] then pure (.name "") else Host.ofDomainText hostText
  let host := if host = .name "localhost" then .name "" else host
  return withTail
    { scheme := "file", host := some host, path := rootedPath "file" (front.drop hostText.length) }
    query fragment

/-! ## References -/

/-- Read a reference without a scheme against a base whose path has segments. -/
def ofReference (base : Url) (s : List Char) : Except UrlError Url := do
  let special := isSpecial base.scheme
  let (front, query, fragment) := splitTail s
  let segments := match base.path with
    | .rooted segs => segs
    | .plain _ => []
  match front with
  | [] =>
    let u := withTail base query fragment
    return if query.isNone then { u with query := base.query } else u
  | a :: rest =>
    if isSlash special a then
      match rest with
      | b :: behind =>
        if isSlash special b then
          let after := s.drop (front.length - behind.length)
          if base.scheme = "file" then ofFileAuthority after
          else if special then ofAuthority base.scheme (after.dropWhile (isSlash special))
          else ofAuthority base.scheme after
        else return withTail { base with path := rootedPath base.scheme front } query fragment
      | [] => return withTail { base with path := rootedPath base.scheme front } query fragment
    else
      let path := addSegments base.scheme (shorten base.scheme segments) (splitPath special front)
      return withTail { base with path := .rooted path } query fragment

/-- Read what follows a scheme and its colon. -/
def ofSchemeRest (base : Option Url) (scheme : String) (s : List Char) : Except UrlError Url :=
  if scheme = "file" then
    match s with
    | a :: b :: rest =>
      if isSlash true a && isSlash true b then ofFileAuthority rest
      else relative
    | _ => relative
  else if isSpecial scheme then
    let slashes := s.takeWhile (isSlash true)
    match base with
    | some b =>
      if b.scheme = scheme ∧ slashes.length < 2 then ofReference b s
      else ofAuthority scheme (s.drop slashes.length)
    | none => ofAuthority scheme (s.drop slashes.length)
  else
    match s with
    | '/' :: '/' :: rest => ofAuthority scheme rest
    | '/' :: _ =>
      let (front, query, fragment) := splitTail s
      .ok (withTail { scheme, path := rootedPath scheme front } query fragment)
    | _ =>
      let (front, query, fragment) := splitTail s
      .ok (withTail { scheme, path := .plain (escapeChars Percent.isControl front) } query fragment)
where
  /-- A `file` URL without two slashes: relative to a base of its kind, else to the root. -/
  relative : Except UrlError Url :=
    match base with
    | some b => if b.scheme = "file" then ofReference b s else ofReference root s
    | none => ofReference root s
  /-- The root of the file system. -/
  root : Url :=
    { scheme := "file", host := some (.name ""), path := .rooted [] }

/-- Read a URL or, given a base, a reference. -/
def parse (base : Option Url) (text : String) : Except UrlError Url :=
  let s := cleaned text
  match splitScheme s with
  | some (scheme, rest) => ofSchemeRest base scheme rest
  | none =>
    match base with
    | none => .error .relativeWithoutBase
    | some b =>
      match b.path with
      | .rooted _ => ofReference b s
      | .plain _ =>
        match s with
        | '#' :: f => .ok { b with fragment := some (escapeChars escapedInFragment f) }
        | _ => .error .relativeWithoutBase

/-- Read an absolute URL. -/
def ofText (text : String) : Except UrlError Url :=
  parse none text

/-- Read a reference against a base. -/
def resolve (base : Url) (reference : String) : Except UrlError Url :=
  parse (some base) reference

end TokenKeeper.Url
