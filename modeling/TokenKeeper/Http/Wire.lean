import TokenKeeper.Http.Message

/-!
# Responses on the wire

Reading a response from the bytes of a connection that the server then closes: a status line,
header lines, an empty line and the body. How long the body is follows from the request's method,
the status and the header, in this order: no body at all, chunks, an announced length, or
everything up to the end. A connection that closes too early leaves the body incomplete.
-/

namespace TokenKeeper.Http.Wire

/-- The bytes of one line, without its end, and what follows. A line ends in a line feed with or
without a carriage return before it. -/
def line? : List UInt8 → Option (List UInt8 × List UInt8)
  | [] => none
  | 0x0D :: 0x0A :: rest => some ([], rest)
  | 0x0A :: rest => some ([], rest)
  | b :: rest => (line? rest).map fun (l, rest) => (b :: l, rest)

/-- What follows a line is shorter. -/
theorem length_of_line? {s l rest : List UInt8} (h : line? s = some (l, rest)) :
    rest.length < s.length := by
  fun_induction line? s generalizing l rest with
  | case1 => cases h
  | case2 => cases h; simp only [List.length_cons]; omega
  | case3 => cases h; simp only [List.length_cons]; omega
  | case4 b s _ _ ih =>
    obtain ⟨⟨l', rest'⟩, hr, he⟩ := Option.map_eq_some_iff.1 h
    cases he
    have := ih hr
    simp only [List.length_cons]
    omega

/-! ## Head -/

/-- The lines up to the empty one, and what follows it. -/
def head? (s : List UInt8) : Option (List (List UInt8) × List UInt8) :=
  match _h : line? s with
  | none => none
  | some ([], rest) => some ([], rest)
  | some (l, rest) => (head? rest).map fun (ls, rest) => (l :: ls, rest)
termination_by s.length
decreasing_by exact length_of_line? _h

/-- Without the empty lines at the head. -/
def skipEmptyLines : List UInt8 → List UInt8
  | 0x0D :: 0x0A :: rest => skipEmptyLines rest
  | 0x0A :: rest => skipEmptyLines rest
  | s => s

/-- A byte of the phrase after a status code. -/
def isPhraseByte (b : UInt8) : Bool :=
  b == 0x09 || (0x20 ≤ b && b != 0x7F)

/-- The protocol's minor version and the status of a status line. -/
def statusLine? (l : List UInt8) : Option (Nat × Status) := do
  let minor ←
    if l.take 8 = Utf8.ofText "HTTP/1.1" then some 1
    else if l.take 8 = Utf8.ofText "HTTP/1.0" then some 0
    else none
  match l.drop 8 with
  | 0x20 :: a :: b :: c :: phrase =>
    let code ← Decimal.toNat? ([a, b, c].map fun d => Char.ofNat d.toNat)
    if code < 100 then none
    else
      match phrase with
      | [] => return (minor, ⟨code⟩)
      | 0x20 :: p => if p.all isPhraseByte then return (minor, ⟨code⟩) else none
      | _ => none
  | _ => none

/-- The field of a header line. -/
def field? (l : List UInt8) : Option Field := do
  let name ← fieldName? (l.takeWhile (· != 0x3A))
  match l.dropWhile (· != 0x3A) with
  | _ :: value => if isValue value then return ⟨name, trimValue value⟩ else none
  | [] => none

/-! ## Body -/

/-- A length in hexadecimal digits. -/
def chunkLength? (l : List UInt8) : Option Nat :=
  let digits := l.takeWhile fun b => (Percent.hexValue? b).isSome
  let rest := (l.drop digits.length).dropWhile isPadding
  if digits ≠ [] ∧ digits.length ≤ 16 ∧ (rest = [] ∨ rest.head? = some 0x3B) then
    some (digits.foldl (fun n b => n * 16 + (Percent.hexValue? b).getD 0) 0)
  else none

/-- Read chunks up to the empty one and the lines after it. -/
def chunks (s : List UInt8) : Body :=
  match _h : line? s with
  | none => ⟨[], false⟩
  | some (l, rest) =>
    match chunkLength? l with
    | none => ⟨[], false⟩
    | some 0 => ⟨[], (head? rest).isSome⟩
    | some n =>
      match _hn : rest.drop n with
      | 0x0D :: 0x0A :: behind =>
        let more := chunks behind
        ⟨rest.take n ++ more.bytes, more.complete⟩
      | _ => ⟨rest.take n, false⟩
termination_by s.length
decreasing_by
  have hl := length_of_line? _h
  have hd := congrArg List.length _hn
  simp only [List.length_drop, List.length_cons] at hd
  omega

/-- Read the body that the head announces. `none` means that it announces nothing that makes
sense. -/
def body? (method : String) (minor : Nat) (status : Status) (h : Header) (s : List UInt8) :
    Option Body :=
  if status.isBodiless || status.code == 101 || method == "HEAD" then some ⟨[], true⟩
  else if method == "CONNECT" && status.isSuccess then some ⟨[], true⟩
  else if h.has "transfer-encoding" then
    if minor = 0 then none
    else if h.isChunked then some (chunks s)
    else some ⟨s, true⟩
  else if h.has "content-length" then
    h.announcedLength?.map fun n => ⟨s.take n, n ≤ s.length⟩
  else some ⟨s, true⟩

/-! ## Responses -/

/-- Read the response to a request of the method. Responses that are only informational are passed
over; each takes at least a byte, so the length is enough fuel. -/
def responseFrom? (method : String) (s : List UInt8) : Nat → Option Response
  | 0 => none
  | fuel + 1 => do
    let (lines, rest) ← head? (skipEmptyLines s)
    let (minor, status) ← lines.head?.bind statusLine?
    let header ← (lines.drop 1).mapM field?
    if status.code < 200 ∧ status.code ≠ 101 then responseFrom? method rest fuel
    else
      let body ← body? method minor status header rest
      return { status, header, body }

/-- Read the response to a request of the method. -/
def response? (method : String) (s : List UInt8) : Option Response :=
  responseFrom? method s (s.length + 1)

end TokenKeeper.Http.Wire
