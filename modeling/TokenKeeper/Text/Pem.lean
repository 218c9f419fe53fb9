import TokenKeeper.Text.Base64
import TokenKeeper.Text.Utf8

/-!
# PEM

Text in which binary sections are written in Base64 between a line that begins a section of some
label and one that ends it. Lines outside sections do not count. `sections?` reads all of them; it
refuses a beginning that is not well-formed, a section without an end, and one that is not in
Base64.
-/

namespace TokenKeeper.Pem

/-- A section. -/
structure Section where
  label : List UInt8
  bytes : List UInt8
deriving DecidableEq, Repr

/-- The labels of sections whose contents are looked at. The contents of others are passed over. -/
def knownLabels : List (List UInt8) :=
  [ "CERTIFICATE", "PUBLIC KEY", "RSA PRIVATE KEY", "PRIVATE KEY", "EC PRIVATE KEY", "X509 CRL",
    "CERTIFICATE REQUEST", "ECHCONFIG" ].map Utf8.ofText

/-- The mark with which a line begins a section. -/
def beginMark : List UInt8 := Utf8.ofText "-----BEGIN "

/-- The mark with which a line ends a section. -/
def endMark : List UInt8 := Utf8.ofText "-----END "

/-- The five dashes behind a label. -/
def dashes : List UInt8 := Utf8.ofText "-----"

/-- A space, a tab or a line end. -/
def isSpace (b : UInt8) : Bool :=
  b == 0x20 || b == 0x09 || b == 0x0A || b == 0x0D

/-- The lines of a text. -/
def lines (s : List UInt8) : List (List UInt8) :=
  s.splitOnP fun b => b == 0x0A || b == 0x0D

/-- The label of a line that begins a section: what stands before the five dashes at its end. -/
def label? (line : List UInt8) : Option (List UInt8) :=
  let back := line.reverse.dropWhile (· == 0x20)
  if (back.takeWhile (· == 0x2D)).length = 5 then
    some ((back.drop 5).reverse.drop beginMark.length)
  else none

/-- What has been read: the label of the section that is open and its Base64 so far. -/
structure Scan where
  opened : Option (List UInt8) := none
  coded : List UInt8 := []
  sections : List Section := []

/-- Take one line. -/
def Scan.step (s : Scan) (line : List UInt8) : Option Scan :=
  if beginMark.isPrefixOf line then (label? line).map fun label => { s with opened := some label }
  else
    match s.opened with
    | none => some s
    | some label =>
      if (endMark ++ label ++ dashes).isPrefixOf line then
        if knownLabels.contains label then
          (Base64.decode? (s.coded.filter (!isSpace ·))).map fun bytes =>
            { opened := none, coded := [], sections := s.sections ++ [⟨label, bytes⟩] }
        else some { s with opened := none, coded := [] }
      else some { s with coded := s.coded ++ line }

/-- Read all sections with known labels. -/
def sections? (s : List UInt8) : Option (List Section) := do
  let scan ← (lines s).foldlM Scan.step {}
  if scan.opened.isSome then none else return scan.sections

end TokenKeeper.Pem
