import TokenKeeper.Files.Access
import TokenKeeper.Settings.Basic
import TokenKeeper.Text.Pem

/-!
# Certificates

The certificates that the proxy trusts when it speaks to its backend over an encrypted connection.
They are read from a file in PEM. Of a certificate only the outline is looked at: three parts, of
which the first has the parts that every certificate has.
-/

namespace TokenKeeper

open Http

namespace Certificate

/-- A tagged value of the distinguished encoding, and what follows it. -/
structure Element where
  tag : UInt8
  content : List UInt8
  rest : List UInt8

/-- Read a number of bytes as one number. -/
def number (bytes : List UInt8) : Nat :=
  bytes.foldl (fun n b => n * 256 + b.toNat) 0

/-- Read a tagged value with its length. -/
def element? : List UInt8 → Option Element
  | tag :: first :: rest =>
    let width := if first < 0x80 then 0 else first.toNat - 0x80
    let length := if first < 0x80 then first.toNat else number (rest.take width)
    let body := rest.drop width
    if width ≤ 4 ∧ width ≤ rest.length ∧ length ≤ body.length then
      some ⟨tag, body.take length, body.drop length⟩
    else none
  | _ => none

/-- The tags of the values in a row. Each takes at least a byte, so the length is enough fuel. -/
def tags? : Nat → List UInt8 → Option (List UInt8)
  | _, [] => some []
  | 0, _ => none
  | fuel + 1, s => do
    let e ← element? s
    return e.tag :: (← tags? fuel e.rest)

/-- The tag of a sequence. -/
def sequence : UInt8 := 0x30

/-- The tags that the first part of a certificate begins with, after its version: serial number,
algorithm, issuer, validity, subject and key. -/
def bodyTags : List UInt8 := [0x02, sequence, sequence, sequence, sequence, sequence]

/-- Whether bytes have the outline of a certificate. -/
def isOutlined (bytes : List UInt8) : Bool :=
  match element? bytes with
  | some ⟨tag, content, []⟩ =>
    tag == sequence &&
    match tags? content.length content, element? content with
    | some [a, b, c], some body =>
      a == sequence && b == sequence && c == 0x03 &&
      match tags? body.content.length body.content with
      | some tags => bodyTags.isPrefixOf (tags.dropWhile (· == 0xA0))
      | none => false
    | _, _ => false
  | _ => false

/-- The certificates in a file, all of which must have the outline of one. -/
def ofFile (tree : FileTree) (path : String) : Except Error (List (List UInt8)) :=
  match tree.read path with
  | .error fault => .error (.backend (.unreadableAuthority path fault))
  | .ok bytes =>
    match Pem.sections? bytes with
    | none => .error (.backend (.badAuthority .unbuildable))
    | some sections =>
      let certificates :=
        (sections.filter (·.label == Utf8.ofText "CERTIFICATE")).map (·.bytes)
      if certificates = [] then .error (.backend (.noCertificates path))
      else if certificates.all isOutlined then .ok certificates
      else .error (.backend (.unusableCertificate .unbuildable))

end Certificate

/-- The certificates that the settings say to trust; `none` for those that the system trusts. -/
def BackendSettings.trusted (b : BackendSettings) (tree : FileTree) :
    Except Error (Option (List (List UInt8))) :=
  match b.authorityFile with
  | none => .ok none
  | some path => (Certificate.ofFile tree path).map some

end TokenKeeper
