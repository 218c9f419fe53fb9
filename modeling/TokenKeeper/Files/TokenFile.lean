import TokenKeeper.Error
import TokenKeeper.Files.Access
import TokenKeeper.Token.Basic

/-!
# The token file

A file that holds the current token and nothing else. A new token is first staged in a file beside
it and then moved over it, so whoever reads the file finds a whole token at any time.
-/

namespace TokenKeeper

/-- Where the token file is, and where tokens are staged. -/
structure TokenFile where
  path : String
  stagingPath : String
deriving DecidableEq, Repr

namespace TokenFile

/-- The name of the token file as a sink. -/
def mode : String := "file"

/-- The token file at a path. Without a path for staging it is the path with `.tmp` behind. -/
def ofPath (path : String) (stagingPath : Option String) : TokenFile :=
  { path, stagingPath := stagingPath.getD (path ++ ".tmp") }

/-- The bytes that are written for a token. -/
def contents (t : Token) : List UInt8 :=
  Utf8.ofText t.accessToken

/-- Stage a token. -/
def stage (f : TokenFile) (t : Token) (tree : FileTree) : Except Error FileTree :=
  (tree.writeFile f.stagingPath (contents t)).mapError (.publish f.stagingPath)

/-- Move what is staged over the token file. -/
def commit (f : TokenFile) (tree : FileTree) : Except Error FileTree :=
  (tree.rename f.stagingPath f.path).mapError (.publish f.path)

/-- Stage a token and commit it. What was staged stays if the second step fails. -/
def publish (f : TokenFile) (t : Token) (tree : FileTree) : Except Error Unit × FileTree :=
  match f.stage t tree with
  | .error e => (.error e, tree)
  | .ok staged =>
    match f.commit staged with
    | .error e => (.error e, staged)
    | .ok done => (.ok (), done)

/-- Where staging fails, the error names the path for staging. -/
theorem exists_of_stage_eq_error {f : TokenFile} {t : Token} {tree : FileTree} {e : Error}
    (h : f.stage t tree = .error e) : ∃ fault, e = .publish f.stagingPath fault := by
  unfold stage at h
  cases hw : tree.writeFile f.stagingPath (contents t) <;> rw [hw] at h <;> cases h
  exact ⟨_, rfl⟩

/-- Where the second step fails, the error names the path of the file. -/
theorem exists_of_commit_eq_error {f : TokenFile} {tree : FileTree} {e : Error}
    (h : f.commit tree = .error e) : ∃ fault, e = .publish f.path fault := by
  unfold commit at h
  cases hr : tree.rename f.stagingPath f.path <;> rw [hr] at h <;> cases h
  exact ⟨_, rfl⟩

end TokenFile

end TokenKeeper
