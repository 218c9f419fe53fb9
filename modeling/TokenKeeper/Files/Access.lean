import TokenKeeper.Files.ErrorNumber
import TokenKeeper.Files.Tree

/-!
# Access by path

What a kernel does with a path: it walks the names one by one, and every name but the last must lead
to a directory. On what the walk ends at, `read`, `writeFile` and `rename` do their work or say why
not. Each of them either does all of it or leaves the tree as it is.
-/

namespace TokenKeeper.FileTree

/-- How a path ends. -/
inductive LastName where
  | named (name : String)
  /-- The place itself, or the one above, or nothing but slashes. -/
  | dots
deriving DecidableEq, Repr

/-- What a path leads to: a name in a directory. -/
structure Walk where
  directory : Place
  last : LastName
  /-- Whether slashes follow the last name. -/
  slash : Bool
deriving DecidableEq, Repr

/-- The place that a walk ends at, if it ends in a name. -/
def Walk.place? (w : Walk) : Option Place :=
  match w.last with
  | .named name => some (w.directory ++ [name])
  | .dots => none

/-- The largest number of bytes in a name. -/
def maxName : Nat := 255

/-- The number of bytes from which on a path is too long. -/
def maxPath : Nat := 4096

/-- Go from a directory to a name in it, which must be a directory too. -/
def enter (t : FileTree) (directory : Place) (name : String) : Except SystemError Place :=
  if name = "." then .ok directory
  else if name = ".." then .ok directory.dropLast
  else if (Utf8.ofText name).length > maxName then .error (.kernel .nameTooLong)
  else
    match t.find? (directory ++ [name]) with
    | some .directory => .ok (directory ++ [name])
    | some (.file _) => .error (.kernel .notDirectory)
    | none => .error (.kernel .notFound)

/-- The names in a path. -/
def namesOf (path : String) : List String :=
  placeOfText path

/-- Walk a path. -/
def walk (t : FileTree) (path : String) : Except SystemError Walk :=
  if path.toList.contains (Char.ofNat 0) then .error .nulByte
  else if path = "" then .error (.kernel .notFound)
  else if (Utf8.ofText path).length ≥ maxPath then .error (.kernel .nameTooLong)
  else do
    let names := namesOf path
    let directory ← names.dropLast.foldlM t.enter []
    let slash := path.toList.getLast? == some '/'
    match names.getLast? with
    | none => return { directory, last := .dots, slash }
    | some name =>
      if name = "." ∨ name = ".." then return { directory, last := .dots, slash }
      else return { directory, last := .named name, slash }

/-- The place of a walk, whose last name must not be too long. -/
def Walk.target (w : Walk) : Except SystemError (Option Place) :=
  match w.last with
  | .named name =>
    if (Utf8.ofText name).length > maxName then .error (.kernel .nameTooLong)
    else .ok (some (w.directory ++ [name]))
  | .dots => .ok none

/-- The bytes of the file at a path. -/
def read (t : FileTree) (path : String) : Except SystemError (List UInt8) := do
  let w ← t.walk path
  match ← w.target with
  | none => throw (.kernel .isDirectory)
  | some place =>
    match t.find? place with
    | some .directory => throw (.kernel .isDirectory)
    | some (.file bytes) => if w.slash then throw (.kernel .notDirectory) else return bytes
    | none => throw (.kernel .notFound)

/-- Put a file with the given bytes at a path, in place of one that is there. -/
def writeFile (t : FileTree) (path : String) (bytes : List UInt8) :
    Except SystemError FileTree := do
  let w ← t.walk path
  if w.slash ∧ w.last ≠ .dots then throw (.kernel .isDirectory)
  match ← w.target with
  | none => throw (.kernel .isDirectory)
  | some place =>
    if t.find? place = some .directory then throw (.kernel .isDirectory)
    return t.put place (.file bytes)

/-- Move the file at one path to another, in place of one that is there. -/
def rename (t : FileTree) (source target : String) : Except SystemError FileTree := do
  let w ← t.walk source
  let v ← t.walk target
  if w.last = .dots ∨ v.last = .dots then throw (.kernel .busy)
  match ← w.target, ← v.target with
  | some place, some goal =>
    match t.find? place with
    | none => throw (.kernel .notFound)
    | some node =>
      if node ≠ .directory ∧ (w.slash ∨ v.slash) then throw (.kernel .notDirectory)
      if goal.isPrefixOf place ∧ goal ≠ place then throw (.kernel .notEmpty)
      if goal = place then return t
      if t.find? goal = some .directory then throw (.kernel .isDirectory)
      return (t.erase place).put goal node
  | _, _ => throw (.kernel .busy)

end TokenKeeper.FileTree
