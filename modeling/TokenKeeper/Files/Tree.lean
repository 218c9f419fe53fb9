import TokenKeeper.Text.Utf8

/-!
# File trees

The directories and files below one directory. A tree is a list of places with what stands there; a
place is the list of names that leads to it, and the empty list is the root, which is always a
directory. Links and permissions do not exist here, and storage never runs out.
-/

namespace TokenKeeper

/-- What stands at a place. -/
inductive FileNode where
  | directory
  | file (bytes : List UInt8)
deriving DecidableEq, Repr

/-- A place: the names from the root to it. -/
abbrev Place := List String

/-- What stands below a directory. -/
structure FileTree where
  entries : List (Place × FileNode) := []
deriving DecidableEq, Repr

namespace FileTree

/-- What stands at a place. -/
def find? (t : FileTree) (p : Place) : Option FileNode :=
  if p = [] then some .directory else t.entries.lookup p

/-- Put something at a place, whatever stood there. -/
def put (t : FileTree) (p : Place) (n : FileNode) : FileTree :=
  ⟨t.entries.filter (·.1 ≠ p) ++ [(p, n)]⟩

theorem lookup_filter_ne (entries : List (Place × FileNode)) (p q : Place) :
    (entries.filter (·.1 ≠ p)).lookup q = if q = p then none else entries.lookup q := by
  induction entries with
  | nil => simp
  | cons e rest ih =>
    by_cases he : e.1 = p
    · rw [List.filter_cons_of_neg (by simp [he]), ih]
      by_cases hq : q = p
      · rw [if_pos hq, if_pos hq]
      · rw [if_neg hq, if_neg hq, List.lookup_cons, he, beq_eq_false_iff_ne.mpr hq]
    · rw [List.filter_cons_of_pos (by simp [he]), List.lookup_cons, List.lookup_cons, ih]
      by_cases hq : q = p
      · rw [if_pos hq, if_pos hq, hq, beq_eq_false_iff_ne.mpr (Ne.symm he)]
      · rw [if_neg hq, if_neg hq]

/-- What is put at a place stands there, and all else stands where it stood. -/
theorem find?_put (t : FileTree) {p : Place} (hp : p ≠ []) (n : FileNode) (q : Place) :
    (t.put p n).find? q = if q = p then some n else t.find? q := by
  unfold find? put
  by_cases hroot : q = []
  · subst hroot
    rw [if_pos rfl, if_pos rfl, if_neg hp.symm]
  · rw [if_neg hroot, if_neg hroot, List.lookup_append, lookup_filter_ne]
    by_cases hq : q = p
    · subst hq
      simp
    · simp [hq, List.lookup_cons, beq_eq_false_iff_ne.mpr hq]

/-- Take away what stands at a place. -/
def erase (t : FileTree) (p : Place) : FileTree :=
  ⟨t.entries.filter (·.1 ≠ p)⟩

/-- Nothing stands at a place after it was taken away, and all else stands where it stood. -/
theorem find?_erase (t : FileTree) {p : Place} (hp : p ≠ []) (q : Place) :
    (t.erase p).find? q = if q = p then none else t.find? q := by
  unfold find? erase
  by_cases hroot : q = []
  · subst hroot
    rw [if_pos rfl, if_pos rfl, if_neg hp.symm]
  · rw [if_neg hroot, if_neg hroot, lookup_filter_ne]

theorem erase_erase (t : FileTree) (p : Place) : (t.erase p).erase p = t.erase p := by
  simp only [erase, List.filter_filter, Bool.and_self]

/-- What is put at a place is all that is taken away from it. -/
theorem erase_put (t : FileTree) (p : Place) (n : FileNode) : (t.put p n).erase p = t.erase p := by
  simp [erase, put, List.filter_append, List.filter_filter]

theorem erase_put_of_ne (t : FileTree) {p q : Place} (h : p ≠ q) (n : FileNode) :
    (t.put p n).erase q = (t.erase q).put p n := by
  have hkept : [(p, n)].filter (·.1 ≠ q) = [(p, n)] :=
    List.filter_cons_of_pos (decide_eq_true h)
  simp only [erase, put, List.filter_append, hkept, List.filter_filter, Bool.and_comm]

/-- What stood at a place does not matter to what is put there. -/
theorem put_erase (t : FileTree) (p : Place) (n : FileNode) : (t.erase p).put p n = t.put p n := by
  simp only [erase, put, List.filter_filter, Bool.and_self]

/-- Take away what stands at a place and everything below it. -/
def eraseAll (t : FileTree) (p : Place) : FileTree :=
  ⟨t.entries.filter fun (q, _) => !(p.isPrefixOf q)⟩

/-- Put a directory at a place, unless one is there. -/
def makeDirectory (t : FileTree) (p : Place) : FileTree :=
  if t.find? p = some .directory then t else t.put p .directory

/-- Put directories at all places that lead to `p`, and at `p`. -/
def makeDirectories (t : FileTree) (p : Place) : FileTree :=
  (List.range p.length).foldl (fun t i => t.makeDirectory (p.take (i + 1))) t

/-- The place that a text of names with slashes between means, empty names left out. -/
def placeOfText (s : String) : Place :=
  ((s.toList.splitOn '/').filter (· ≠ [])).map String.ofList

/-- Put a file, or a directory for `none`, at the place of a text, with the directories above it. -/
def make (t : FileTree) (entry : String × Option (List UInt8)) : FileTree :=
  let p := placeOfText entry.1
  match entry.2 with
  | none => t.makeDirectories p
  | some bytes => (t.makeDirectories p.dropLast).put p (.file bytes)

/-- Several entries put in order. -/
def makeAll (t : FileTree) (entries : List (String × Option (List UInt8))) : FileTree :=
  entries.foldl make t

/-- The name of an entry in a listing: directories end in a slash. -/
def entryName (p : Place) : FileNode → String
  | .directory => "/".intercalate p ++ "/"
  | .file _ => "/".intercalate p

/-- All entries by name, with the bytes of files. -/
def listing (t : FileTree) : List (String × Option (List UInt8)) :=
  t.entries.map fun (p, n) =>
    (entryName p n, match n with
      | .directory => none
      | .file bytes => some bytes)

end FileTree

end TokenKeeper
