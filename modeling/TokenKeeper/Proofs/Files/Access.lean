import TokenKeeper.Files.Access

/-!
# What a path leads to

A path is looked up in two ways: `filePlace?` is the place of the file that it names, and `nodeAt?`
is what stands there. Reading and writing are put in these terms once (`read_eq_ok_iff`,
`writeFile_eq_ok_iff`), and proofs about files go on from there.

A walk goes through directories and nothing else. So if a file is put where no directory stands,
every path leads where it led before, and what it leads to has changed only for the names of that
file (`nodeAt?_put`).
-/

namespace TokenKeeper.FileTree

variable {t t' : FileTree} {path : String} {place : Place} {bytes : List UInt8}

/-! ## Walks -/

theorem toOption_bind {ε α β : Type} (x : Except ε α) (f : α → Except ε β) :
    (x >>= f).toOption = x.toOption.bind fun a => (f a).toOption := by
  rcases x with e | a
  · rfl
  · rfl

theorem toOption_enter (t : FileTree) (directory : Place) (name : String) :
    (t.enter directory name).toOption =
      if name = "." then some directory
      else if name = ".." then some directory.dropLast
      else if (Utf8.ofText name).length > maxName then none
      else if t.find? (directory ++ [name]) = some .directory then some (directory ++ [name])
      else none := by
  unfold enter
  split
  · rfl
  split
  · rfl
  split
  · rfl
  split <;> rename_i h <;> rw [h] <;> rfl

/-- A walk depends on nothing but where directories stand. -/
theorem toOption_walk_congr
    (h : ∀ p, t'.find? p = some .directory ↔ t.find? p = some .directory) (path : String) :
    (t'.walk path).toOption = (t.walk path).toOption := by
  have hnames : ∀ (names : List String) (directory : Place),
      (names.foldlM t'.enter directory).toOption = (names.foldlM t.enter directory).toOption := by
    intro names
    induction names with
    | nil => exact fun _ => rfl
    | cons name rest ih =>
      intro directory
      simp only [List.foldlM_cons, toOption_bind, toOption_enter, h, ih]
  unfold walk
  split
  · rfl
  split
  · rfl
  split
  · rfl
  · simp only [toOption_bind, hnames]

/-! ## Names of files -/

/-- The place of the file that a path names, whether or not one is there. A path with dots or a
slash at its end names no file. -/
def filePlace? (t : FileTree) (path : String) : Option Place :=
  match (t.walk path).toOption with
  | none => none
  | some w => if w.slash then none else w.target.toOption.join

/-- What a path leads to. With a slash at its end that is no file. -/
def nodeAt? (t : FileTree) (path : String) : Option FileNode :=
  match (t.walk path).toOption with
  | none => none
  | some w =>
    match w.target.toOption with
    | none => none
    | some none => some .directory
    | some (some place) =>
      match t.find? place with
      | some (.file bytes) => if w.slash then none else some (.file bytes)
      | node? => node?

/-- A walk that ends in dots has no place to end at. -/
theorem Walk.last_ne_dots {w : Walk} (h : w.target = .ok (some place)) : w.last ≠ .dots := by
  intro hdots
  rw [target, hdots] at h
  cases h

theorem Walk.ne_nil {w : Walk} (h : w.target = .ok (some place)) : place ≠ [] := by
  rw [target] at h
  split at h
  · split at h
    · cases h
    · obtain rfl := Option.some.inj (Except.ok.inj h)
      simp
  · cases h

/-- The walk to a file. -/
theorem filePlace?_eq_some_iff :
    t.filePlace? path = some place ↔
      ∃ w, t.walk path = .ok w ∧ w.slash = false ∧ w.target = .ok (some place) := by
  unfold filePlace?
  rcases hw : t.walk path with fault | w
  · simp [Except.toOption]
  · rcases ht : w.target with fault | (_ | q) <;> rcases hs : w.slash with _ | _ <;>
      simp [Except.toOption, hs, ht]

theorem ne_nil_of_filePlace? (h : t.filePlace? path = some place) : place ≠ [] := by
  obtain ⟨w, -, -, hw⟩ := filePlace?_eq_some_iff.mp h
  exact w.ne_nil hw

/-- In trees with the same directories a path names the same file, and what it leads to is what
stands there. A path that names no file leads to the same in both. -/
theorem nodeAt?_of_directories
    (h : ∀ p, t'.find? p = some .directory ↔ t.find? p = some .directory) (path : String) :
    t'.nodeAt? path =
      match t.filePlace? path with
      | some place => t'.find? place
      | none => t.nodeAt? path := by
  unfold nodeAt? filePlace?
  rw [toOption_walk_congr h]
  rcases t.walk path with fault | w
  · rfl
  · rcases htarget : w.target with fault | (_ | p)
    · rcases hs : w.slash with _ | _ <;> simp [Except.toOption, htarget, hs]
    · rcases hs : w.slash with _ | _ <;> simp [Except.toOption, htarget, hs]
    · -- a directory ends a path with or without a slash, and all else only one without
      have hp := h p
      rcases hs : w.slash with _ | _ <;> rcases hf : t.find? p with _ | (_ | b) <;>
        rcases hf' : t'.find? p with _ | (_ | b') <;> rw [hf, hf'] at hp <;>
        simp [Except.toOption, htarget, hs, hf, hf'] at hp ⊢

/-- A path that names a file leads to what stands there. -/
theorem nodeAt?_of_filePlace? (h : t.filePlace? path = some place) :
    t.nodeAt? path = t.find? place := by
  have hnode := nodeAt?_of_directories (t := t) (fun _ => Iff.rfl) path
  simpa only [h] using hnode

/-! ## Reading and writing -/

/-- Reading a path gives the file that it leads to. -/
theorem read_eq_ok_iff : t.read path = .ok bytes ↔ t.nodeAt? path = some (.file bytes) := by
  unfold read nodeAt?
  simp only [bind, Except.bind, pure, Except.pure, throw, throwThe, MonadExceptOf.throw]
  rcases hw : t.walk path with fault | w
  · simp [Except.toOption]
  · rcases ht : w.target with fault | (_ | q)
    · simp [Except.toOption, ht]
    · simp [Except.toOption, ht]
    · rcases hs : w.slash with _ | _ <;> rcases hf : t.find? q with _ | (_ | b) <;>
        simp [Except.toOption, ht, hs, hf]

/-- Writing a path succeeds exactly if it names a file and no directory stands there. -/
theorem writeFile_eq_ok_iff :
    t.writeFile path bytes = .ok t' ↔
      ∃ place, t.filePlace? path = some place ∧ t.find? place ≠ some .directory ∧
        t' = t.put place (.file bytes) := by
  simp only [filePlace?_eq_some_iff]
  unfold writeFile
  simp only [bind, Except.bind, pure, Except.pure, throw, throwThe, MonadExceptOf.throw]
  constructor
  · intro h
    split at h
    · cases h
    rename_i w hw
    split at h
    · cases h
    rename_i hslash
    split at h
    · cases h
    rename_i place? ht
    split at h
    · cases h
    rename_i place
    split at h
    · cases h
    rename_i hdirectory
    have hs : w.slash = false := by
      have hdots := w.last_ne_dots ht
      simpa [hdots] using hslash
    exact ⟨place, ⟨w, hw, hs, ht⟩, hdirectory, (Except.ok.inj h).symm⟩
  · rintro ⟨place, ⟨w, hw, hs, ht⟩, hdirectory, rfl⟩
    simp [hw, hs, ht, hdirectory]

/-! ## Putting files -/

theorem directory_put_iff (h : t.find? place ≠ some .directory) (hplace : place ≠ [])
    (bytes : List UInt8) (p : Place) :
    (t.put place (.file bytes)).find? p = some .directory ↔ t.find? p = some .directory := by
  rw [find?_put t hplace]
  split
  · rename_i hp
    rw [hp]
    simp [h]
  · rfl

/-- A path names the same file after a file was put where no directory stood. -/
theorem filePlace?_put (h : t.find? place ≠ some .directory) (hplace : place ≠ [])
    (bytes : List UInt8) (path : String) :
    (t.put place (.file bytes)).filePlace? path = t.filePlace? path := by
  unfold filePlace?
  rw [toOption_walk_congr (directory_put_iff h hplace bytes)]

/-- The names of a file that was put lead to it, and all other paths lead to what they led to. -/
theorem nodeAt?_put (h : t.find? place ≠ some .directory) (hplace : place ≠ [])
    (bytes : List UInt8) (path : String) :
    (t.put place (.file bytes)).nodeAt? path =
      if t.filePlace? path = some place then some (.file bytes) else t.nodeAt? path := by
  rw [nodeAt?_of_directories (directory_put_iff h hplace bytes)]
  rcases hpath : t.filePlace? path with - | p
  · simp
  · simp only [find?_put t hplace, nodeAt?_of_filePlace? hpath, Option.some.injEq]

end TokenKeeper.FileTree
