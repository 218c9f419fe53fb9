import TokenKeeper.Proofs.Files.Access

/-!
# Moving a file

A file can be moved to any place that a path names, unless a directory stands there
(`rename_eq_ok_iff`). Then the names of the new place lead to it and those of the old one to
nothing, and all other paths lead to what they led to (`Moved`). A file that is moved to where it is
stays as it is, so this cannot fail (`rename_same`).
-/

namespace TokenKeeper.FileTree

variable {t t' : FileTree} {source target : String} {place goal : Place} {bytes : List UInt8}

/-- A file is moved exactly if the new path names a file, no directory stands there, and the old
place is not below it. -/
theorem rename_eq_ok_iff (hsource : t.filePlace? source = some place)
    (hfile : t.find? place = some (.file bytes)) :
    t.rename source target = .ok t' ↔
      ∃ goal, t.filePlace? target = some goal ∧
        (goal = place ∧ t' = t ∨
          goal ≠ place ∧ goal.isPrefixOf place = false ∧ t.find? goal ≠ some .directory ∧
            t' = (t.erase place).put goal (.file bytes)) := by
  obtain ⟨w, hw, hslash, hplace⟩ := filePlace?_eq_some_iff.mp hsource
  have hdots := w.last_ne_dots hplace
  simp only [filePlace?_eq_some_iff]
  unfold rename
  simp only [bind, Except.bind, pure, Except.pure, throw, throwThe, MonadExceptOf.throw, hw, hplace]
  constructor
  · intro h
    split at h
    · cases h
    rename_i v hv
    split at h
    · cases h
    rename_i hnamed
    split at h
    · cases h
    rename_i goal? hgoal
    split at h
    · rename_i goal hsome
      cases hsome
      simp only [hfile, hslash, ne_eq, reduceCtorEq, not_false_eq_true, Bool.false_eq_true,
        false_or, true_and] at h
      split at h
      · cases h
      rename_i hslash'
      split at h
      · cases h
      rename_i hbelow
      refine ⟨goal, ⟨v, hv, Bool.eq_false_iff.mpr hslash', hgoal⟩, ?_⟩
      split at h
      · rename_i hsame
        exact .inl ⟨hsame, (Except.ok.inj h).symm⟩
      rename_i hne
      split at h
      · cases h
      rename_i hdirectory
      exact .inr ⟨hne, Bool.eq_false_iff.mpr fun hinside => hbelow ⟨hinside, hne⟩, hdirectory,
        (Except.ok.inj h).symm⟩
    · cases h
  · rintro ⟨goal, ⟨v, hv, hslash', hgoal⟩, hcases⟩
    have hdots' := v.last_ne_dots hgoal
    rcases hcases with ⟨rfl, rfl⟩ | ⟨hne, hbelow, hdirectory, rfl⟩
    · simp [hv, hgoal, hdots, hdots', hfile, hslash, hslash']
    · simp [hv, hgoal, hdots, hdots', hfile, hslash, hslash', hne, hbelow, hdirectory]

/-- A file that is moved to where it is stays there. -/
theorem rename_same (hsource : t.filePlace? source = some place)
    (htarget : t.filePlace? target = some place) (hfile : t.find? place = some (.file bytes)) :
    t.rename source target = .ok t :=
  (rename_eq_ok_iff hsource hfile).mpr ⟨place, htarget, .inl ⟨rfl, rfl⟩⟩

/-- A tree in which a file has been moved from one place to another. If the places are one, nothing
has changed. -/
structure Moved (t t' : FileTree) (place goal : Place) (bytes : List UInt8) : Prop where
  places : ∀ q, t'.find? q =
    if q = goal then some (.file bytes) else if q = place then none else t.find? q
  paths : ∀ path, t'.nodeAt? path =
    if t.filePlace? path = some goal then some (.file bytes)
    else if t.filePlace? path = some place then none
    else t.nodeAt? path

/-- **What a move does.** -/
theorem moved_of_rename (hsource : t.filePlace? source = some place)
    (hfile : t.find? place = some (.file bytes)) (h : t.rename source target = .ok t') :
    ∃ goal, t.filePlace? target = some goal ∧ t.Moved t' place goal bytes := by
  obtain ⟨goal, hgoal, hcases⟩ := (rename_eq_ok_iff hsource hfile).mp h
  have hplaces : ∀ q, t'.find? q =
      if q = goal then some (.file bytes) else if q = place then none else t.find? q := by
    intro q
    rcases hcases with ⟨rfl, rfl⟩ | ⟨-, -, -, rfl⟩
    · by_cases hq : q = goal
      · rw [if_pos hq, hq, hfile]
      · rw [if_neg hq, if_neg hq]
    · rw [find?_put _ (ne_nil_of_filePlace? hgoal), find?_erase _ (ne_nil_of_filePlace? hsource)]
  -- neither of the two places is or was a directory
  have hdirectories : ∀ q, t'.find? q = some .directory ↔ t.find? q = some .directory := by
    intro q
    have hgoalNode : t.find? goal ≠ some .directory := by
      rcases hcases with ⟨rfl, -⟩ | ⟨-, -, hdirectory, -⟩
      · simp [hfile]
      · exact hdirectory
    rw [hplaces]
    split
    · rename_i hq
      simp [hq, hgoalNode]
    · split
      · rename_i hq
        simp [hq, hfile]
      · rfl
  refine ⟨goal, hgoal, hplaces, fun path => ?_⟩
  rw [nodeAt?_of_directories hdirectories]
  rcases hpath : t.filePlace? path with - | p
  · simp
  · simp only [hplaces, nodeAt?_of_filePlace? hpath, Option.some.injEq]

end TokenKeeper.FileTree
