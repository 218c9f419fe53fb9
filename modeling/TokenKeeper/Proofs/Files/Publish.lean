import Mathlib.Data.List.Basic
import TokenKeeper.Files.TokenFile
import TokenKeeper.Proofs.Files.Rename

/-!
# Publishing to the token file

A publish has two steps that can fail. What the first one does is said by `stage_eq_ok_iff`: it puts
the token at the staging path and touches nothing else. The second one moves the file or does
nothing. So a publish that fails has changed one file at most, and that one holds the new token
(`publish_eq_error`). After one that succeeds the token file holds the new token and the staging
path leads to nothing, unless both name the same file (`exists_moved`). Either way the token file
holds what was published last (`nodeAt?_path_publish`).
-/

namespace TokenKeeper.TokenFile

variable {f : TokenFile} {t : Token} {tree after : FileTree} {e : Error}

/-! ## Staging -/

/-- A token is staged exactly if the staging path names a file and no directory stands there. -/
theorem stage_eq_ok_iff :
    f.stage t tree = .ok after ↔
      ∃ place, tree.filePlace? f.stagingPath = some place ∧
        tree.find? place ≠ some .directory ∧ after = tree.put place (.file (contents t)) := by
  rw [← FileTree.writeFile_eq_ok_iff, stage, mapError_eq_ok_iff]

/-- A tree in which a token has been staged at a place: it differs from the one before by the file
that holds the token, whether one looks at places or goes by paths. -/
structure Staged (f : TokenFile) (t : Token) (tree after : FileTree) (place : Place) : Prop where
  names : tree.filePlace? f.stagingPath = some place
  places : ∀ q, after.find? q =
    if q = place then some (.file (contents t)) else tree.find? q
  paths : ∀ path, after.nodeAt? path =
    if tree.filePlace? path = some place then some (.file (contents t)) else tree.nodeAt? path

theorem exists_staged (h : f.stage t tree = .ok after) : ∃ place, f.Staged t tree after place := by
  obtain ⟨place, hnames, hdirectory, rfl⟩ := stage_eq_ok_iff.mp h
  have hplace := FileTree.ne_nil_of_filePlace? hnames
  exact ⟨place, hnames, FileTree.find?_put tree hplace _, FileTree.nodeAt?_put hdirectory hplace _⟩

/-! ## Failing -/

/-- **The cases of a publish.** It ends in its first step, in its second one, or well. -/
theorem publish_cases (f : TokenFile) (t : Token) (tree : FileTree) :
    (∃ e, f.stage t tree = .error e ∧ f.publish t tree = (.error e, tree)) ∨
    (∃ e staged, f.stage t tree = .ok staged ∧ f.commit staged = .error e ∧
      f.publish t tree = (.error e, staged)) ∨
    (∃ staged done, f.stage t tree = .ok staged ∧ f.commit staged = .ok done ∧
      f.publish t tree = (.ok (), done)) := by
  rcases hstage : f.stage t tree with e | staged
  · exact .inl ⟨e, rfl, by simp only [publish, hstage]⟩
  · refine .inr ?_
    rcases hcommit : f.commit staged with e | done
    · exact .inl ⟨e, staged, rfl, hcommit, by simp only [publish, hstage, hcommit]⟩
    · exact .inr ⟨staged, done, rfl, hcommit, by simp only [publish, hstage, hcommit]⟩

/-- **A failed publish is harmless.** If the token could not be staged, the error names the staging
path and the tree is as before. If it could not be moved, the error names the path of the token
file; then the file at the staging path holds the token, and nothing else has changed, neither at
any place nor for anybody who goes by a path. -/
theorem publish_eq_error (h : f.publish t tree = (.error e, after)) :
    (∃ fault, e = .publish f.stagingPath fault ∧ f.stage t tree = .error e ∧ after = tree) ∨
      ∃ fault place, e = .publish f.path fault ∧ f.stage t tree = .ok after ∧
        f.commit after = .error e ∧
        tree.filePlace? f.stagingPath = some place ∧
        after.read f.stagingPath = .ok (contents t) ∧
        (∀ q, after.find? q = if q = place then some (.file (contents t)) else tree.find? q) ∧
        ∀ path, after.nodeAt? path =
          if tree.filePlace? path = some place then some (.file (contents t))
          else tree.nodeAt? path := by
  rcases f.publish_cases t tree with ⟨e', hstage, hp⟩ | ⟨e', staged, hstage, hcommit, hp⟩ |
    ⟨staged, done, -, -, hp⟩ <;> rw [hp] at h <;> cases h
  · obtain ⟨fault, rfl⟩ := exists_of_stage_eq_error hstage
    exact .inl ⟨fault, rfl, hstage, rfl⟩
  · obtain ⟨fault, rfl⟩ := exists_of_commit_eq_error hcommit
    obtain ⟨place, hstaged⟩ := exists_staged hstage
    refine .inr ⟨fault, place, rfl, hstage, hcommit, hstaged.names, ?_, hstaged.places,
      hstaged.paths⟩
    rw [FileTree.read_eq_ok_iff, hstaged.paths, if_pos hstaged.names]

/-- Where a directory has the name of the token file, the token stays at the staging path and the
directory stays what it is, with the file in it. -/
theorem publish_onto_directory_eq_error :
    let tree : FileTree := ⟨[(["token"], .directory), (["token", "a"], .file [1])]⟩
    ∃ after,
      (ofPath "token" none).publish { accessToken := "x" } tree =
        (.error (.publish "token" (.kernel .isDirectory)), after) ∧
      after.read "token.tmp" = .ok [0x78] ∧ after.nodeAt? "token" = some .directory ∧
      after.nodeAt? "token/a" = some (.file [1]) := by
  intro tree
  have hfails : (ofPath "token" none).publish { accessToken := "x" } tree =
      (.error (.publish "token" (.kernel .isDirectory)),
        tree.put ["token.tmp"] (.file [0x78])) := by
    decide +kernel
  refine ⟨_, hfails, ?_⟩
  rcases publish_eq_error hfails with ⟨fault, hpath, -⟩ |
    ⟨-, place, -, -, -, hplace, hread, -, hpaths⟩
  · exact absurd (Error.publish.inj hpath).1 (by decide)
  · have hstaging : tree.filePlace? "token.tmp" = some ["token.tmp"] := by decide +kernel
    obtain rfl : ["token.tmp"] = place := Option.some.inj (hstaging.symm.trans hplace)
    refine ⟨hread, ?_, ?_⟩
    · rw [hpaths]
      decide +kernel
    · rw [hpaths]
      decide +kernel

/-! ## Succeeding -/

/-- A tree after a publish that succeeded: the new token has been moved from the staging path to the
path of the token file, and all else is as it was. -/
theorem exists_moved (h : f.publish t tree = (.ok (), after)) :
    ∃ place goal, tree.filePlace? f.stagingPath = some place ∧ tree.filePlace? f.path = some goal ∧
      tree.Moved after place goal (contents t) := by
  rcases f.publish_cases t tree with ⟨e, -, hp⟩ | ⟨e, staged, -, -, hp⟩ |
    ⟨staged, done, hstage, hcommit, hp⟩ <;> rw [hp] at h <;> cases h
  obtain ⟨place, hplace, hdirectory, rfl⟩ := stage_eq_ok_iff.mp hstage
  have hne := FileTree.ne_nil_of_filePlace? hplace
  have hnames := FileTree.filePlace?_put hdirectory hne (contents t)
  have hrename : (tree.put place (.file (contents t))).rename f.stagingPath f.path = .ok after :=
    mapError_eq_ok_iff.mp hcommit
  obtain ⟨goal, hgoal, hmoved⟩ := FileTree.moved_of_rename ((hnames _).trans hplace)
    (by rw [FileTree.find?_put _ hne, if_pos rfl]) hrename
  rw [hnames] at hgoal
  refine ⟨place, goal, hplace, hgoal, fun q => ?_, fun path => ?_⟩
  · rw [hmoved.places, FileTree.find?_put _ hne]
    by_cases hq : q = place
    · rw [if_pos hq, if_pos hq]
    · simp only [if_neg hq]
  · rw [hmoved.paths, hnames, FileTree.nodeAt?_put hdirectory hne]
    by_cases hpath : tree.filePlace? path = some place
    · rw [if_pos hpath, if_pos hpath]
    · simp only [if_neg hpath]

/-- **The token file holds what was published last.** A publish puts the token there or leaves what
is there as it was. -/
theorem nodeAt?_path_publish (f : TokenFile) (t : Token) (tree : FileTree) :
    (f.publish t tree).2.nodeAt? f.path =
      match (f.publish t tree).1 with
      | .ok () => some (.file (contents t))
      | .error _ => tree.nodeAt? f.path := by
  rcases f.publish_cases t tree with ⟨e, -, hp⟩ | ⟨e, staged, hstage, hcommit, hp⟩ |
    ⟨staged, done, -, -, hp⟩
  · rw [hp]
  · obtain ⟨place, hstaged⟩ := exists_staged hstage
    simp only [hp]
    rw [hstaged.paths, if_neg]
    -- what has been staged could be moved to the place where it is
    intro hsame
    obtain ⟨place', hplace, hdirectory, rfl⟩ := stage_eq_ok_iff.mp hstage
    obtain rfl : place = place' := Option.some.inj (hstaged.names.symm.trans hplace)
    have hnames := FileTree.filePlace?_put hdirectory (FileTree.ne_nil_of_filePlace? hplace)
      (contents t)
    have hfile : (tree.put place (.file (contents t))).find? place = some (.file (contents t)) := by
      rw [hstaged.places, if_pos rfl]
    rw [commit, FileTree.rename_same ((hnames _).trans hplace) ((hnames _).trans hsame) hfile]
      at hcommit
    cases hcommit
  · obtain ⟨place, goal, -, hgoal, hmoved⟩ := exists_moved hp
    simp only [hp]
    rw [hmoved.paths, if_pos hgoal]

end TokenKeeper.TokenFile
