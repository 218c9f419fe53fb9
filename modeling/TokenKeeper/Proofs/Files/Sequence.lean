import TokenKeeper.Proofs.Files.Publish

/-!
# Publishes one after the other

A publish succeeds exactly if both paths name a file and no directory is in the way. Then the tree
is the one before, with the staging file taken away and the token put in the token file
(`publish_eq_ok_iff`). So nothing is left of the token that was there before, whatever stood at the
staging path is gone, and all else is as it was (`Published`). Nor does it matter how often the same
token is published: the next publish succeeds too and changes nothing (`publish_published`).

What holds after one publish holds after many: the token file has the token of the last one that
succeeded (`token_file_holds_last_published`).
-/

namespace TokenKeeper

namespace FileTree

variable {t : FileTree} {place goal : Place}

/-- Moving a file of one content a second time changes nothing. -/
theorem put_erase_put_erase (t : FileTree) (place goal : Place) (n : FileNode) :
    (((t.erase place).put goal n).erase place).put goal n = (t.erase place).put goal n := by
  by_cases hgoal : goal = place
  · rw [hgoal, erase_put, put_erase, put_erase]
  · rw [erase_put_of_ne _ hgoal, erase_erase, ← put_erase, erase_put, put_erase]

/-- Where no directory stands at two places, none comes or goes if a file is moved from one to the
other. -/
theorem directory_put_erase_iff (hplace : t.find? place ≠ some .directory) (hne : place ≠ [])
    (hgoal : t.find? goal ≠ some .directory) (hne' : goal ≠ []) (bytes : List UInt8) (q : Place) :
    ((t.erase place).put goal (.file bytes)).find? q = some .directory ↔
      t.find? q = some .directory := by
  rw [find?_put _ hne', find?_erase _ hne]
  split
  · rename_i hq
    simp [hq, hgoal]
  · split
    · rename_i hq
      simp [hq, hplace]
    · rfl

end FileTree

namespace TokenFile

variable {f : TokenFile} {t : Token} {tree after : FileTree} {place : Place}

/-! ## When a publish succeeds -/

/-- A publish succeeds if both of its steps do. -/
theorem publish_eq_ok_iff_steps :
    f.publish t tree = (.ok (), after) ↔
      ∃ staged, f.stage t tree = .ok staged ∧ f.commit staged = .ok after := by
  rcases f.publish_cases t tree with ⟨e, hstage, hp⟩ | ⟨e, staged, hstage, hcommit, hp⟩ |
    ⟨staged, done, hstage, hcommit, hp⟩
  · simp [hp, hstage]
  · simp [hp, hstage, hcommit]
  · simp [hp, hstage, hcommit]

/-- When what has been staged at a place is committed, and what comes of it. -/
theorem commit_put_eq_ok_iff (hplace : tree.filePlace? f.stagingPath = some place)
    (hdirectory : tree.find? place ≠ some .directory) (bytes : List UInt8) :
    f.commit (tree.put place (.file bytes)) = .ok after ↔
      ∃ goal, tree.filePlace? f.path = some goal ∧ tree.find? goal ≠ some .directory ∧
        (goal = place ∨ goal.isPrefixOf place = false) ∧
        after = (tree.erase place).put goal (.file bytes) := by
  have hne := FileTree.ne_nil_of_filePlace? hplace
  have hnames := FileTree.filePlace?_put hdirectory hne bytes
  have hfile : (tree.put place (.file bytes)).find? place = some (.file bytes) := by
    rw [FileTree.find?_put _ hne, if_pos rfl]
  rw [commit, mapError_eq_ok_iff, FileTree.rename_eq_ok_iff ((hnames _).trans hplace) hfile]
  refine exists_congr fun goal => ?_
  rw [hnames]
  refine and_congr_right fun _ => ?_
  by_cases hgoal : goal = place
  · simp [hgoal, hdirectory, FileTree.put_erase]
  · simp [hgoal, FileTree.find?_put _ hne, FileTree.erase_put, and_left_comm]

/-- **When a publish succeeds**, and what comes of it. -/
theorem publish_eq_ok_iff :
    f.publish t tree = (.ok (), after) ↔
      ∃ place goal, tree.filePlace? f.stagingPath = some place ∧
        tree.filePlace? f.path = some goal ∧ tree.find? place ≠ some .directory ∧
        tree.find? goal ≠ some .directory ∧ (goal = place ∨ goal.isPrefixOf place = false) ∧
        after = (tree.erase place).put goal (.file (contents t)) := by
  rw [publish_eq_ok_iff_steps]
  constructor
  · intro h
    obtain ⟨staged, hstage, hcommit⟩ := h
    obtain ⟨place, hplace, hdirectory, rfl⟩ := stage_eq_ok_iff.mp hstage
    obtain ⟨goal, hgoal, hfree, hbelow, hafter⟩ :=
      (commit_put_eq_ok_iff hplace hdirectory _).mp hcommit
    exact ⟨place, goal, hplace, hgoal, hdirectory, hfree, hbelow, hafter⟩
  · intro h
    obtain ⟨place, goal, hplace, hgoal, hdirectory, hfree, hbelow, hafter⟩ := h
    exact ⟨_, stage_eq_ok_iff.mpr ⟨place, hplace, hdirectory, rfl⟩,
      (commit_put_eq_ok_iff hplace hdirectory _).mpr ⟨goal, hgoal, hfree, hbelow, hafter⟩⟩

/-- **The same token again.** Publishing a token a second time succeeds and leaves the tree as it
is. -/
theorem publish_published (h : f.publish t tree = (.ok (), after)) :
    f.publish t after = (.ok (), after) := by
  obtain ⟨place, goal, hplace, hgoal, hdirectory, hfree, hbelow, rfl⟩ := publish_eq_ok_iff.mp h
  have hsame := FileTree.directory_put_erase_iff hdirectory (FileTree.ne_nil_of_filePlace? hplace)
    hfree (FileTree.ne_nil_of_filePlace? hgoal) (contents t)
  -- with the directories the same, the paths name what they named and nothing is in the way
  have hnames : ∀ path, ((tree.erase place).put goal (.file (contents t))).filePlace? path =
      tree.filePlace? path := by
    intro path
    rw [FileTree.filePlace?, FileTree.filePlace?, FileTree.toOption_walk_congr hsame]
  refine publish_eq_ok_iff.mpr ⟨place, goal, ?_, ?_, ?_, ?_, hbelow, ?_⟩
  · rw [hnames, hplace]
  · rw [hnames, hgoal]
  · exact fun h => hdirectory ((hsame place).mp h)
  · exact fun h => hfree ((hsame goal).mp h)
  · rw [FileTree.put_erase_put_erase]

/-! ## What is in the tree afterwards -/

/-- A tree in which a token has been published: the token file holds the token and nothing else,
there is nothing at the staging path unless that names the token file too, and whatever has another
place or another path is what it was. -/
structure Published (f : TokenFile) (t : Token) (tree after : FileTree) : Prop where
  holds : after.read f.path = .ok (contents t)
  staging : tree.filePlace? f.stagingPath ≠ tree.filePlace? f.path →
    after.nodeAt? f.stagingPath = none
  places : ∀ q, tree.filePlace? f.stagingPath ≠ some q → tree.filePlace? f.path ≠ some q →
    after.find? q = tree.find? q
  paths : ∀ path, tree.filePlace? path ≠ tree.filePlace? f.stagingPath →
    tree.filePlace? path ≠ tree.filePlace? f.path → after.nodeAt? path = tree.nodeAt? path

theorem published_of_publish (h : f.publish t tree = (.ok (), after)) :
    f.Published t tree after := by
  obtain ⟨place, goal, hplace, hgoal, hmoved⟩ := exists_moved h
  constructor
  case holds => rw [FileTree.read_eq_ok_iff, hmoved.paths, if_pos hgoal]
  case staging =>
    intro hne
    rw [hgoal] at hne
    rw [hmoved.paths, if_neg hne, if_pos hplace]
  case places =>
    intro q hstaging hpath
    rw [hplace, Ne, Option.some.injEq] at hstaging
    rw [hgoal, Ne, Option.some.injEq] at hpath
    rw [hmoved.places, if_neg (Ne.symm hpath), if_neg (Ne.symm hstaging)]
  case paths =>
    intro path hstaging hpath
    rw [hplace] at hstaging
    rw [hgoal] at hpath
    rw [hmoved.paths, if_neg hpath, if_neg hstaging]

/-! ## Many publishes -/

/-- Publish tokens one after the other. -/
def publishAll (f : TokenFile) (tree : FileTree) : List Token → List (Except Error Unit) × FileTree
  | [] => ([], tree)
  | t :: rest =>
    let (result, tree) := f.publish t tree
    let (results, tree) := f.publishAll tree rest
    (result :: results, tree)

/-- The last of some tokens whose publish succeeded, given what came of each publish. -/
def lastPublished? (ts : List Token) (results : List (Except Error Unit)) : Option Token :=
  ((ts.zip results).filter (·.2.isOk)).getLast?.map (·.1)

theorem publishAll_cons (f : TokenFile) (t : Token) (ts : List Token) (tree : FileTree) :
    f.publishAll tree (t :: ts) =
      ((f.publish t tree).1 :: (f.publishAll (f.publish t tree).2 ts).1,
        (f.publishAll (f.publish t tree).2 ts).2) := by
  rw [publishAll]

/-- A publish is the last that succeeded if it succeeds and no later one does. -/
theorem lastPublished?_cons (t : Token) (ts : List Token) (result : Except Error Unit)
    (results : List (Except Error Unit)) :
    lastPublished? (t :: ts) (result :: results) =
      (lastPublished? ts results).or (if result.isOk then some t else none) := by
  rw [lastPublished?, lastPublished?, List.zip_cons_cons, List.filter_cons]
  by_cases hok : result.isOk = true
  · rw [if_pos hok, if_pos hok, List.getLast?_cons]
    generalize (List.filter _ _).getLast? = last
    rcases last with - | last
    · rfl
    · rfl
  · rw [if_neg hok, if_neg hok, Option.or_none]

/-- After many publishes the token file holds the token of the last one that succeeded, or what it
held before if none did. -/
theorem nodeAt?_path_publishAll (f : TokenFile) (ts : List Token) (tree : FileTree) :
    (f.publishAll tree ts).2.nodeAt? f.path =
      match lastPublished? ts (f.publishAll tree ts).1 with
      | some t => some (.file (contents t))
      | none => tree.nodeAt? f.path := by
  induction ts generalizing tree with
  | nil => rfl
  | cons t ts ih =>
    rw [publishAll_cons, lastPublished?_cons]
    dsimp only
    rw [ih]
    rcases lastPublished? ts (f.publishAll (f.publish t tree).2 ts).1 with - | last
    · rw [nodeAt?_path_publish]
      rcases (f.publish t tree).1 with e | -
      · rfl
      · rfl
    · rfl

/-- **A successful publish.** Take any token file and any tree. If a token is published and that
succeeds, the token file holds exactly its bytes, there is no file at the staging path unless both
paths name one file, and every other entry of the tree is as it was, by place and by path; and to
publish the token again succeeds and leaves the very same tree. Whatever tokens are published one
after the other, the token file holds in the end the last one whose publish succeeded, and if none
did, what it held before. -/
theorem token_file_holds_last_published (f : TokenFile) (tree : FileTree) :
    (∀ t after, f.publish t tree = (.ok (), after) →
      f.Published t tree after ∧ f.publish t after = (.ok (), after)) ∧
    ∀ ts results after, f.publishAll tree ts = (results, after) →
      (∀ t, lastPublished? ts results = some t → after.read f.path = .ok (contents t)) ∧
      (lastPublished? ts results = none → after.nodeAt? f.path = tree.nodeAt? f.path) := by
  constructor
  · intro t after h
    exact ⟨published_of_publish h, publish_published h⟩
  · intro ts results after h
    have hnode := f.nodeAt?_path_publishAll ts tree
    rw [h] at hnode
    dsimp only at hnode
    refine ⟨fun t ht => ?_, fun hnone => ?_⟩
    · rw [FileTree.read_eq_ok_iff, hnode, ht]
    · rw [hnode, hnone]

/-- A token that is shorter than the one before and is published over the remains of a publish that
was cut off, in a directory beside other files. -/
theorem shorter_token_leaves_nothing :
    let f := ofPath "run/token" none
    let tree : FileTree :=
      ⟨[ (["run"], .directory), (["run", "token"], .file (Utf8.ofText "long token")),
        (["run", "token.tmp"], .file (Utf8.ofText "lon")), (["run", "pid"], .file [0x31]) ]⟩
    ∃ after, f.publish { accessToken := "new" } tree = (.ok (), after) ∧
      after.read "run/token" = .ok (Utf8.ofText "new") ∧ after.nodeAt? "run/token.tmp" = none ∧
      after.nodeAt? "run/pid" = some (.file [0x31]) ∧
      f.publish { accessToken := "new" } after = (.ok (), after) ∧
      (f.publishAll tree [{ accessToken := "old" }, { accessToken := "new" }]).2.read "run/token" =
        .ok (Utf8.ofText "new") := by
  intro f tree
  have hpublish : f.publish { accessToken := "new" } tree =
      (.ok (), (tree.erase ["run", "token.tmp"]).put ["run", "token"]
        (.file (Utf8.ofText "new"))) := by
    decide +kernel
  obtain ⟨hone, hmany⟩ := token_file_holds_last_published f tree
  obtain ⟨hpublished, hagain⟩ := hone _ _ hpublish
  refine ⟨_, hpublish, hpublished.holds, hpublished.staging ?_, ?_, hagain, ?_⟩
  · decide +kernel
  · rw [hpublished.paths _ (by decide +kernel) (by decide +kernel)]
    decide +kernel
  · exact (hmany [{ accessToken := "old" }, { accessToken := "new" }] _ _ rfl).1
      { accessToken := "new" } (by decide +kernel)

end TokenFile

end TokenKeeper
