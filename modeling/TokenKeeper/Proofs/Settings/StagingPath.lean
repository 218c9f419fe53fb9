import TokenKeeper.Proofs.Files.Publish
import TokenKeeper.Proofs.Settings.Validation

/-!
# The staging path

Until a token is committed the token file should be what it was. Staging leaves it alone exactly if
the two paths do not name the same file, or the file holds the token already
(`stage_keeps_path_iff`). Where the flags give no staging path it is a longer name in the same
directory, so the files differ (`filePlace?_append_ne`). Where they give one, nothing is checked:
the token file can be its own staging file, and is then written over before the commit
(`stage_writes_over_token_file`).
-/

namespace TokenKeeper

namespace FileTree

variable {t : FileTree} {path : String} {place : Place}

/-- The file that a path names has the last of its names. -/
theorem getLast?_of_filePlace? (h : t.filePlace? path = some place) :
    path.toList.getLast? ≠ some '/' ∧ place.getLast? = (namesOf path).getLast? := by
  obtain ⟨w, hw, hslash, htarget⟩ := filePlace?_eq_some_iff.mp h
  unfold walk at hw
  simp only [bind, Except.bind, pure, Except.pure] at hw
  split at hw
  · cases hw
  split at hw
  · cases hw
  split at hw
  · cases hw
  split at hw
  · cases hw
  split at hw
  · cases hw
    cases htarget
  rename_i name hname
  split at hw
  · cases hw
    cases htarget
  cases hw
  refine ⟨fun hend => ?_, ?_⟩
  · simp [hend] at hslash
  · simp only [Walk.target] at htarget
    split at htarget
    · cases htarget
    · obtain rfl := Option.some.inj (Except.ok.inj htarget)
      rw [hname, List.getLast?_concat]

/-- The last name of a path without a slash at its end is what follows the last slash. -/
theorem getLast?_namesOf_append {front leaf : List Char}
    (hfront : front = [] ∨ ∃ s, front = s ++ ['/']) (hleaf : leaf ≠ []) (hslash : '/' ∉ leaf) :
    (namesOf (String.ofList (front ++ leaf))).getLast? = some (String.ofList leaf) := by
  have hlast : leaf.splitOn '/' = [leaf] := List.splitOn_eq_singleton hslash
  have hpieces : ∃ pieces, (front ++ leaf).splitOn '/' = pieces ++ [leaf] := by
    rcases hfront with rfl | ⟨s, rfl⟩
    · exact ⟨[], hlast⟩
    · refine ⟨s.splitOn '/', ?_⟩
      rw [List.append_assoc, List.singleton_append, List.splitOn_append_cons_self, hlast]
  obtain ⟨pieces, hpieces⟩ := hpieces
  rw [namesOf, placeOfText, String.toList_ofList, hpieces, List.filter_append,
    List.filter_cons_of_pos (by simpa using hleaf), List.filter_nil, List.map_append,
    List.map_singleton, List.getLast?_concat]

/-- Text without a slash at its end is what stands up to its last slash, and what follows. -/
theorem exists_eq_append_leaf {s : List Char} (hne : s ≠ []) (hend : s.getLast? ≠ some '/') :
    ∃ front leaf, s = front ++ leaf ∧ (front = [] ∨ ∃ s, front = s ++ ['/']) ∧ leaf ≠ [] ∧
      '/' ∉ leaf := by
  by_cases hslash : '/' ∈ s
  · obtain ⟨behind, before, hs, hbehind⟩ :=
      List.eq_append_cons_of_mem (List.mem_reverse.mpr hslash)
    have hsplit : s = before.reverse ++ ['/'] ++ behind.reverse := by
      rw [← List.reverse_reverse s, hs]
      simp
    refine ⟨before.reverse ++ ['/'], behind.reverse, hsplit, .inr ⟨_, rfl⟩, fun hnil => hend ?_,
      fun h => hbehind (List.mem_reverse.mp h)⟩
    rw [hsplit, hnil, List.append_nil, List.getLast?_concat]
  · exact ⟨[], s, rfl, .inl rfl, hne, hslash⟩

/-- With a suffix a path names another file. -/
theorem filePlace?_append_ne {suffix : String} (hne : suffix ≠ "") (hslash : '/' ∉ suffix.toList)
    (h : t.filePlace? (path ++ suffix) = some place) : t.filePlace? path ≠ some place := by
  intro hpath
  obtain ⟨hend, hlast⟩ := getLast?_of_filePlace? hpath
  obtain ⟨-, hlastSuffix⟩ := getLast?_of_filePlace? h
  have hnonempty : path.toList ≠ [] := by
    intro hnil
    rw [namesOf, placeOfText, hnil] at hlast
    exact ne_nil_of_filePlace? hpath (List.getLast?_eq_none_iff.mp hlast)
  obtain ⟨front, leaf, hsplit, hfront, hleaf, hnoSlash⟩ := exists_eq_append_leaf hnonempty hend
  have hname := getLast?_namesOf_append hfront hleaf hnoSlash
  have hnoSlashSuffix : '/' ∉ leaf ++ suffix.toList := by simp [hnoSlash, hslash]
  have hnameSuffix := getLast?_namesOf_append hfront
    (List.append_ne_nil_of_left_ne_nil hleaf _) hnoSlashSuffix
  rw [← hsplit, String.ofList_toList, ← hlast] at hname
  rw [← List.append_assoc, ← hsplit, ← String.toList_append, String.ofList_toList, ← hlastSuffix,
    hname] at hnameSuffix
  have hsame : leaf = leaf ++ suffix.toList := by
    simpa using congrArg String.toList (Option.some.inj hnameSuffix)
  exact hne (String.toList_inj.mp (List.self_eq_append_right.mp hsame))

end FileTree

namespace Settings

/-- What settings say about the token file is what the flags say. -/
theorem file_of_ofFlags {flags : Flags} {settings : Settings} (h : ofFlags flags = .ok settings) :
    settings.file = fileOfFlags flags :=
  (of_ofFlags_eq_ok h).2.1

end Settings

namespace TokenFile

variable {f : TokenFile} {t : Token} {tree staged : FileTree}

/-- Staging keeps what a path leads to, unless the path names the same file as the staging path and
that does not hold the token yet. -/
theorem nodeAt?_stage_eq_iff (h : f.stage t tree = .ok staged) (path : String) :
    staged.nodeAt? path = tree.nodeAt? path ↔
      (tree.filePlace? path = tree.filePlace? f.stagingPath →
        tree.nodeAt? path = some (.file (contents t))) := by
  obtain ⟨place, hstaged⟩ := exists_staged h
  rw [hstaged.paths, hstaged.names]
  split
  · rename_i hpath
    simp only [hpath, true_imp_iff]
    exact eq_comm
  · rename_i hpath
    simp only [hpath, false_imp_iff]

/-- **When staging leaves the token file alone.** Take settings that were made of flags, with a
token file. A token that is staged leaves what is at the path of the file as it was, be it a file, a
directory or nothing, exactly if the staging path does not name the same file or the file holds the
token already. If the flags give no staging path, the two never name the same file. -/
theorem stage_keeps_path_iff {flags : Flags} {settings : Settings}
    (hflags : Settings.ofFlags flags = .ok settings) (hfile : settings.file = some f)
    (h : f.stage t tree = .ok staged) :
    (staged.nodeAt? f.path = tree.nodeAt? f.path ↔
      (tree.filePlace? f.path = tree.filePlace? f.stagingPath →
        tree.nodeAt? f.path = some (.file (contents t)))) ∧
    (Settings.unlessEmpty flags.stagingFile = none →
      staged.nodeAt? f.path = tree.nodeAt? f.path) := by
  have hiff := nodeAt?_stage_eq_iff h f.path
  refine ⟨hiff, fun hnone => hiff.mpr fun hsame => ?_⟩
  rw [Settings.file_of_ofFlags hflags, Settings.fileOfFlags] at hfile
  obtain ⟨path, -, rfl⟩ := Option.map_eq_some_iff.mp hfile
  obtain ⟨place, hstaged⟩ := exists_staged h
  have hnames := hstaged.names
  rw [ofPath, hnone] at hsame hnames
  rw [hnames] at hsame
  exact absurd hsame (FileTree.filePlace?_append_ne (by decide) (by decide) hnames)

/-- Flags that give one path for both are accepted, and then staging replaces the old token. -/
theorem stage_writes_over_token_file :
    let flags : Flags :=
      { issuerUrl := "https://i.example", file := some "token", stagingFile := some "token" }
    let tree : FileTree := ⟨[(["token"], .file (Utf8.ofText "old"))]⟩
    ∃ settings f staged, Settings.ofFlags flags = .ok settings ∧ settings.file = some f ∧
      f.stage { accessToken := "new" } tree = .ok staged ∧
      tree.read f.path = .ok (Utf8.ofText "old") ∧ staged.read f.path = .ok (Utf8.ofText "new") ∧
      staged.nodeAt? f.path ≠ tree.nodeAt? f.path := by
  intro flags tree
  have hflags : Settings.ofFlags flags =
      .ok
        { account := Settings.accountOfFlags flags, scopes := [], margin := .seconds 300
          file := some ⟨"token", "token"⟩, backend := none
          listen := "0.0.0.0:8080", listenInternal := "0.0.0.0:8081"
          logLevel := .info, logFormat := .logfmt, name := "token-refresher" } := by
    decide +kernel
  have hstage : (⟨"token", "token"⟩ : TokenFile).stage { accessToken := "new" } tree =
      .ok ⟨[(["token"], .file (Utf8.ofText "new"))]⟩ := by
    decide +kernel
  refine ⟨_, _, _, hflags, rfl, hstage, by decide +kernel, by decide +kernel, fun hsame => ?_⟩
  have hkept := (stage_keeps_path_iff hflags rfl hstage).1.mp hsame rfl
  exact absurd hkept (by decide +kernel)

end TokenFile

end TokenKeeper
