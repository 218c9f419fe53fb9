import Mathlib.Data.Bool.AllAny
import TokenKeeper.Proofs.Text.Percent
import TokenKeeper.Proofs.Text.Pieces
import TokenKeeper.Url.Parser

/-!
# Settled segments

The segments of a URL that has been read are settled: they are made of characters that are neither
escaped nor cut at, and they do not mean another place (`isSettled_of_mem_addSegments`). So reading
them once more gives them back, and a path is the same after it has been written and read
(`rootedPath_append_slash`), where backslashes count as slashes and no drive is looked for.

That escaping never makes a dot segment of a piece that is none rests on the escapes it writes: of
all escapes only `%2E` stands in such a segment, and a point is never escaped.

Of the segments of any URL, drives of files included, at least none ends the path
(`exists_rootedPath_eq_rooted`).
-/

namespace TokenKeeper.Url

/-! ## Characters -/

/-- A character that stays as it is when a path is read. -/
structure IsPathChar (c : Char) : Prop where
  space_lt : 0x20 < c.toNat
  isAscii : c.toNat < 0x80
  escaped : escapedInPath c.toNat.toUInt8 = false
  ne_slash : c ≠ '/'
  ne_backslash : c ≠ '\\'

theorem IsPathChar.ne_question {c : Char} (h : IsPathChar c) : c ≠ '?' := by
  rintro rfl
  exact absurd h.escaped (by decide)

theorem IsPathChar.ne_hash {c : Char} (h : IsPathChar c) : c ≠ '#' := by
  rintro rfl
  exact absurd h.escaped (by decide)

/-- Nothing at or below a space is left unescaped in a path. -/
theorem space_lt_of_escapedInPath {n : Nat} (hn : n < 0x80)
    (h : escapedInPath n.toUInt8 = false) : 0x20 < n := by
  have hall : ∀ n ≤ 0x20, escapedInPath n.toUInt8 = true := by decide
  by_cases hle : n ≤ 0x20
  · rw [hall n hle] at h
    cases h
  · omega

theorem isPathChar_of_mem_escapeAlphabet {c : Char} (h : c ∈ Percent.escapeAlphabet) :
    IsPathChar c := by
  have hall : ∀ c ∈ Percent.escapeAlphabet, 0x20 < c.toNat ∧ c.toNat < 0x80 ∧
      escapedInPath c.toNat.toUInt8 = false ∧ c ≠ '/' ∧ c ≠ '\\' :=
    List.all_iff_forall_prop.mp (by decide)
  obtain ⟨hlt, hascii, hescaped, hslash, hback⟩ := hall c h
  exact ⟨hlt, hascii, hescaped, hslash, hback⟩

/-! ## Escaping a piece -/

theorem toList_escapeChars (escaped : UInt8 → Bool) (s : List Char) :
    (escapeChars escaped s).toList = s.flatMap (Percent.encodeChar escaped) := by
  rw [escapeChars, Percent.toList_encodeText, String.toList_ofList]

/-- Escaping a piece of a path makes characters that stay as they are. -/
theorem isPathChar_of_mem_escapeChars {s : List Char} (hslash : '/' ∉ s) (hback : '\\' ∉ s)
    {c : Char} (h : c ∈ (escapeChars escapedInPath s).toList) : IsPathChar c := by
  rw [toList_escapeChars] at h
  obtain ⟨d, hd, hc⟩ := List.mem_flatMap.mp h
  rcases Percent.mem_encodeChar hc with ⟨rfl, hascii, hescaped⟩ | hc
  · refine ⟨space_lt_of_escapedInPath hascii hescaped, hascii, hescaped, ?_, ?_⟩
    · rintro rfl
      exact hslash hd
    · rintro rfl
      exact hback hd
  · exact isPathChar_of_mem_escapeAlphabet hc

/-- Such characters are not escaped again. -/
theorem escapeChars_of_isPathChar {s : List Char} (h : ∀ c ∈ s, IsPathChar c) :
    escapeChars escapedInPath s = String.ofList s := by
  apply String.toList_inj.mp
  rw [toList_escapeChars, String.toList_ofList]
  induction s with
  | nil => rfl
  | cons c rest ih =>
    have hc := h c List.mem_cons_self
    rw [List.flatMap_cons, ih fun d hd => h d (List.mem_cons_of_mem c hd),
      Percent.encodeChar_of_not_escaped hc.isAscii hc.escaped]
    rfl

/-! ## Dot segments -/

/-- The dot segments in small letters. -/
def dotForms : List (List Char) :=
  [".", "%2e", "..", ".%2e", "%2e.", "%2e%2e"].map String.toList

theorem map_toLower_mem_dotForms_of_isDot {s : List Char} (h : isDot s = true) :
    s.map Char.toLower ∈ dotForms := by
  simp only [isDot, Bool.or_eq_true, beq_iff_eq] at h
  rcases h with h | h <;> rw [h] <;> decide

theorem map_toLower_mem_dotForms_of_isDoubleDot {s : List Char} (h : isDoubleDot s = true) :
    s.map Char.toLower ∈ dotForms := by
  simp only [isDoubleDot, Bool.or_eq_true, beq_iff_eq] at h
  rcases h with ((h | h) | h) | h <;> rw [h] <;> decide

/-- The only escape in a dot segment is that of a point. -/
theorem eq_point_of_mem_dotForms {pre post : List Char} {b : UInt8}
    (h : (pre ++ Percent.escapeText b ++ post).map Char.toLower ∈ dotForms) : b = 0x2E := by
  have hforms : ∀ l ∈ dotForms, ∀ i < l.length, l[i]? = some '%' →
      l[i + 1]? = some '2' ∧ l[i + 2]? = some 'e' := by decide
  have htwo : ∀ n < 16, (Char.ofNat (Percent.hexDigit n).toNat).toLower = '2' → n = 2 := by decide
  have hfourteen : ∀ n < 16, (Char.ofNat (Percent.hexDigit n).toNat).toLower = 'e' → n = 14 := by
    decide
  -- the escape stands at the end of `pre`, so its digits are those of a point
  have hdigits := hforms _ h pre.length (by simp [Percent.escapeText, Percent.escape]) (by
    simp [Percent.escapeText, Percent.escape])
  simp only [Percent.escapeText, Percent.escape, List.map_cons, List.map_nil, List.map_append,
    List.append_assoc, List.getElem?_append_right, List.length_map, Nat.le_add_right,
    Nat.add_sub_cancel_left, List.cons_append, List.getElem?_cons_succ, List.getElem?_cons_zero,
    List.nil_append, Option.some.injEq] at hdigits
  have hb := b.toNat_lt
  have hhigh := htwo _ (by omega) hdigits.1
  have hlow := hfourteen _ (by omega) hdigits.2
  apply UInt8.toNat_inj.mp
  show b.toNat = 46
  omega

/-- Escaping leaves a piece as it is, or puts an escape into it of a byte that has to be escaped. -/
theorem toList_escapeChars_cases (escaped : UInt8 → Bool) (s : List Char) :
    (escapeChars escaped s).toList = s ∨
      ∃ pre b post, (escapeChars escaped s).toList = pre ++ Percent.escapeText b ++ post ∧
        (0x80 ≤ b ∨ escaped b = true) := by
  rw [toList_escapeChars]
  induction s with
  | nil => exact .inl rfl
  | cons c rest ih =>
    rw [List.flatMap_cons]
    rcases Percent.encodeChar_cases escaped c with hc | ⟨b, post, hc, hb⟩
    · rcases ih with hrest | ⟨pre, b, post, hrest, hb⟩
      · exact .inl (by rw [hc, hrest]; rfl)
      · exact .inr ⟨c :: pre, b, post, by rw [hc, hrest]; rfl, hb⟩
    · exact .inr ⟨[], b, post ++ rest.flatMap (Percent.encodeChar escaped),
        by rw [hc]; simp [Percent.escapeText], hb⟩

/-- A piece that escaping makes a dot segment of is left as it is. -/
theorem toList_escapeChars_of_mem_dotForms {s : List Char}
    (h : (escapeChars escapedInPath s).toList.map Char.toLower ∈ dotForms) :
    (escapeChars escapedInPath s).toList = s := by
  rcases toList_escapeChars_cases escapedInPath s with hs | ⟨pre, b, post, hs, hb⟩
  · exact hs
  · rw [hs] at h
    obtain rfl := eq_point_of_mem_dotForms h
    exact absurd hb (by decide)

theorem isDot_escapeChars {s : List Char} (h : isDot s = false) :
    isDot (escapeChars escapedInPath s).toList = false := by
  refine Bool.eq_false_iff.mpr fun hdot => ?_
  rw [toList_escapeChars_of_mem_dotForms (map_toLower_mem_dotForms_of_isDot hdot), h] at hdot
  cases hdot

theorem isDoubleDot_escapeChars {s : List Char} (h : isDoubleDot s = false) :
    isDoubleDot (escapeChars escapedInPath s).toList = false := by
  refine Bool.eq_false_iff.mpr fun hdot => ?_
  rw [toList_escapeChars_of_mem_dotForms (map_toLower_mem_dotForms_of_isDoubleDot hdot), h] at hdot
  cases hdot

/-! ## Settled segments -/

/-- A segment of a URL that has been read. -/
structure IsSettled (s : String) : Prop where
  chars : ∀ c ∈ s.toList, IsPathChar c
  isDot : isDot s.toList = false
  isDoubleDot : isDoubleDot s.toList = false

theorem isSettled_empty : IsSettled "" := by
  refine ⟨fun c hc => ?_, by decide, by decide⟩
  cases hc

theorem IsSettled.slash_not_mem {s : String} (h : IsSettled s) : '/' ∉ s.toList :=
  fun hc => (h.chars '/' hc).ne_slash rfl

/-- Reading a piece that is no dot segment settles it. -/
theorem isSettled_escapeChars {s : List Char} (hslash : '/' ∉ s) (hback : '\\' ∉ s)
    (hdot : Url.isDot s = false) (hdouble : Url.isDoubleDot s = false) :
    IsSettled (escapeChars escapedInPath s) :=
  ⟨fun _ hc => isPathChar_of_mem_escapeChars hslash hback hc, isDot_escapeChars hdot,
    isDoubleDot_escapeChars hdouble⟩

theorem mem_of_mem_shorten {scheme s : String} {segments : List String}
    (h : s ∈ shorten scheme segments) : s ∈ segments := by
  unfold shorten at h
  split at h
  · split at h
    · exact h
    · cases h
  · exact List.dropLast_subset segments h

variable {scheme : String}

/-- What every segment has that reading a piece may leave: an empty one, an escaped piece that is no
dot segment, or a drive of a `file` URL. -/
structure IsLeft (scheme : String) (P : String → Prop) (p : List Char) : Prop where
  empty : P ""
  piece : isDot p = false → isDoubleDot p = false → P (escapeChars escapedInPath p)
  drive : scheme = "file" → isDrive p = true → P (String.ofList (p.take 1 ++ [':']))

theorem forall_mem_addSegment {P : String → Prop} {segments : List String} {p : List Char}
    (hp : IsLeft scheme P p) (isLast : Bool) (hsegments : ∀ s ∈ segments, P s) :
    ∀ s ∈ addSegment scheme segments p isLast, P s := by
  have hconcat : ∀ {segments : List String} {t : String}, (∀ s ∈ segments, P s) → P t →
      ∀ s ∈ segments ++ [t], P s := by
    intro segments t hsegments ht s hs
    rcases List.mem_append.mp hs with hs | hs
    · exact hsegments s hs
    · obtain rfl := List.mem_singleton.mp hs
      exact ht
  have hup : ∀ s ∈ shorten scheme segments, P s := fun s hs => hsegments s (mem_of_mem_shorten hs)
  rw [addSegment]
  split
  · split
    · exact hconcat hup hp.empty
    · exact hup
  rename_i hdouble
  split
  · split
    · exact hconcat hsegments hp.empty
    · exact hsegments
  rename_i hdot
  split
  · rename_i hdrive
    intro s hs
    obtain rfl := List.mem_singleton.mp hs
    exact hp.drive hdrive.1 hdrive.2.2
  · exact hconcat hsegments (hp.piece (Bool.eq_false_iff.mpr hdot) (Bool.eq_false_iff.mpr hdouble))

/-- **What holds of every segment that a piece may leave holds of all.** -/
theorem forall_mem_addSegments {P : String → Prop} {segments : List String}
    {pieces : List (List Char)} (hpieces : ∀ p ∈ pieces, IsLeft scheme P p)
    (hsegments : ∀ s ∈ segments, P s) : ∀ s ∈ addSegments scheme segments pieces, P s := by
  fun_induction addSegments scheme segments pieces with
  | case1 segments => exact hsegments
  | case2 segments p => exact forall_mem_addSegment (hpieces p List.mem_cons_self) true hsegments
  | case3 segments p rest hrest ih =>
    exact ih (fun q hq => hpieces q (List.mem_cons_of_mem p hq))
      (forall_mem_addSegment (hpieces p List.mem_cons_self) false hsegments)

/-- **Reading a path settles its segments.** -/
theorem isSettled_of_mem_addSegments (hscheme : scheme ≠ "file") {segments : List String}
    {pieces : List (List Char)} (hpieces : ∀ p ∈ pieces, '/' ∉ p ∧ '\\' ∉ p)
    (hsegments : ∀ s ∈ segments, IsSettled s) :
    ∀ s ∈ addSegments scheme segments pieces, IsSettled s := by
  refine forall_mem_addSegments (fun p hp => ?_) hsegments
  obtain ⟨hslash, hback⟩ := hpieces p hp
  exact ⟨isSettled_empty, isSettled_escapeChars hslash hback, fun hfile => absurd hfile hscheme⟩

/-- Reading a settled segment gives it back. -/
theorem addSegment_of_isSettled (hscheme : scheme ≠ "file") (segments : List String) {s : String}
    (h : IsSettled s) (isLast : Bool) :
    addSegment scheme segments s.toList isLast = segments ++ [s] := by
  rw [addSegment, h.isDoubleDot, h.isDot, if_neg Bool.false_ne_true, if_neg Bool.false_ne_true,
    if_neg fun hd => hscheme hd.1, escapeChars_of_isPathChar h.chars, String.ofList_toList]

/-- Reading settled segments and then more goes on from these segments. -/
theorem addSegments_of_isSettled (hscheme : scheme ≠ "file") (before : List String)
    {segments : List String} (h : ∀ s ∈ segments, IsSettled s) {pieces : List (List Char)}
    (hpieces : pieces ≠ []) :
    addSegments scheme before (segments.map String.toList ++ pieces) =
      addSegments scheme (before ++ segments) pieces := by
  induction segments generalizing before with
  | nil => rw [List.map_nil, List.nil_append, List.append_nil]
  | cons s rest ih =>
    have hmore : rest.map String.toList ++ pieces ≠ [] := fun hnil =>
      hpieces (List.append_eq_nil_iff.mp hnil).2
    -- a settled segment with more behind it is never the last one
    rw [List.map_cons, List.cons_append, addSegments.eq_3 _ _ _ _ hmore,
      addSegment_of_isSettled hscheme before (h s List.mem_cons_self),
      ih _ fun t ht => h t (List.mem_cons_of_mem s ht), List.append_assoc]
    rfl

/-! ## Writing and reading a path -/

/-- No piece of a path holds a delimiter. -/
theorem not_mem_of_mem_splitPath {s p : List Char} (h : p ∈ splitPath true s) :
    '/' ∉ p ∧ '\\' ∉ p := by
  refine ⟨Pieces.not_mem_of_mem_splitOn h, fun hback => ?_⟩
  obtain ⟨c, -, hc⟩ := List.mem_map.mp (Pieces.mem_of_mem_splitOn h hback)
  split at hc
  · exact absurd hc (by decide)
  · rename_i hslash
    exact hslash (by rw [hc]; rfl)

theorem splitPath_ne_nil (special : Bool) (s : List Char) : splitPath special s ≠ [] :=
  List.splitOn_ne_nil _ _

/-- A settled segment is cut off at the slash behind it. -/
theorem splitPath_append_slash {s : String} (h : IsSettled s) (rest : List Char) :
    splitPath true (s.toList ++ '/' :: rest) = s.toList :: splitPath true rest := by
  have hkept : s.toList.map (fun c => if isSlash true c then '/' else c) = s.toList := by
    conv => rhs; rw [← List.map_id s.toList]
    refine List.map_congr_left fun c hc => if_neg ?_
    simp [isSlash, (h.chars c hc).ne_slash, (h.chars c hc).ne_backslash]
  rw [splitPath, List.map_append, hkept, List.map_cons]
  exact List.splitOn_append_cons_self_of_not_mem h.slash_not_mem _

theorem text_rooted_cons (s : String) (rest : List String) :
    (Path.rooted (s :: rest)).text = "/" ++ s ++ (Path.rooted rest).text := by
  simp [Path.text]

theorem mem_text_rooted {segments : List String} {c : Char}
    (h : c ∈ (Path.rooted segments).text.toList) : c = '/' ∨ ∃ s ∈ segments, c ∈ s.toList := by
  induction segments with
  | nil => simp [Path.text] at h
  | cons s rest ih =>
    rw [text_rooted_cons, String.toList_append, String.toList_append] at h
    rcases List.mem_append.mp h with h | h
    · rcases List.mem_append.mp h with h | h
      · exact .inl (List.mem_singleton.mp h)
      · exact .inr ⟨s, List.mem_cons_self, h⟩
    · rcases ih h with h | ⟨t, ht, h⟩
      · exact .inl h
      · exact .inr ⟨t, List.mem_cons_of_mem s ht, h⟩

/-- A path with a slash and more behind it starts with a slash. What follows has the segments of the
path for pieces, and then those of the rest. -/
theorem exists_toList_text_append_slash {segments : List String}
    (h : ∀ s ∈ segments, IsSettled s) (r : String) :
    ∃ x, ((Path.rooted segments).text ++ "/" ++ r).toList = '/' :: x ∧
      splitPath true x = segments.map String.toList ++ splitPath true r.toList := by
  induction segments with
  | nil =>
    refine ⟨r.toList, ?_, rfl⟩
    simp [Path.text]
  | cons s rest ih =>
    obtain ⟨x, hx, hsplit⟩ := ih fun t ht => h t (List.mem_cons_of_mem s ht)
    refine ⟨s.toList ++ '/' :: x, ?_, ?_⟩
    · rw [← hx, text_rooted_cons]
      simp
    · rw [splitPath_append_slash (h s List.mem_cons_self), hsplit]
      rfl

/-- **Writing and reading a path.** A path of settled segments with a slash and more behind it is
read as these segments, followed by what the rest adds to them. -/
theorem rootedPath_append_slash (hspecial : isSpecial scheme = true) (hscheme : scheme ≠ "file")
    {segments : List String} (h : ∀ s ∈ segments, IsSettled s) (r : String) :
    rootedPath scheme ((Path.rooted segments).text ++ "/" ++ r).toList =
      .rooted (addSegments scheme segments (splitPath true r.toList)) := by
  obtain ⟨x, hx, hsplit⟩ := exists_toList_text_append_slash h r
  have hslash : isSlash true '/' = true := rfl
  rw [hx]
  simp only [rootedPath, hspecial, hslash, if_true, hsplit]
  rw [addSegments_of_isSettled hscheme [] h (splitPath_ne_nil _ _), List.nil_append]

/-! ## Any segments -/

/-- A text that ends no path and of which nothing is dropped. -/
def IsPathText (s : String) : Prop :=
  ∀ c ∈ s.toList, 0x20 < c.toNat ∧ c ≠ '?' ∧ c ≠ '#'

theorem isPathText_escapeChars (s : List Char) : IsPathText (escapeChars escapedInPath s) := by
  intro c hc
  rw [toList_escapeChars] at hc
  obtain ⟨d, -, hc⟩ := List.mem_flatMap.mp hc
  rcases Percent.mem_encodeChar hc with ⟨rfl, hascii, hescaped⟩ | hc
  · refine ⟨space_lt_of_escapedInPath hascii hescaped, ?_, ?_⟩ <;> rintro rfl <;>
      exact absurd hescaped (by decide)
  · have hchar := isPathChar_of_mem_escapeAlphabet hc
    exact ⟨hchar.space_lt, hchar.ne_question, hchar.ne_hash⟩

/-- A drive as it is written ends no path either. -/
theorem isPathText_drive {p : List Char} (h : isDrive p = true) :
    IsPathText (String.ofList (p.take 1 ++ [':'])) := by
  have hcolon : 0x20 < ':'.toNat ∧ ':' ≠ '?' ∧ ':' ≠ '#' := by decide
  have hlow : ∀ n < 0x21, (Char.ofNat n).isAlpha = false := by decide
  unfold isDrive at h
  split at h
  · rename_i c d
    have halpha := (Bool.and_eq_true_iff.mp h).1
    intro e he
    rw [String.toList_ofList] at he
    rcases List.mem_append.mp he with he | he
    · obtain rfl := List.mem_singleton.mp he
      refine ⟨?_, ?_, ?_⟩
      · refine Nat.lt_of_not_le fun hle => ?_
        have hnone := hlow e.toNat (Nat.lt_succ_of_le hle)
        rw [Char.ofNat_toNat, halpha] at hnone
        cases hnone
      · rintro rfl
        exact absurd halpha (by decide)
      · rintro rfl
        exact absurd halpha (by decide)
    · obtain rfl := List.mem_singleton.mp he
      exact hcolon
  · cases h

/-- Of the segments that a path may have, none ends it. -/
theorem isPathText_of_mem_addSegments {segments : List String} (pieces : List (List Char))
    (hsegments : ∀ s ∈ segments, IsPathText s) :
    ∀ s ∈ addSegments scheme segments pieces, IsPathText s :=
  forall_mem_addSegments (fun p _ =>
    ⟨fun _ hc => (nomatch hc), fun _ _ => isPathText_escapeChars p, fun _ => isPathText_drive⟩)
    hsegments

/-- **A path that begins at the root has segments none of which ends it**, whatever the scheme. -/
theorem exists_rootedPath_eq_rooted (scheme : String) (s : List Char) :
    ∃ segments, rootedPath scheme s = .rooted segments ∧ ∀ t ∈ segments, IsPathText t := by
  have hempty : ∀ t ∈ if isSpecial scheme then [""] else [], IsPathText t := by
    intro t ht
    split at ht
    · obtain rfl := List.mem_singleton.mp ht
      exact fun c hc => nomatch hc
    · cases ht
  unfold rootedPath
  simp only
  split
  · exact ⟨_, rfl, hempty⟩
  · exact ⟨_, rfl, isPathText_of_mem_addSegments _ fun t ht => nomatch ht⟩

end TokenKeeper.Url
