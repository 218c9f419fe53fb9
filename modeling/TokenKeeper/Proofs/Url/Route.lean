import TokenKeeper.Proofs.Url.PathJoin
import TokenKeeper.Proofs.Url.Segments

/-!
# Routes

A relative path leads from any place to another: some levels up, and from there down into segments.
`Route.walk` reads the pieces of a path that way, without a place to start from, and
`addSegments_applyTo` says that reading the pieces at a place goes where their route leads. So
whether the end lies under the start is told by the route and by the segments that it drops
(`isUnder_applyTo_iff`).
-/

namespace TokenKeeper.Url

/-- Where a relative path leads. -/
structure Route where
  /-- How many segments are left behind. -/
  up : Nat := 0
  /-- The segments that come in their place. -/
  down : List String := []
deriving DecidableEq, Repr

namespace Route

/-- One level up: out of the last segment that was entered, or else of one more at the start. -/
def above (r : Route) : Route :=
  match r.down with
  | [] => { r with up := r.up + 1 }
  | _ :: _ => { r with down := r.down.dropLast }

/-- Down into a segment. -/
def into (r : Route) (s : String) : Route :=
  { r with down := r.down ++ [s] }

/-- Go one piece on. `isLast` tells that no slash follows. -/
def step (r : Route) (p : List Char) (isLast : Bool) : Route :=
  if isDoubleDot p then
    if isLast then r.above.into "" else r.above
  else if isDot p then
    if isLast then r.into "" else r
  else r.into (escapeChars escapedInPath p)

/-- Go all pieces on. -/
def walk (r : Route) : List (List Char) → Route
  | [] => r
  | [p] => r.step p true
  | p :: rest => (r.step p false).walk rest

/-- The route of a path, whether or not it has a slash at its start. -/
def ofText (path : String) : Route :=
  ({} : Route).walk (splitPath true (WirePath.leaf path).toList)

/-- The place that a route leads to. -/
def applyTo (r : Route) (base : List String) : List String :=
  base.take (base.length - r.up) ++ r.down

/-! ## Reading along a route -/

variable (r : Route) (base : List String)

@[simp] theorem applyTo_start : ({} : Route).applyTo base = base := by
  simp [applyTo]

@[simp] theorem applyTo_into (s : String) : (r.into s).applyTo base = r.applyTo base ++ [s] := by
  simp only [applyTo, into, List.append_assoc]

theorem applyTo_above : r.above.applyTo base = (r.applyTo base).dropLast := by
  rcases r with ⟨up, down⟩
  rcases down with _ | ⟨s, down⟩
  · simp only [applyTo, above, List.append_nil]
    rw [List.dropLast_eq_take, List.take_take, List.length_take]
    congr 1
    omega
  · simp only [applyTo, above]
    rw [List.dropLast_append_of_ne_nil (List.cons_ne_nil s down)]

theorem shorten_eq_dropLast {scheme : String} (hscheme : scheme ≠ "file")
    (segments : List String) : shorten scheme segments = segments.dropLast := by
  unfold shorten
  split
  · exact if_neg fun h => hscheme h.1
  · rfl

theorem addSegment_applyTo {scheme : String} (hscheme : scheme ≠ "file") (p : List Char)
    (isLast : Bool) :
    addSegment scheme (r.applyTo base) p isLast = (r.step p isLast).applyTo base := by
  unfold addSegment step
  rw [shorten_eq_dropLast hscheme, ← applyTo_above]
  split
  · cases isLast
    · rfl
    · exact (applyTo_into _ _ _).symm
  · split
    · cases isLast
      · rfl
      · exact (applyTo_into _ _ _).symm
    · rw [if_neg fun h => hscheme h.1, applyTo_into]

/-- **Reading pieces at a place goes where their route leads.** -/
theorem addSegments_applyTo {scheme : String} (hscheme : scheme ≠ "file")
    (pieces : List (List Char)) :
    addSegments scheme (r.applyTo base) pieces = (r.walk pieces).applyTo base := by
  fun_induction walk r pieces with
  | case1 r => rfl
  | case2 r p => exact r.addSegment_applyTo base hscheme p true
  | case3 r p rest hrest ih =>
    rw [addSegments.eq_3 _ _ _ _ hrest, addSegment_applyTo r base hscheme, ih]

/-- Without a segment that means the place above, a route goes up no further. -/
theorem up_walk {pieces : List (List Char)} (h : ∀ p ∈ pieces, isDoubleDot p = false) :
    (r.walk pieces).up = r.up := by
  have hstep : ∀ (r : Route) (p : List Char) (isLast : Bool), isDoubleDot p = false →
      (r.step p isLast).up = r.up := by
    intro r p isLast hp
    rw [step, hp, if_neg Bool.false_ne_true]
    split
    · cases isLast <;> rfl
    · rfl
  fun_induction walk r pieces with
  | case1 r => rfl
  | case2 r p => exact hstep r p true (h p List.mem_cons_self)
  | case3 r p rest hrest ih =>
    rw [ih fun q hq => h q (List.mem_cons_of_mem p hq)]
    exact hstep r p false (h p List.mem_cons_self)

end Route

/-! ## Under a base -/

/-- Whether a path is a base path or lies under it. -/
def IsUnder (base path : String) : Prop :=
  path = base ∨ ∃ rest, path = base ++ "/" ++ rest

theorem text_rooted_append (a b : List String) :
    (Path.rooted (a ++ b)).text = (Path.rooted a).text ++ (Path.rooted b).text := by
  induction a with
  | nil => simp [Path.text]
  | cons s rest ih =>
    rw [List.cons_append, text_rooted_cons, ih, text_rooted_cons, String.append_assoc,
      String.append_assoc, String.append_assoc]

/-- A path ends in the characters of its last segment. -/
theorem text_rooted_concat (front : List String) (s : String) :
    (Path.rooted (front ++ [s])).text = (Path.rooted front).text ++ "/" ++ s := by
  rw [text_rooted_append, text_rooted_cons]
  simp [Path.text, String.append_assoc]

/-- A path that lies under a base goes on with a slash after it, if it is closed with one. -/
theorem IsUnder.exists_eq {base path : String} (h : IsUnder base path) :
    ∃ rest, path ++ "/" ++ "" = base ++ "/" ++ rest := by
  rcases h with rfl | ⟨rest, rfl⟩
  · exact ⟨"", rfl⟩
  · exact ⟨rest ++ "/", by simp [String.append_assoc]⟩

/-- **Under a base in text is under it in segments.** -/
theorem isUnder_text_iff {base path : List String} (hbase : ∀ s ∈ base, IsSettled s)
    (hpath : ∀ s ∈ path, IsSettled s) :
    IsUnder (Path.rooted base).text (Path.rooted path).text ↔ base <+: path := by
  constructor
  · intro h
    obtain ⟨rest, hrest⟩ := h.exists_eq
    obtain ⟨x, hx, hpieces⟩ := exists_toList_text_append_slash hpath ""
    obtain ⟨y, hy, hpieces'⟩ := exists_toList_text_append_slash hbase rest
    -- both texts are the same, so they have the same pieces, of which the last one closes the path
    rw [hrest, hy] at hx
    obtain rfl := (List.cons.inj hx).2
    rw [hpieces'] at hpieces
    have hmap : base.map String.toList ++ (splitPath true rest.toList).dropLast =
        path.map String.toList := by
      rw [← List.dropLast_append_of_ne_nil (splitPath_ne_nil _ _), hpieces]
      exact List.dropLast_concat
    have hprefix := List.prefix_append (base.map String.toList)
      (splitPath true rest.toList).dropLast
    rw [hmap] at hprefix
    have hback := hprefix.map String.ofList
    simpa [List.map_map, Function.comp_def] using hback
  · rintro ⟨more, rfl⟩
    rw [text_rooted_append]
    rcases more with _ | ⟨s, more⟩
    · exact .inl (by simp [Path.text])
    · refine .inr ⟨s ++ (Path.rooted more).text, ?_⟩
      rw [text_rooted_cons, String.append_assoc, String.append_assoc]

/-- **When a route stays under its start.** The segments that it leaves behind must be the first
ones that it enters again. -/
theorem isUnder_applyTo_iff (r : Route) {base : List String} (hbase : ∀ s ∈ base, IsSettled s)
    (hend : ∀ s ∈ r.applyTo base, IsSettled s) :
    IsUnder (Path.rooted base).text (Path.rooted (r.applyTo base)).text ↔
      base.drop (base.length - r.up) <+: r.down := by
  rw [isUnder_text_iff hbase hend]
  have hcut := List.take_append_drop (base.length - r.up) base
  constructor
  · intro h
    rw [Route.applyTo] at h
    nth_rewrite 1 [← hcut] at h
    exact (List.prefix_append_right_inj _).mp h
  · intro h
    rw [Route.applyTo]
    nth_rewrite 1 [← hcut]
    exact (List.prefix_append_right_inj _).mpr h

end TokenKeeper.Url
