import TokenKeeper.Proofs.Text.Pieces
import TokenKeeper.Time.SpanText

/-!
# Which texts are spans

The grammar of spans, and that reading follows it. `DecimalText` is a number as it may be written,
`SpanGroup` a number and the spelling of a unit, and `IsSpanText` a whole span: a bare `0`, or one
or more groups with an optional `+` in front.

Reading takes the text apart where numbers and units meet, which is never in doubt, because no
spelling of a unit has a digit or a point in it. So the groups that are read are those that were
written (`sumGroups_eq_ok_iff`), and every text of the grammar is read, as long as the sum of its
groups fits. One text too many is read as well: a sign alone (`ofText_accepts_iff`).
-/

namespace TokenKeeper

/-! ## Numbers -/

/-- A decimal number as text: digits with at most one point among them, and at least one digit. -/
structure DecimalText where
  /-- What stands before the point. -/
  whole : List Char
  /-- What stands behind it, if there is a point. -/
  frac : Option (List Char)
  isDigit : ∀ c ∈ whole ++ frac.getD [], Decimal.isDigit c = true
  ne_nil : whole ++ frac.getD [] ≠ []

namespace DecimalText

variable (d : DecimalText)

/-- The digits in their order. -/
def digits : List Char :=
  d.whole ++ d.frac.getD []

/-- The number as it is written. -/
def text : List Char :=
  match d.frac with
  | none => d.whole
  | some frac => d.whole ++ '.' :: frac

/-- The nearest number that can be kept. -/
def value : Binary64 :=
  .ofDecimal (Decimal.value d.digits) (d.frac.getD []).length

theorem isNumberChar_of_mem_text {c : Char} (h : c ∈ d.text) : Span.isNumberChar c = true := by
  obtain ⟨whole, - | frac, hdigit, hne⟩ := d
  · rw [Span.isNumberChar, hdigit c (List.mem_append_left _ h), Bool.true_or]
  · rcases List.mem_append.mp h with h | h
    · rw [Span.isNumberChar, hdigit c (List.mem_append_left _ h), Bool.true_or]
    · rcases List.mem_cons.mp h with rfl | h
      · rfl
      · rw [Span.isNumberChar, hdigit c (List.mem_append_right _ h), Bool.true_or]

theorem text_ne_nil : d.text ≠ [] := by
  obtain ⟨whole, - | frac, -, hne⟩ := d
  · rwa [Option.getD_none, List.append_nil] at hne
  · exact List.append_ne_nil_of_right_ne_nil _ (List.cons_ne_nil _ _)

/-- A number as it may be written is read. -/
theorem number?_text : Span.number? d.text = some d.value := by
  obtain ⟨whole, frac, hdigit, hne⟩ := d
  have hwhole : ∀ c ∈ whole, Decimal.isDigit c = true := fun c hc =>
    hdigit c (List.mem_append_left _ hc)
  rcases frac with - | frac
  · rw [Option.getD_none, List.append_nil] at hne
    have hend : ∀ c ∈ [].head?, Decimal.isDigit c = false := nofun
    have hcut := Pieces.takeWhile_dropWhile_append hwhole hend
    rw [List.append_nil] at hcut
    simp only [Span.number?, text, value, digits, hcut, if_neg hne, Option.getD_none,
      List.append_nil, List.length_nil]
  · have hfrac : frac.all Decimal.isDigit = true := List.all_eq_true.mpr fun c hc =>
      hdigit c (List.mem_append_right _ hc)
    have hpoint : ∀ c ∈ ('.' :: frac).head?, Decimal.isDigit c = false := by
      rintro c ⟨⟩
      rfl
    have hcut := Pieces.takeWhile_dropWhile_append hwhole hpoint
    simp only [Span.number?, text, value, digits, hcut]
    exact if_pos ⟨trivial, hfrac, hne⟩

/-- What is read as a number is written as one. -/
theorem exists_of_number? {s : List Char} {v : Binary64} (h : Span.number? s = some v) :
    ∃ d : DecimalText, d.text = s ∧ d.value = v := by
  have hs := List.takeWhile_append_dropWhile (p := Decimal.isDigit) (l := s)
  have hwhole : ∀ c ∈ s.takeWhile Decimal.isDigit, Decimal.isDigit c = true :=
    fun c hc => List.mem_takeWhile_imp hc
  unfold Span.number? at h
  split at h
  · rename_i hrest
    rw [hrest, List.append_nil] at hs
    dsimp only at h
    split at h
    · cases h
    · rename_i hne
      obtain rfl := Option.some.inj h
      refine ⟨⟨s.takeWhile Decimal.isDigit, none, ?_, ?_⟩, hs, ?_⟩
      · simpa using hwhole
      · simpa using hne
      · simp [value, digits]
  · rename_i c frac hrest
    dsimp only at h
    split at h
    · rename_i hfrac
      obtain ⟨rfl, hdigits, hne⟩ := hfrac
      obtain rfl := Option.some.inj h
      refine ⟨⟨s.takeWhile Decimal.isDigit, some frac, fun c hc => ?_, hne⟩, hrest ▸ hs, rfl⟩
      rcases List.mem_append.mp hc with hc | hc
      · exact hwhole c hc
      · exact List.all_eq_true.mp hdigits c hc
    · cases h

end DecimalText

/-! ## Units -/

namespace TimeUnit

/-- The spellings of a unit. Microseconds have three: with a letter u, with the micro sign and with
the Greek letter mu. -/
def spellings : TimeUnit → List String
  | nano => ["ns"]
  | micro => ["us", "\u00b5s", "\u03bcs"]
  | milli => ["ms"]
  | second => ["s"]
  | minute => ["m"]
  | hour => ["h"]

variable {u : TimeUnit} {spelling : String}

theorem ofSpelling?_eq_some_iff {s : List Char} :
    ofSpelling? s = some u ↔ String.ofList s ∈ u.spellings := by
  constructor
  · intro h
    unfold ofSpelling? at h
    split_ifs at h with hns hmicro hms hs hm hh <;> cases h
    · subst hns; decide
    · rcases hmicro with rfl | rfl | rfl <;> decide
    · subst hms; decide
    · subst hs; decide
    · subst hm; decide
    · subst hh; decide
  · intro h
    obtain ⟨t, ht, hs⟩ : ∃ t ∈ u.spellings, s = t.toList :=
      ⟨_, h, String.toList_ofList.symm⟩
    have hread : ∀ t ∈ u.spellings, ofSpelling? t.toList = some u := by
      cases u <;> decide
    rw [hs, hread t ht]

/-- In a spelling there is nothing that belongs to a number. -/
theorem not_isNumberChar_of_mem (h : spelling ∈ u.spellings) {c : Char}
    (hc : c ∈ spelling.toList) : Span.isNumberChar c = false := by
  have hall : ∀ t ∈ u.spellings, (t.toList.all fun c => !Span.isNumberChar c) = true := by
    cases u <;> decide
  exact (Bool.not_eq_true' _).mp (List.all_eq_true.mp (hall spelling h) c hc)

theorem toList_ne_nil_of_mem (h : spelling ∈ u.spellings) : spelling.toList ≠ [] := by
  have hall : ∀ t ∈ u.spellings, t.toList ≠ [] := by
    cases u <;> decide
  exact hall spelling h

end TimeUnit

/-! ## Groups -/

/-- A number with the spelling of a unit behind it. -/
structure SpanGroup where
  number : DecimalText
  unit : TimeUnit
  spelling : String
  spells : spelling ∈ unit.spellings

namespace SpanGroup

variable (g : SpanGroup) (gs : List SpanGroup)

/-- The group as it is written. -/
def text : List Char :=
  g.number.text ++ g.spelling.toList

/-- The nanoseconds that the group stands for. -/
def nanos : Binary64 :=
  g.number.value.scale g.unit.nanos

/-- Groups one after the other. -/
def written : List Char :=
  gs.flatMap text

/-- The sum of groups, in their order, added to a number. -/
def sum (total : Binary64) : Binary64 :=
  gs.foldl (fun total g => total.add g.nanos) total

/-- What is written begins with a number. -/
theorem isNumberChar_of_mem_head? {c : Char} (h : c ∈ (written gs).head?) :
    Span.isNumberChar c = true := by
  cases gs with
  | nil => cases h
  | cons g gs =>
    obtain ⟨c', rest, htext⟩ := List.exists_cons_of_ne_nil g.number.text_ne_nil
    simp only [written, List.flatMap_cons, text, htext, List.cons_append, List.head?_cons] at h
    obtain rfl : c' = c := Option.some.inj h
    exact g.number.isNumberChar_of_mem_text (htext ▸ List.mem_cons_self)

/-- What is written ends with a unit. -/
theorem not_isNumberChar_of_mem_getLast? {c : Char} (h : c ∈ (written gs).getLast?) :
    Span.isNumberChar c = false := by
  induction gs with
  | nil => cases h
  | cons g gs ih =>
    rw [written, List.flatMap_cons, ← written] at h
    rcases hrest : written gs with - | ⟨c', rest⟩
    · have hne := TimeUnit.toList_ne_nil_of_mem g.spells
      rw [hrest, List.append_nil, text, List.getLast?_append_of_ne_nil _ hne] at h
      exact TimeUnit.not_isNumberChar_of_mem g.spells (List.mem_of_mem_getLast? h)
    · rw [List.getLast?_append_of_ne_nil _ (hrest ▸ List.cons_ne_nil c' rest)] at h
      exact ih h

theorem written_eq_nil_iff : written gs = [] ↔ gs = [] := by
  constructor
  · intro h
    rcases gs with - | ⟨g, gs⟩
    · rfl
    · rw [written, List.flatMap_cons, List.append_eq_nil_iff, text, List.append_eq_nil_iff] at h
      exact absurd h.1.1 g.number.text_ne_nil
  · rintro rfl
    rfl

/-- A text of groups is cut behind the number of its first group and behind the unit. -/
theorem cut_written :
    (written (g :: gs)).takeWhile Span.isNumberChar = g.number.text ∧
      (written (g :: gs)).dropWhile Span.isNumberChar = g.spelling.toList ++ written gs ∧
      (g.spelling.toList ++ written gs).takeWhile (!Span.isNumberChar ·) = g.spelling.toList ∧
      (g.spelling.toList ++ written gs).dropWhile (!Span.isNumberChar ·) = written gs := by
  have hunit : ∀ c ∈ (g.spelling.toList ++ written gs).head?, Span.isNumberChar c = false := by
    intro c hc
    rw [List.head?_append_of_ne_nil _ (TimeUnit.toList_ne_nil_of_mem g.spells)] at hc
    exact TimeUnit.not_isNumberChar_of_mem g.spells (List.mem_of_mem_head? hc)
  have hletters : ∀ c ∈ g.spelling.toList, (!Span.isNumberChar c) = true := by
    intro c hc
    rw [TimeUnit.not_isNumberChar_of_mem g.spells hc]
    rfl
  have hnext : ∀ c ∈ (written gs).head?, (!Span.isNumberChar c) = false := by
    intro c hc
    rw [isNumberChar_of_mem_head? gs hc]
    rfl
  obtain ⟨hnumber, hrest⟩ := Pieces.takeWhile_dropWhile_append
    (fun _ => g.number.isNumberChar_of_mem_text) hunit
  obtain ⟨hspelling, hmore⟩ := Pieces.takeWhile_dropWhile_append hletters hnext
  rw [written, List.flatMap_cons, ← written, text, List.append_assoc]
  exact ⟨hnumber, hrest, hspelling, hmore⟩

end SpanGroup

namespace Span

open SpanGroup

/-- Groups that were written are read, and their sum is taken. -/
theorem sumGroups_written (total : Binary64) (gs : List SpanGroup) :
    sumGroups total (written gs) = .ok (sum gs total) := by
  induction gs generalizing total with
  | nil => rw [written, List.flatMap_nil, sumGroups, if_pos rfl]; rfl
  | cons g gs ih =>
    obtain ⟨hnumber, hrest, hspelling, hmore⟩ := cut_written g gs
    have hne : written (g :: gs) ≠ [] := mt (written_eq_nil_iff _).mp (List.cons_ne_nil g gs)
    have hunit : g.spelling.toList ++ written gs ≠ [] :=
      List.append_ne_nil_of_left_ne_nil (TimeUnit.toList_ne_nil_of_mem g.spells) _
    have hread : TimeUnit.ofSpelling? g.spelling.toList = some g.unit := by
      rw [TimeUnit.ofSpelling?_eq_some_iff, String.ofList_toList]
      exact g.spells
    rw [sumGroups, if_neg hne]
    simp only [hnumber, hrest, hspelling, hmore, hunit, g.number.text_ne_nil, dite_false, if_false,
      g.number.number?_text, hread]
    exact ih _

/-- **Only groups are read**, and what is read are the groups that were written. -/
theorem sumGroups_eq_ok_iff {total result : Binary64} {s : List Char} :
    sumGroups total s = .ok result ↔ ∃ gs, written gs = s ∧ sum gs total = result := by
  constructor
  · intro h
    fun_induction sumGroups total s with
    | case1 total =>
      cases h
      exact ⟨[], rfl, rfl⟩
    | case2 => cases h
    | case3 => cases h
    | case4 => cases h
    | case5 => cases h
    | case6 total s hs num rest hrest hnum value hvalue unit u hu ih =>
      obtain ⟨gs, hgs, hsum⟩ := ih h
      obtain ⟨d, hd, rfl⟩ := DecimalText.exists_of_number? hvalue
      let g : SpanGroup := ⟨d, u, String.ofList unit, TimeUnit.ofSpelling?_eq_some_iff.mp hu⟩
      refine ⟨g :: gs, ?_, hsum⟩
      rw [written, List.flatMap_cons, ← written, hgs, text, hd, String.toList_ofList,
        List.append_assoc, List.takeWhile_append_dropWhile, List.takeWhile_append_dropWhile]
  · rintro ⟨gs, rfl, rfl⟩
    exact sumGroups_written total gs

/-- Reading groups never comes to the question whether their sum fits. -/
theorem sumGroups_ne_outOfRange (total : Binary64) (s : List Char) :
    sumGroups total s ≠ .error .outOfRange := by
  fun_induction sumGroups total s with
  | case6 => assumption
  | _ => nofun

/-! ## Spans -/

/-- Whether a text is a span as it is to be written: a bare `0`, or one or more groups, with an
optional sign in front. -/
inductive IsSpanText : List Char → Prop
  | zero : IsSpanText ['0']
  | groups {gs : List SpanGroup} (ne_nil : gs ≠ []) : IsSpanText (written gs)
  | signed {gs : List SpanGroup} (ne_nil : gs ≠ []) : IsSpanText ('+' :: written gs)

/-- A total gives a span, or it is out of range. -/
theorem ofTotal_cases (total : Binary64) :
    (∃ span, ofTotal total = .ok span) ∨ ofTotal total = .error .outOfRange := by
  rw [ofTotal]
  split
  · cases total.roundNat? with
    | none => exact .inr rfl
    | some n => exact .inl ⟨_, rfl⟩
  · exact .inr rfl

variable {raw : String} {gs : List SpanGroup}

theorem ofText_zero (h : trimBlanks raw.toList = ['0']) : ofText raw = .ok ⟨0⟩ := by
  rw [ofText, h]
  rfl

/-- Groups with a sign in front are read as their sum, and so is a sign alone. -/
theorem ofText_signed (h : trimBlanks raw.toList = '+' :: written gs) :
    ofText raw = ofTotal (sum gs .zero) := by
  rw [ofText, h]
  show (sumGroups .zero (written gs) >>= fun total => ofTotal total) = _
  rw [sumGroups_written]
  rfl

/-- Groups are read as their sum. -/
theorem ofText_groups (h : trimBlanks raw.toList = written gs) (hne : gs ≠ []) :
    ofText raw = ofTotal (sum gs .zero) := by
  have hfirst : ∀ c rest, written gs = c :: rest → isNumberChar c = true := fun c rest hgs =>
    isNumberChar_of_mem_head? gs (by rw [hgs]; rfl)
  rw [ofText, h]
  split
  · rename_i hnil
    exact absurd ((written_eq_nil_iff gs).mp hnil) hne
  · -- a bare zero has no unit at its end
    rename_i hzero
    have hlast := not_isNumberChar_of_mem_getLast? gs (c := '0') (by rw [hzero]; rfl)
    cases hlast
  · rename_i rest hminus
    cases hfirst _ _ hminus
  · rename_i rest hplus
    cases hfirst _ _ hplus
  · rw [sumGroups_written]
    rfl

/-- What is neither refused nor out of range is a bare zero, or groups that may have a sign in
front. -/
theorem exists_groups_of_ofText {result : Except SpanError Span} (h : ofText raw = result)
    (haccepted : (∃ span, result = .ok span) ∨ result = .error .outOfRange) :
    trimBlanks raw.toList = ['0'] ∨
      ∃ gs, trimBlanks raw.toList = '+' :: written gs ∨
        gs ≠ [] ∧ trimBlanks raw.toList = written gs := by
  have hrefused (e : SpanError) (he : .error e = result) : e = .outOfRange := by
    subst he
    rcases haccepted with ⟨span, hok⟩ | hout
    · cases hok
    · exact Except.error.inj hout
  -- so reading groups has not failed
  have hread (s : List Char) (hs : (sumGroups .zero s >>= fun total => ofTotal total) = result) :
      ∃ gs, written gs = s := by
    rcases hsum : sumGroups .zero s with e | total
    · rw [hsum] at hs
      rw [hrefused e hs] at hsum
      exact absurd hsum (sumGroups_ne_outOfRange _ _)
    · obtain ⟨gs, hgs, -⟩ := sumGroups_eq_ok_iff.mp hsum
      exact ⟨gs, hgs⟩
  rw [ofText] at h
  split at h
  · cases hrefused _ h
  · exact .inl ‹_›
  · cases hrefused _ h
  · rename_i rest hplus
    obtain ⟨gs, hgs⟩ := hread rest h
    exact .inr ⟨gs, .inl (hgs ▸ hplus)⟩
  · rename_i hne _ _ _
    obtain ⟨gs, hgs⟩ := hread _ h
    refine .inr ⟨gs, .inr ⟨?_, hgs.symm⟩⟩
    rintro rfl
    exact hne hgs.symm

/-- **Which texts are spans.** A text is read, or refused only because its span is too long, exactly
if it is a span as it is to be written, apart from blanks around it, or a sign alone. A bare `0` and
a sign alone stand for no time at all, and groups for their sum, whether there is a sign in front or
not. -/
theorem ofText_accepts_iff (raw : String) :
    ((∃ span, ofText raw = .ok span) ∨ ofText raw = .error .outOfRange ↔
      IsSpanText (trimBlanks raw.toList) ∨ trimBlanks raw.toList = ['+']) ∧
    (trimBlanks raw.toList = ['0'] ∨ trimBlanks raw.toList = ['+'] → ofText raw = .ok ⟨0⟩) ∧
    ∀ gs : List SpanGroup, gs ≠ [] →
      trimBlanks raw.toList = written gs ∨ trimBlanks raw.toList = '+' :: written gs →
      ofText raw = ofTotal (sum gs .zero) := by
  have hgroups : ∀ gs : List SpanGroup, gs ≠ [] →
      trimBlanks raw.toList = written gs ∨ trimBlanks raw.toList = '+' :: written gs →
      ofText raw = ofTotal (sum gs .zero) := by
    rintro gs hne (h | h)
    · exact ofText_groups h hne
    · exact ofText_signed h
  have hzero : trimBlanks raw.toList = ['0'] ∨ trimBlanks raw.toList = ['+'] →
      ofText raw = .ok ⟨0⟩ := by
    rintro (h | h)
    · exact ofText_zero h
    · have hsign : trimBlanks raw.toList = '+' :: written [] := h
      have hnone : ofTotal (sum [] .zero) = .ok ⟨0⟩ := by decide +kernel
      rw [ofText_signed hsign, hnone]
  refine ⟨⟨fun h => ?_, fun h => ?_⟩, hzero, hgroups⟩
  · rcases exists_groups_of_ofText rfl h with h | ⟨gs, h | ⟨hne, h⟩⟩
    · exact .inl (h ▸ .zero)
    · rcases eq_or_ne gs [] with rfl | hne
      · exact .inr h
      · exact .inl (h ▸ .signed hne)
    · exact .inl (h ▸ .groups hne)
  · rcases h with h | h
    · generalize htrimmed : trimBlanks raw.toList = s at h
      cases h with
      | zero => exact .inl ⟨_, hzero (.inl htrimmed)⟩
      | groups hne =>
        rw [hgroups _ hne (.inl htrimmed)]
        exact ofTotal_cases _
      | signed hne =>
        rw [hgroups _ hne (.inr htrimmed)]
        exact ofTotal_cases _
    · exact .inl ⟨_, hzero (.inr h)⟩

/-- A sign alone is no span as it is to be written, and is read all the same. -/
theorem ofText_lone_sign : ¬ IsSpanText (trimBlanks "+".toList) ∧ ofText "+" = .ok ⟨0⟩ := by
  have htrimmed : trimBlanks "+".toList = ['+'] := by decide
  refine ⟨fun h => ?_, (ofText_accepts_iff "+").2.1 (.inr htrimmed)⟩
  rw [htrimmed] at h
  generalize hs : ['+'] = s at h
  cases h with
  | zero => cases hs
  | @groups gs hne =>
    have hfirst := isNumberChar_of_mem_head? gs (c := '+') (by rw [← hs]; rfl)
    cases hfirst
  | @signed gs hne => exact hne ((written_eq_nil_iff gs).mp (List.cons.inj hs).2.symm)

end Span

end TokenKeeper
