import Mathlib.Data.List.Basic
import Mathlib.Data.List.TakeWhile

/-!
# Pieces of texts

A text is cut into pieces at a separator, and pieces are put together with one between them. Each
piece is read or written by itself (`mapM_map_eq_some`). What is dropped from the ends of a text
leaves it as it is if nothing of this kind stands there (`trimmed_eq_self`).
-/

namespace TokenKeeper.Pieces

variable {α β : Type} {x c : α}

/-- What stands in a piece stands in the text. -/
theorem mem_intercalate_of_mem {l : List α} {pieces : List (List α)} (hl : l ∈ pieces)
    (hc : c ∈ l) : c ∈ [x].intercalate pieces := by
  induction pieces with
  | nil => cases hl
  | cons p rest ih =>
    rcases rest with _ | ⟨q, rest⟩
    · obtain rfl := List.mem_singleton.mp hl
      rwa [List.intercalate_singleton]
    · rw [List.intercalate_cons_cons, List.append_assoc]
      rcases List.mem_cons.mp hl with rfl | hl
      · exact List.mem_append_left _ hc
      · exact List.mem_append_right _ (List.mem_append_right _ (ih hl))

/-- Between the pieces of a text stand only separators. -/
theorem mem_or_of_mem_intercalate {separator : List α} {pieces : List (List α)}
    (h : c ∈ separator.intercalate pieces) : c ∈ separator ∨ ∃ l ∈ pieces, c ∈ l := by
  induction pieces with
  | nil => cases h
  | cons p rest ih =>
    rcases rest with _ | ⟨q, rest⟩
    · rw [List.intercalate_singleton] at h
      exact .inr ⟨p, List.mem_cons_self, h⟩
    · rw [List.intercalate_cons_cons, List.append_assoc] at h
      rcases List.mem_append.mp h with h | h
      · exact .inr ⟨p, List.mem_cons_self, h⟩
      · rcases List.mem_append.mp h with h | h
        · exact .inl h
        · rcases ih h with h | ⟨l, hl, h⟩
          · exact .inl h
          · exact .inr ⟨l, List.mem_cons_of_mem p hl, h⟩

theorem mem_of_mem_intercalate {pieces : List (List α)} (h : c ∈ [x].intercalate pieces) :
    c = x ∨ ∃ l ∈ pieces, c ∈ l :=
  (mem_or_of_mem_intercalate h).imp_left List.mem_singleton.mp

theorem intercalate_cons_append (separator a b : List α) (rest : List (List α)) :
    separator.intercalate ((a ++ b) :: rest) = a ++ separator.intercalate (b :: rest) := by
  rcases rest with _ | ⟨q, rest⟩
  · rw [List.intercalate_singleton, List.intercalate_singleton]
  · rw [List.intercalate_cons_cons, List.intercalate_cons_cons, List.append_assoc, List.append_assoc,
      List.append_assoc]

/-- Pieces that stand together as one text can be put together with more. -/
theorem intercalate_intercalate_cons (separator : List α) (pieces : List (List α)) (p : List α)
    (rest : List (List α)) :
    separator.intercalate (separator.intercalate (pieces ++ [p]) :: rest) =
      separator.intercalate (pieces ++ p :: rest) := by
  induction pieces with
  | nil => rw [List.nil_append, List.intercalate_singleton, List.nil_append]
  | cons q pieces ih =>
    have hbehind (more : List (List α)) : pieces ++ p :: more ≠ [] :=
      List.append_ne_nil_of_right_ne_nil _ (List.cons_ne_nil _ _)
    rw [List.cons_append, List.intercalate_cons_of_ne_nil (hbehind []), intercalate_cons_append, ih,
      List.cons_append, List.intercalate_cons_of_ne_nil (hbehind rest)]

/-- No separator stands in a piece. -/
theorem not_of_mem_splitOnP {p : α → Bool} {s l : List α} (hl : l ∈ s.splitOnP p) (hc : c ∈ l) :
    p c = false := by
  induction s generalizing l with
  | nil =>
    rw [List.splitOnP_nil] at hl
    obtain rfl := List.mem_singleton.mp hl
    cases hc
  | cons d rest ih =>
    rw [List.splitOnP_cons_eq_if_modifyHead] at hl
    split at hl
    · rcases List.mem_cons.mp hl with rfl | hl
      · cases hc
      · exact ih hl hc
    · -- the character belongs to the first piece
      rename_i hd
      obtain ⟨q, more, hsplit⟩ := List.exists_cons_of_ne_nil (List.splitOnP_ne_nil p rest)
      rw [hsplit, List.modifyHead_cons] at hl
      rw [hsplit] at ih
      rcases List.mem_cons.mp hl with rfl | hl
      · rcases List.mem_cons.mp hc with rfl | hc
        · exact Bool.eq_false_iff.mpr hd
        · exact ih List.mem_cons_self hc
      · exact ih (List.mem_cons_of_mem q hl) hc

/-- The pieces together are the text without its separators. -/
theorem flatten_splitOnP (p : α → Bool) (s : List α) :
    (s.splitOnP p).flatten = s.filter fun c => !p c := by
  induction s with
  | nil => rw [List.splitOnP_nil]; rfl
  | cons d rest ih =>
    rw [List.splitOnP_cons_eq_if_modifyHead]
    split
    · rename_i hd
      rw [List.flatten_cons, List.nil_append, ih, List.filter_cons_of_neg (by simp [hd])]
    · rename_i hd
      obtain ⟨q, more, hsplit⟩ := List.exists_cons_of_ne_nil (List.splitOnP_ne_nil p rest)
      rw [hsplit, List.flatten_cons] at ih
      rw [hsplit, List.modifyHead_cons, List.flatten_cons, List.cons_append, ih,
        List.filter_cons_of_pos (by simp [hd])]

/-- Pieces that were put together with separators between them are found again. -/
theorem splitOnP_intercalate {p : α → Bool} {pieces : List (List α)} (hx : p x = true)
    (hpieces : ∀ l ∈ pieces, ∀ c ∈ l, p c = false) (hne : pieces ≠ []) :
    ([x].intercalate pieces).splitOnP p = pieces := by
  induction pieces with
  | nil => exact absurd rfl hne
  | cons l rest ih =>
    have hl := hpieces l List.mem_cons_self
    rcases rest with - | ⟨q, rest⟩
    · rw [List.intercalate_singleton, List.splitOnP_eq_singleton hl]
    · rw [List.intercalate_cons_cons, List.append_assoc, List.singleton_append,
        List.splitOnP_append_cons_of_forall_mem hl x hx,
        ih (fun l hl => hpieces l (List.mem_cons_of_mem _ hl)) (List.cons_ne_nil q rest)]

section

variable [BEq α] [LawfulBEq α]

/-- A piece of a text is made of characters of the text. -/
theorem mem_of_mem_splitOn {s p : List α} (hp : p ∈ s.splitOn x) (hc : c ∈ p) : c ∈ s := by
  have h := mem_intercalate_of_mem (x := x) hp hc
  rwa [List.intercalate_splitOn] at h

theorem not_mem_of_mem_splitOn {s p : List α} (hp : p ∈ s.splitOn x) : x ∉ p := by
  intro hx
  rw [List.splitOn_eq_splitOnP] at hp
  have hne := not_of_mem_splitOnP hp hx
  rw [beq_self_eq_true] at hne
  cases hne

/-- What stands up to the first separator. -/
theorem takeWhile_append_cons {front : List α} (h : x ∉ front) (rest : List α) :
    (front ++ x :: rest).takeWhile (· != x) = front := by
  have hfront : ∀ c ∈ front, (c != x) = true := fun c hc =>
    bne_iff_ne.mpr (ne_of_mem_of_not_mem hc h)
  rw [List.takeWhile_append_of_pos hfront, List.takeWhile_cons_of_neg (by simp), List.append_nil]

/-- What stands behind the first separator. -/
theorem drop_dropWhile_append_cons {front : List α} (h : x ∉ front) (rest : List α) :
    ((front ++ x :: rest).dropWhile (· != x)).drop 1 = rest := by
  have hfront : ∀ c ∈ front, (c != x) = true := fun c hc =>
    bne_iff_ne.mpr (ne_of_mem_of_not_mem hc h)
  rw [List.dropWhile_append_of_pos hfront, List.dropWhile_cons_of_neg (by simp),
    List.drop_succ_cons, List.drop_zero]

end

/-! ## The ends of a text -/

theorem dropWhile_eq_self {p : α → Bool} {s : List α} (h : ∀ a ∈ s.head?, p a = false) :
    s.dropWhile p = s := by
  cases s with
  | nil => rfl
  | cons a s => exact List.dropWhile_cons_of_neg (by simp [h a rfl])

/-- A text is cut where the characters of one kind end. -/
theorem takeWhile_dropWhile_append {p : α → Bool} {front rest : List α}
    (hfront : ∀ a ∈ front, p a = true) (hrest : ∀ a ∈ rest.head?, p a = false) :
    (front ++ rest).takeWhile p = front ∧ (front ++ rest).dropWhile p = rest := by
  rw [List.takeWhile_append_of_pos hfront, List.dropWhile_append_of_pos hfront]
  cases rest with
  | nil => exact ⟨List.append_nil front, rfl⟩
  | cons a rest =>
    have ha : ¬ p a = true := Bool.eq_false_iff.mp (hrest a rfl)
    rw [List.takeWhile_cons_of_neg ha, List.dropWhile_cons_of_neg ha, List.append_nil]
    exact ⟨rfl, rfl⟩

/-- Nothing is dropped from a text that neither begins nor ends with what would be. -/
theorem trimmed_eq_self {p : α → Bool} {s : List α} (hfirst : ∀ a ∈ s.head?, p a = false)
    (hlast : ∀ a ∈ s.getLast?, p a = false) :
    ((s.dropWhile p).reverse.dropWhile p).reverse = s := by
  have hreversed : ∀ a ∈ s.reverse.head?, p a = false := by rwa [List.head?_reverse]
  rw [dropWhile_eq_self hfirst, dropWhile_eq_self hreversed, List.reverse_reverse]

/-- Nothing is left of a text exactly if all of it is what would be dropped from its ends. -/
theorem trimmed_eq_nil_iff {p : α → Bool} {s : List α} :
    ((s.dropWhile p).reverse.dropWhile p).reverse = [] ↔ ∀ a ∈ s, p a = true := by
  rw [List.reverse_eq_nil_iff, List.dropWhile_eq_nil_iff]
  constructor
  · intro h
    refine List.dropWhile_eq_nil_iff.mp ?_
    -- what is not dropped at the front begins with what is not dropped at the back either
    rcases hrest : s.dropWhile p with - | ⟨a, rest⟩
    · rfl
    · have hkept := List.head?_dropWhile_not p s
      rw [hrest] at hkept h
      exact absurd (h a (by simp)) (Bool.eq_false_iff.mp hkept)
  · intro h a ha
    rw [List.dropWhile_eq_nil_iff.mpr h] at ha
    cases ha

/-! ## Piece by piece -/

/-- What is written piece by piece is read piece by piece. -/
theorem mapM_map_eq_some {read : β → Option α} {write : α → β} {l : List α}
    (h : ∀ a ∈ l, read (write a) = some a) : (l.map write).mapM read = some l := by
  induction l with
  | nil => rfl
  | cons a l ih =>
    rw [List.map_cons, List.mapM_cons, h a List.mem_cons_self,
      ih fun b hb => h b (List.mem_cons_of_mem a hb)]
    rfl

theorem mapM_eq_some_self {read : α → Option α} {l : List α} (h : ∀ a ∈ l, read a = some a) :
    l.mapM read = some l := by
  conv => lhs; rw [← List.map_id l]
  exact mapM_map_eq_some h

/-- What is read piece by piece has come of a piece each. -/
theorem exists_of_mapM_eq_some {read : β → Option α} {l : List β} {values : List α}
    (h : l.mapM read = some values) :
    values.length = l.length ∧ ∀ a ∈ values, ∃ b ∈ l, read b = some a := by
  induction l generalizing values with
  | nil =>
    obtain rfl : [] = values := Option.some.inj h
    exact ⟨rfl, fun a ha => nomatch ha⟩
  | cons b l ih =>
    rw [List.mapM_cons] at h
    obtain ⟨a, ha, h⟩ := Option.bind_eq_some_iff.mp h
    obtain ⟨rest, hrest, h⟩ := Option.bind_eq_some_iff.mp h
    obtain rfl : a :: rest = values := Option.some.inj h
    obtain ⟨hlength, hmem⟩ := ih hrest
    refine ⟨congrArg (· + 1) hlength, fun c hc => ?_⟩
    rcases List.mem_cons.mp hc with rfl | hc
    · exact ⟨b, List.mem_cons_self, ha⟩
    · obtain ⟨d, hd, hread⟩ := hmem c hc
      exact ⟨d, List.mem_cons_of_mem b hd, hread⟩

end TokenKeeper.Pieces
