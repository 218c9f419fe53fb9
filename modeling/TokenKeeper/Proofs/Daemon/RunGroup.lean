import TokenKeeper.Daemon.RunGroup
import Mathlib.Data.List.Basic
import Mathlib.Data.List.Forall2

/-!
# The first end decides

The loop of a group takes the earliest of the ends that are coming (`Takes`). Once it has taken the
first and cancelled, what it has taken so far is known at every point (`IsUnwinding`): ends of its
actors under that cancellation, in the order of their times, and none that is still to come is
earlier. Taking one more keeps this true (`IsUnwinding.of_takes`), so it is true of the result
(`IsUnwinding.joinMany`). Whether there is a result is a matter of who ends at all
(`exists_outcome?_iff`).

The first end is found without looking at what actors do under a cancellation that has not come. So
groups that start alike have it in common (`StartsLike.joinNext?`), and with it their result.
-/

namespace TokenKeeper

namespace RunGroup

variable {g : RunGroup} {p p' : Progress} {e : ActorEnd} {a : Actor}

/-! ## The next end -/

theorem mem_coming : e ∈ g.coming p ↔ ∃ a ∈ p.running, g.endOf? p.cancelledAt a = some e := by
  rw [← List.mem_filterMap]
  unfold coming
  split
  · rfl
  · rw [List.mem_append, List.mem_filter, List.mem_filter, ← and_or_left]
    simp [Decidable.em, or_comm]

/-- What it is to take the end of an actor: it is running and comes to that end as things stand, no
other one comes to its own sooner, and it is then not running any more. -/
structure Takes (g : RunGroup) (p : Progress) (a : Actor) (e : ActorEnd) (p' : Progress) :
    Prop where
  running : p.running.Perm (a :: p'.running)
  endOf? : g.endOf? p.cancelledAt a = some e
  le : ∀ b ∈ p.running, ∀ e', g.endOf? p.cancelledAt b = some e' → e.endedAt ≤ e'.endedAt
  cancelledAt : p'.cancelledAt = p.cancelledAt
  ends : p'.ends = p.ends ++ [e]
  now : p'.now = max p.now e.endedAt

theorem exists_takes (h : g.joinNext? p = some (e, p')) : ∃ a, g.Takes p a e p' := by
  obtain ⟨e₀, hmin, heq⟩ := Option.map_eq_some_iff.mp h
  obtain ⟨rfl, rfl⟩ := Prod.mk.inj heq
  obtain ⟨b, hb, hend⟩ := mem_coming.mp (List.minOn?_mem hmin)
  obtain ⟨a, before, after, -, ha, hrunning, herase⟩ :=
    List.exists_of_eraseP (p := fun a => g.endOf? p.cancelledAt a = some e₀) hb
      (decide_eq_true hend)
  refine ⟨a, ?_, of_decide_eq_true ha, ?_, rfl, rfl, rfl⟩
  · rw [herase, hrunning]
    exact List.perm_middle
  · intro b hb e' he'
    have hle := List.apply_get_minOn?_le_of_mem (f := ActorEnd.endedAt)
      (mem_coming.mpr ⟨b, hb, he'⟩)
    rwa [Option.get_of_eq_some _ hmin] at hle

/-- An end can be taken as long as some running actor comes to one. -/
theorem exists_joinNext? (ha : a ∈ p.running) (he : g.endOf? p.cancelledAt a = some e) :
    ∃ e p', g.joinNext? p = some (e, p') := by
  obtain ⟨e₀, hmin⟩ := Option.isSome_iff_exists.mp
    (List.isSome_minOn?_of_mem (f := ActorEnd.endedAt) (mem_coming.mpr ⟨a, ha, he⟩))
  rw [joinNext?, hmin, Option.map_some]
  exact ⟨_, _, rfl⟩

/-! ## Actors -/

/-- What has happened by the time of a cancellation is not changed by it. -/
theorem cancelledEnd?_of_naturalEnd? (hg : g.cancelled = false) (h : g.naturalEnd? a = some e) :
    g.cancelledEnd? e.endedAt a = some e := by
  rcases a with ⟨name, ⟨until?, ignores, ending, unwind, onCancel⟩ | _ | _⟩
  · obtain ⟨time, rfl, rfl⟩ := Option.map_eq_some_iff.mp h
    simp [cancelledEnd?, isReached, hg]
  · cases h
  · obtain ⟨time, -, rfl⟩ := Option.map_eq_some_iff.mp h
    rfl

/-- Who has not ended by the time of a cancellation ends no sooner. -/
theorem le_of_cancelledEnd? {c : Nat}
    (hnatural : ∀ e, g.naturalEnd? a = some e → c ≤ e.endedAt) (h : g.cancelledEnd? c a = some e) :
    c ≤ e.endedAt := by
  rcases a with ⟨name, ⟨_ | time, ignores, ending, unwind, onCancel⟩ |
    ⟨_ | time, ignores, ending, unwind, onCancel⟩ | _⟩
  · simp only [cancelledEnd?] at h
    split at h <;> cases h
    exact Nat.le_add_right c unwind
  · have htime : c ≤ time := hnatural _ rfl
    simp only [cancelledEnd?] at h
    split at h <;> cases h
    · exact htime
    · exact Nat.le_add_right c unwind
  · simp only [cancelledEnd?] at h
    split at h <;> cases h
    exact Nat.le_add_right c unwind
  · simp only [cancelledEnd?] at h
    split at h <;> cases h
    · exact Nat.le_max_right time c
    · exact Nat.le_add_right c unwind
  · cases h
    exact Nat.le_refl c

/-- Whether an actor ends under a cancellation does not depend on when that comes. -/
theorem isSome_cancelledEnd? (g : RunGroup) (a : Actor) (c c' : Nat) :
    (g.cancelledEnd? c a).isSome = (g.cancelledEnd? c' a).isSome := by
  rcases a with ⟨name, ⟨_ | time, _ | _, ending, unwind, onCancel⟩ |
    ⟨_ | time, _ | _, ending, unwind, onCancel⟩ | _⟩ <;> simp only [cancelledEnd?] <;>
    first | rfl | (split <;> split <;> rfl)

/-! ## Taking the ends -/

/-- Where the loop stands after the cancellation at a time: it has taken the ends of some actors
under it, in the order in which they came, and the others end no sooner. -/
structure IsUnwinding (g : RunGroup) (c : Nat) (first : ActorEnd) (p : Progress) : Prop where
  cancelledAt : p.cancelledAt = some c
  taken : ∃ taken, (taken ++ p.running).Perm g.actors ∧
    taken.map (g.cancelledEnd? c) = p.ends.map some
  head : p.ends.head? = some first
  sorted : p.ends.Pairwise fun e e' => e.endedAt ≤ e'.endedAt
  le_now : ∀ e ∈ p.ends, e.endedAt ≤ p.now
  now : ∃ e ∈ p.ends, e.endedAt = p.now
  coming : ∀ a ∈ p.running, ∀ e, g.cancelledEnd? c a = some e → p.now ≤ e.endedAt

variable {c : Nat} {first : ActorEnd}

/-- Taking one more end keeps all that. -/
theorem IsUnwinding.of_takes (h : g.IsUnwinding c first p) (ht : g.Takes p a e p') :
    g.IsUnwinding c first p' := by
  obtain ⟨hrunning, ha, hle, hcancelled, hends, hnow⟩ := ht
  rw [h.cancelledAt] at ha hle hcancelled
  have hmem : ∀ b, b = a ∨ b ∈ p'.running → b ∈ p.running := by
    intro b hb
    exact hrunning.mem_iff.mpr (List.mem_cons.mpr hb)
  have hcoming : p.now ≤ e.endedAt := h.coming a (hmem a (.inl rfl)) e ha
  rw [Nat.max_eq_right hcoming] at hnow
  obtain ⟨taken, hperm, htaken⟩ := h.taken
  refine ⟨hcancelled, ⟨taken ++ [a], ?_, ?_⟩, ?_, ?_, ?_, ?_, ?_⟩
  · rw [List.append_assoc, List.singleton_append]
    exact (hrunning.symm.append_left taken).trans hperm
  · rw [hends, List.map_append, List.map_append, htaken, List.map_singleton, List.map_singleton]
    exact congrArg (p.ends.map some ++ [·]) ha
  · rw [hends, List.head?_append, h.head]
    rfl
  · rw [hends, List.pairwise_append]
    refine ⟨h.sorted, List.pairwise_singleton _ e, fun e₁ he₁ e₂ he₂ => ?_⟩
    rw [List.mem_singleton.mp he₂]
    exact Nat.le_trans (h.le_now e₁ he₁) hcoming
  · intro e' he'
    rw [hnow]
    rw [hends, List.mem_append, List.mem_singleton] at he'
    rcases he' with he' | rfl
    · exact Nat.le_trans (h.le_now e' he') hcoming
    · exact Nat.le_refl _
  · rw [hends, hnow]
    exact ⟨e, List.mem_append_right _ (List.mem_singleton_self e), rfl⟩
  · intro b hb e' he'
    rw [hnow]
    exact hle b (hmem b (.inr hb)) e' he'

/-- **Taking any number of ends keeps all that**, and as many actors are running less. -/
theorem IsUnwinding.joinMany {n : Nat} (h : g.IsUnwinding c first p)
    (hjoin : g.joinMany n p = some p') :
    g.IsUnwinding c first p' ∧ p'.running.length + n = p.running.length := by
  induction n generalizing p with
  | zero =>
    obtain rfl : p = p' := Option.some.inj hjoin
    exact ⟨h, rfl⟩
  | succ n ih =>
    obtain ⟨⟨e, p₁⟩, hnext, hrest⟩ := Option.bind_eq_some_iff.mp hjoin
    obtain ⟨a, ht⟩ := exists_takes hnext
    obtain ⟨hdone, hlength⟩ := ih (h.of_takes ht) hrest
    refine ⟨hdone, ?_⟩
    rw [ht.running.length_eq, List.length_cons, ← hlength, Nat.add_assoc]

/-- All running actors can be waited for if each of them comes to an end. -/
theorem exists_joinMany {n : Nat} (hn : p.running.length = n)
    (h : ∀ a ∈ p.running, (g.endOf? p.cancelledAt a).isSome) :
    ∃ p', g.joinMany n p = some p' := by
  induction n generalizing p with
  | zero => exact ⟨p, rfl⟩
  | succ n ih =>
    obtain ⟨a, ha⟩ := List.exists_mem_of_length_pos (l := p.running) (by omega)
    obtain ⟨e, he⟩ := Option.isSome_iff_exists.mp (h a ha)
    obtain ⟨e', p₁, hnext⟩ := exists_joinNext? ha he
    obtain ⟨b, ht⟩ := exists_takes hnext
    have hlength : p₁.running.length = n := by
      have hcons := ht.running.length_eq
      rw [List.length_cons] at hcons
      omega
    obtain ⟨p', hp'⟩ := ih hlength fun b hb => by
      rw [ht.cancelledAt]
      exact h b (ht.running.mem_iff.mpr (List.mem_cons_of_mem _ hb))
    exact ⟨p', Option.bind_eq_some_iff.mpr ⟨_, hnext, hp'⟩⟩

/-! ## The first end -/

/-- The cancellation after the first end, or the one that was there before, makes no difference to
the actor that has ended, and the others end no sooner under it. -/
theorem Takes.cancelledEnd? (ht : g.Takes g.start a first p)
    (hc : c = if g.cancelled then 0 else first.endedAt) :
    p.cancel.cancelledAt = some c ∧ g.cancelledEnd? c a = some first ∧
      ∀ b ∈ p.running, ∀ e, g.cancelledEnd? c b = some e → first.endedAt ≤ e.endedAt := by
  obtain ⟨hrunning, ha, hle, hcancelled, -, hnow⟩ := ht
  have hmem : ∀ b ∈ p.running, b ∈ g.start.running := by
    intro b hb
    exact hrunning.mem_iff.mpr (List.mem_cons_of_mem a hb)
  rw [Progress.cancel, hcancelled]
  cases hg : g.cancelled with
  | true =>
    obtain rfl : c = 0 := by rw [hc, hg, if_pos rfl]
    have hstart : g.start.cancelledAt = some 0 := by rw [start, hg]; rfl
    rw [hstart] at ha hle ⊢
    exact ⟨rfl, ha, fun b hb => hle b (hmem b hb)⟩
  | false =>
    obtain rfl : c = first.endedAt := by rw [hc, hg]; rfl
    have hstart : g.start.cancelledAt = none := by rw [start, hg]; rfl
    rw [hstart] at ha hle ⊢
    exact ⟨congrArg some (hnow.trans (Nat.zero_max _)), cancelledEnd?_of_naturalEnd? hg ha,
      fun b hb e he => le_of_cancelledEnd? (hle b (hmem b hb)) he⟩

/-- After the first end the loop stands as it should, with the cancellation that this end brings or
that was there before. -/
theorem isUnwinding_cancel (h : g.joinNext? g.start = some (first, p)) :
    g.IsUnwinding (if g.cancelled then 0 else first.endedAt) first p.cancel := by
  obtain ⟨a, ht⟩ := exists_takes h
  obtain ⟨hat, hend, hothers⟩ := ht.cancelledEnd? rfl
  have hnow : p.now = first.endedAt := ht.now.trans (Nat.zero_max _)
  have hends : p.cancel.ends = [first] := ht.ends
  refine ⟨hat, ⟨[a], ht.running.symm, ?_⟩, ?_, ?_, ?_, ?_, ?_⟩
  · rw [List.map_singleton, hend, hends, List.map_singleton]
  · rw [hends, List.head?_cons]
  · rw [hends]
    exact List.pairwise_singleton _ first
  · rw [hends]
    intro e he
    rw [List.mem_singleton.mp he]
    exact Nat.le_of_eq hnow.symm
  · rw [hends]
    exact ⟨first, List.mem_singleton_self first, hnow.symm⟩
  · intro b hb e he
    exact Nat.le_trans (Nat.le_of_eq hnow) (hothers b hb e he)

/-- A group with actors takes the first end, cancels, and takes all others. -/
theorem outcome?_eq_some_iff {o : Outcome} (hne : g.actors ≠ []) :
    g.outcome? = some o ↔ ∃ first p p', g.joinNext? g.start = some (first, p) ∧
      g.joinMany p.cancel.running.length p.cancel = some p' ∧
      { ends := p'.ends, first := some first, cancelledAt := p'.cancelledAt,
        resolvedAt := p'.now } = o := by
  rw [outcome?, if_neg hne]
  constructor
  · intro h
    obtain ⟨⟨first, p⟩, hfirst, h⟩ := Option.bind_eq_some_iff.mp h
    obtain ⟨p', hrest, h⟩ := Option.bind_eq_some_iff.mp h
    exact ⟨first, p, p', hfirst, hrest, Option.some.inj h⟩
  · rintro ⟨first, p, p', hfirst, hrest, rfl⟩
    exact Option.bind_eq_some_iff.mpr
      ⟨(first, p), hfirst, Option.bind_eq_some_iff.mpr ⟨p', hrest, rfl⟩⟩

/-- Where the loop of a group with actors ends. -/
theorem exists_isUnwinding {o : Outcome} (hne : g.actors ≠ []) (h : g.outcome? = some o) :
    ∃ first p p', g.joinNext? g.start = some (first, p) ∧
      g.IsUnwinding (if g.cancelled then 0 else first.endedAt) first p' ∧ p'.running = [] ∧
      { ends := p'.ends, first := some first, cancelledAt := p'.cancelledAt,
        resolvedAt := p'.now } = o := by
  obtain ⟨first, p, p', hfirst, hrest, rfl⟩ := (outcome?_eq_some_iff hne).mp h
  obtain ⟨hdone, hlength⟩ := (isUnwinding_cancel hfirst).joinMany hrest
  exact ⟨first, p, p', hfirst, hdone, List.eq_nil_of_length_eq_zero (by omega), rfl⟩

/-- A group with actors comes to an end exactly if some actor comes to its own before there is a
cancellation, or under the one that was there before, and all actors do once there is one. -/
theorem exists_outcome?_iff (hne : g.actors ≠ []) :
    (∃ o, g.outcome? = some o) ↔
      (∃ a ∈ g.actors, (g.endOf? g.start.cancelledAt a).isSome) ∧
        ∀ a ∈ g.actors, ∀ c, (g.cancelledEnd? c a).isSome := by
  constructor
  · rintro ⟨o, ho⟩
    obtain ⟨first, p, p', hfirst, hdone, hnone, -⟩ := exists_isUnwinding hne ho
    obtain ⟨a, ht⟩ := exists_takes hfirst
    refine ⟨⟨a, ht.running.mem_iff.mpr List.mem_cons_self, ?_⟩, fun b hb c => ?_⟩
    · rw [ht.endOf?]
      rfl
    · obtain ⟨taken, hperm, htaken⟩ := hdone.taken
      rw [hnone, List.append_nil] at hperm
      have hend := List.mem_map_of_mem (f := g.cancelledEnd? (if g.cancelled then 0 else
        first.endedAt)) (hperm.mem_iff.mpr hb)
      rw [htaken] at hend
      obtain ⟨e, -, he⟩ := List.mem_map.mp hend
      rw [isSome_cancelledEnd? g b c, ← he]
      rfl
  · rintro ⟨⟨a, ha, hfirst⟩, hall⟩
    obtain ⟨e, he⟩ := Option.isSome_iff_exists.mp hfirst
    obtain ⟨first, p, hnext⟩ := exists_joinNext? (p := g.start) ha he
    obtain ⟨b, ht⟩ := exists_takes hnext
    obtain ⟨p', hrest⟩ := exists_joinMany (p := p.cancel) rfl fun b hb => by
      rw [(isUnwinding_cancel hnext).cancelledAt]
      exact hall b (ht.running.mem_iff.mpr (List.mem_cons_of_mem _ hb)) _
    exact ⟨_, (outcome?_eq_some_iff hne).mpr ⟨first, p, p', hnext, hrest, rfl⟩⟩

/-! ## Nobody else decides -/

/-- Whether an end comes when another does and by the same cause, and is the same one if the other
is the first. -/
structure StandsFor (first e e' : ActorEnd) : Prop where
  endedAt : e'.endedAt = e.endedAt
  cause : e'.cause = e.cause
  eq_first : e = first → e' = first

/-- The earliest of some ends is stood for by the earliest of those that stand for them. -/
theorem minOn?_standsFor {ends ends' : List ActorEnd}
    (h : List.Forall₂ (StandsFor first) ends ends') :
    Option.Rel (StandsFor first) (ends.minOn? (·.endedAt)) (ends'.minOn? (·.endedAt)) := by
  induction h with
  | nil => exact .none
  | @cons x y xs ys hxy _ ih =>
    rw [List.minOn?_cons, List.minOn?_cons]
    generalize xs.minOn? (·.endedAt) = best at ih
    generalize ys.minOn? (·.endedAt) = best' at ih
    cases ih with
    | none => exact .some hxy
    | some hbest =>
      simp only [Option.elim_some, minOn, hxy.endedAt, hbest.endedAt]
      split
      · exact .some hxy
      · exact .some hbest

variable {g' : RunGroup}

/-- Whether the actors of two groups come to ends at the same times and by the same causes, as long
as there is no cancellation but one that is there from the start, and whoever comes to a given end
in the first group does so in the second. -/
structure StartsLike (first : ActorEnd) (g g' : RunGroup) : Prop where
  cancelled : g'.cancelled = g.cancelled
  ends : List.Forall₂ (fun a b => Option.Rel (StandsFor first) (g.endOf? g.start.cancelledAt a)
    (g'.endOf? g'.start.cancelledAt b)) g.actors g'.actors

theorem StartsLike.coming (h : StartsLike first g g') :
    List.Forall₂ (StandsFor first) (g.coming g.start) (g'.coming g'.start) := by
  have hall : List.Forall₂ (StandsFor first)
      (g.actors.filterMap (g.endOf? g.start.cancelledAt))
      (g'.actors.filterMap (g'.endOf? g'.start.cancelledAt)) :=
    List.rel_filterMap (fun _ _ hends => hends) h.ends
  have hcancelled : g'.start.cancelledAt = g.start.cancelledAt := by
    rw [start, start, h.cancelled]
  rw [hcancelled] at hall
  simp only [RunGroup.coming, hcancelled]
  split
  · exact hall
  · have hcause : ∀ {e e'}, StandsFor first e e' → (e.cause = .signal ↔ e'.cause = .signal) := by
      intro e e' he
      rw [he.cause]
    refine List.rel_append (List.rel_filter ?_ hall) (List.rel_filter ?_ hall) <;>
      intro e e' he <;> simp only [decide_eq_true_eq, ne_eq, hcause he]

/-- The first end of a group is that of any other that starts like it. -/
theorem StartsLike.joinNext? (hlike : StartsLike first g g')
    (h : g.joinNext? g.start = some (first, p)) :
    ∃ p', g'.joinNext? g'.start = some (first, p') := by
  obtain ⟨e, hmin, heq⟩ := Option.map_eq_some_iff.mp h
  obtain rfl : e = first := congrArg Prod.fst heq
  have hrel := minOn?_standsFor hlike.coming
  rw [hmin] at hrel
  rcases hmin' : (g'.coming g'.start).minOn? (·.endedAt) with - | e' <;> rw [hmin'] at hrel
  · cases hrel
  · cases hrel with
    | some hstands =>
      rw [RunGroup.joinNext?, hmin', hstands.eq_first rfl, Option.map_some]
      exact ⟨_, rfl⟩

/-- How a group comes out in which one end came first. -/
structure IsDecidedBy (g : RunGroup) (o : Outcome) (first : ActorEnd) : Prop where
  /-- An actor came to it before there was a cancellation, or under the one that was there from the
  start. -/
  comes : ∃ a ∈ g.actors, g.endOf? g.start.cancelledAt a = some first
  /-- With it the cancellation came, unless it was there from the start. -/
  cancelledAt : o.cancelledAt = some (if g.cancelled then 0 else first.endedAt)
  /-- All actors have ended, each as it does under that cancellation. -/
  ends : ∃ actors : List Actor, actors.Perm g.actors ∧
    actors.map (g.endOf? o.cancelledAt) = o.ends.map some
  head : o.ends.head? = some first
  sorted : o.ends.Pairwise fun e e' => e.endedAt ≤ e'.endedAt
  /-- The result is there when the last actor has ended. -/
  le_resolvedAt : ∀ e ∈ o.ends, e.endedAt ≤ o.resolvedAt
  resolvedAt : ∃ e ∈ o.ends, e.endedAt = o.resolvedAt
  /-- It is that of the first actor. -/
  ok : first.ending = .ok → o.result = none
  error : ∀ text, first.ending = .error text → o.result = some [first.name ++ " failed", text]

theorem isDecidedBy_of_outcome? {o : Outcome} (hne : g.actors ≠ []) (h : g.outcome? = some o) :
    ∃ first p, g.joinNext? g.start = some (first, p) ∧ o.first = some first ∧
      g.IsDecidedBy o first := by
  obtain ⟨first, p, p', hfirst, hdone, hnone, rfl⟩ := exists_isUnwinding hne h
  obtain ⟨a, ht⟩ := exists_takes hfirst
  obtain ⟨taken, hperm, htaken⟩ := hdone.taken
  rw [hnone, List.append_nil] at hperm
  refine ⟨first, p, hfirst, rfl, ?_⟩
  exact
    { comes := ⟨a, ht.running.mem_iff.mpr List.mem_cons_self, ht.endOf?⟩
      cancelledAt := hdone.cancelledAt
      ends := ⟨taken, hperm, by rw [hdone.cancelledAt]; exact htaken⟩
      head := hdone.head
      sorted := hdone.sorted
      le_resolvedAt := hdone.le_now
      resolvedAt := hdone.now
      ok := fun hok => by simp only [Outcome.result, Option.bind_some, report, hok]
      error := fun text herror => by
        simp only [Outcome.result, Option.bind_some, report, herror] }

/-- **The first end decides.** A group without actors is done at once, and all is well. A group with
actors is done at some time exactly if some actor ends before there is a cancellation, or under the
one that was there from the start, and every actor ends once there is one. The cancellation comes
with the first end and not before, the result is there when the last actor has ended and not before,
and it is the result of the first, with the name of the actor if it is an error. Whatever else the
other actors do makes no difference to it: another group whose actors come to ends at the same times
as long as nothing is cancelled, and in which the first end is the same, has the same result. -/
theorem first_end_decides (g : RunGroup) :
    (g.actors = [] → ∃ o, g.outcome? = some o ∧ o.result = none ∧ o.ends = [] ∧
      o.resolvedAt = 0 ∧ o.cancelledAt = if g.cancelled then some 0 else none) ∧
    (g.actors ≠ [] →
      ((∃ o, g.outcome? = some o) ↔
        (∃ a ∈ g.actors, (g.endOf? g.start.cancelledAt a).isSome) ∧
          ∀ a ∈ g.actors, ∀ c, (g.cancelledEnd? c a).isSome) ∧
      ∀ o, g.outcome? = some o → ∃ first, o.first = some first ∧ g.IsDecidedBy o first ∧
        ∀ g' o', StartsLike first g g' → g'.outcome? = some o' →
          o'.result = o.result ∧ o'.cancelledAt = o.cancelledAt) := by
  refine ⟨fun hnil => ?_, fun hne => ⟨exists_outcome?_iff hne, fun o ho => ?_⟩⟩
  · rw [outcome?, if_pos hnil]
    exact ⟨_, rfl, rfl, rfl, rfl, rfl⟩
  · obtain ⟨first, p, hfirst, hhead, hdecided⟩ := isDecidedBy_of_outcome? hne ho
    refine ⟨first, hhead, hdecided, fun g' o' hlike ho' => ?_⟩
    have hne' : g'.actors ≠ [] := by
      intro hnil
      have hlength := hlike.ends.length_eq
      rw [hnil] at hlength
      exact hne (List.eq_nil_of_length_eq_zero hlength)
    obtain ⟨p', hfirst'⟩ := hlike.joinNext? hfirst
    obtain ⟨first', q, hq, hhead', hdecided'⟩ := isDecidedBy_of_outcome? hne' ho'
    rw [hfirst'] at hq
    obtain rfl : first = first' := congrArg Prod.fst (Option.some.inj hq)
    exact ⟨by rw [Outcome.result, Outcome.result, hhead, hhead'],
      by rw [hdecided.cancelledAt, hdecided'.cancelledAt, hlike.cancelled]⟩

/-- One actor fails first. That another one fails when it is cancelled, and a third one panics
later, changes nothing. -/
theorem later_failures_decide_nothing :
    let bad : Actor := ⟨"bad", .work (some 10) false (.error "boom") 0 .ok⟩
    let g : RunGroup :=
      { actors := [⟨"waiter", .work none false .ok 5 .ok⟩, bad,
          ⟨"slow", .work (some 30) true .ok 0 .ok⟩] }
    let g' : RunGroup :=
      { actors := [⟨"waiter", .work none false .ok 7 (.error "late")⟩, bad,
          ⟨"slow", .work (some 30) true (.panic "oops") 0 .ok⟩] }
    g.actors ≠ [] ∧ ∃ o o', g.outcome? = some o ∧ g'.outcome? = some o' ∧ o.cancelledAt = some 10 ∧
      o.resolvedAt = 30 ∧ o.result = some ["bad failed", "boom"] ∧ o'.result = o.result := by
  intro bad g g'
  have hne : g.actors ≠ [] := List.cons_ne_nil _ _
  obtain ⟨o, ho, hfirst, hresolved⟩ : ∃ o, g.outcome? = some o ∧
      o.first = some ⟨"bad", .itself, 10, 10, .error "boom"⟩ ∧ o.resolvedAt = 30 :=
    ⟨_, rfl, rfl, rfl⟩
  obtain ⟨o', ho'⟩ : ∃ o', g'.outcome? = some o' := ⟨_, rfl⟩
  obtain ⟨-, hgroup⟩ := first_end_decides g
  obtain ⟨-, hdecides⟩ := hgroup hne
  obtain ⟨first, hhead, hdecided, hsame⟩ := hdecides o ho
  rw [hfirst] at hhead
  obtain rfl := Option.some.inj hhead
  have hlike : StartsLike ⟨"bad", .itself, 10, 10, .error "boom"⟩ g g' :=
    ⟨rfl, .cons .none (.cons (.some ⟨rfl, rfl, fun _ => rfl⟩)
      (.cons (.some ⟨rfl, rfl, by decide⟩) .nil))⟩
  exact ⟨hne, o, o', ho, ho', hdecided.cancelledAt, hresolved, hdecided.error "boom" rfl,
    (hsame g' o' hlike ho').1⟩

end RunGroup

end TokenKeeper
