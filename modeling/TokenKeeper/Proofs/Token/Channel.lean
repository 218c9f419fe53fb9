import TokenKeeper.Token.Channel
import Mathlib.Data.List.Induction
import Mathlib.Data.List.TakeWhile

/-!
# What readers see

All readers of a channel see the token that was written last, whichever reader they were made of and
whenever that was, and they are handed it out exactly while it is of use by the clock
(`readers_see_last_write`). Nothing but a write changes what they see, and that the writer goes
changes nothing at all.

A channel is described by what has happened to it: `Follows` says how, each action keeps it true
(`Follows.step`), and so does a run of any length (`follows_run`).
-/

namespace TokenKeeper

/-- The token that an action writes. -/
def ChannelAction.written? : ChannelAction → Option Token
  | set t => some t
  | publish t => some t
  | _ => none

/-- What an action sets the clock to. -/
def ChannelAction.clock? : ChannelAction → Option Instant
  | clock now => some now
  | _ => none

namespace Channel

/-! ## What a history says -/

/-- The token that was written last in a history. Once the writer is gone nothing is written any
more. -/
def lastWritten? (history : List ChannelAction) : Option Token :=
  ((history.takeWhile (· ≠ .dropWriter)).filterMap ChannelAction.written?).getLast?

/-- What the clock shows after a history that began at an instant. -/
def clockAfter (start : Instant) (history : List ChannelAction) : Instant :=
  (history.filterMap ChannelAction.clock?).getLast?.getD start

section History

variable {history : List ChannelAction}

/-- A history that keeps its writer is kept whole. -/
theorem forall_ne_dropWriter (h : .dropWriter ∉ history) :
    ∀ b ∈ history, decide (b ≠ .dropWriter) = true := by
  intro b hb
  rw [decide_eq_true_eq]
  exact ne_of_mem_of_not_mem hb h

theorem lastWritten?_of_not_mem (h : .dropWriter ∉ history) :
    lastWritten? history = (history.filterMap ChannelAction.written?).getLast? := by
  rw [lastWritten?, List.takeWhile_eq_self_iff.mpr (forall_ne_dropWriter h)]

/-- Nothing that comes after the writer has gone is written. -/
theorem lastWritten?_append_dropWriter (h : .dropWriter ∉ history) (more : List ChannelAction) :
    lastWritten? (history ++ .dropWriter :: more) = lastWritten? history := by
  rw [lastWritten?_of_not_mem h, lastWritten?,
    List.takeWhile_append_of_pos (forall_ne_dropWriter h), List.takeWhile_cons_of_neg (by simp),
    List.append_nil]

variable (a : ChannelAction)

/-- An action writes over what was written before, as long as there is a writer. -/
theorem lastWritten?_concat :
    lastWritten? (history ++ [a]) =
      if .dropWriter ∈ history then lastWritten? history
      else a.written?.or (lastWritten? history) := by
  split
  · rename_i hdropped
    obtain ⟨before, after, rfl, hbefore⟩ := List.eq_append_cons_of_mem hdropped
    rw [List.append_assoc, List.cons_append, lastWritten?_append_dropWriter hbefore,
      lastWritten?_append_dropWriter hbefore]
  · rename_i hwriter
    rcases eq_or_ne a .dropWriter with rfl | ha
    · rw [lastWritten?_append_dropWriter hwriter]
      rfl
    · have hall : .dropWriter ∉ history ++ [a] := by
        rw [List.mem_append, List.mem_singleton, not_or]
        exact ⟨hwriter, ha.symm⟩
      rw [lastWritten?_of_not_mem hall, lastWritten?_of_not_mem hwriter, List.filterMap_append,
        List.getLast?_append]
      cases a <;> rfl

theorem clockAfter_concat (start : Instant) (history : List ChannelAction) :
    clockAfter start (history ++ [a]) = a.clock?.getD (clockAfter start history) := by
  rw [clockAfter, List.filterMap_append, List.getLast?_append]
  cases a <;> rfl

end History

/-! ## Runs -/

theorem run_cons (s : Clocked) (a : ChannelAction) (as : List ChannelAction) :
    run s (a :: as) =
      ((step s a).1 :: (run (step s a).2 as).1, (run (step s a).2 as).2) := by
  rw [run]

theorem run_append (s : Clocked) (as bs : List ChannelAction) :
    run s (as ++ bs) =
      ((run s as).1 ++ (run (run s as).2 bs).1, (run (run s as).2 bs).2) := by
  induction as generalizing s with
  | nil => rfl
  | cons a as ih => rw [List.cons_append, run_cons, run_cons, ih, List.cons_append]

theorem length_run (s : Clocked) (as : List ChannelAction) : (run s as).1.length = as.length := by
  induction as generalizing s with
  | nil => rfl
  | cons a as ih => rw [run_cons, List.length_cons, List.length_cons, ih]

/-- An action is answered in the state that the actions before it lead to. -/
theorem getElem?_run (s : Clocked) (before after : List ChannelAction) (a : ChannelAction) :
    (run s (before ++ a :: after)).1[before.length]? = some (step (run s before).2 a).1 := by
  rw [run_append, List.getElem?_append_right (Nat.le_of_eq (length_run s before)), length_run,
    Nat.sub_self, run_cons, List.getElem?_cons_zero]

/-! ## What one action does -/

theorem snd_step_get (s : Clocked) (reader : Nat) : (step s (.get reader)).2 = s := by
  rw [step]
  rcases s.channel.get? reader s.now with - | t <;> rfl

theorem snd_step_latest (s : Clocked) (reader : Nat) : (step s (.latest reader)).2 = s := by
  rw [step]
  rcases s.channel.latest? reader with - | t <;> rfl

/-- Whether an action makes a reader: a clone of one that there is, or one that the writer makes. -/
def makesReader (c : Channel) : ChannelAction → Bool
  | .clone reader => reader < c.readers
  | .subscribe => c.hasWriter
  | _ => false

/-- **All that an action does.** It writes, if it is a write and there is a writer; it removes the
writer, makes a reader or sets the clock, if that is what it is for; and reading does nothing. -/
theorem snd_step (s : Clocked) (a : ChannelAction) :
    (step s a).2 =
      { channel :=
          { current := if s.channel.hasWriter then a.written?.or s.channel.current
              else s.channel.current
            hasWriter := s.channel.hasWriter && a != .dropWriter
            readers := s.channel.readers + (s.channel.makesReader a).toNat }
        now := a.clock?.getD s.now } := by
  rcases s with ⟨⟨current, hasWriter, readers⟩, now⟩
  cases a with
  | get reader =>
    rw [snd_step_get]
    cases hasWriter <;> rfl
  | latest reader =>
    rw [snd_step_latest]
    cases hasWriter <;> rfl
  | clone reader =>
    cases hasWriter <;> by_cases hr : reader < readers <;>
      simp [step, makesReader, addReader, ChannelAction.written?, ChannelAction.clock?, hr]
  | set t => cases hasWriter <;> rfl
  | publish t => cases hasWriter <;> rfl
  | subscribe => cases hasWriter <;> rfl
  | clock now => cases hasWriter <;> rfl
  | dropWriter => cases hasWriter <;> rfl

/-! ## A channel and its history -/

/-- Whether a state is what a history that began at an instant leads to. -/
structure Follows (start : Instant) (history : List ChannelAction) (s : Clocked) : Prop where
  current : s.channel.current = lastWritten? history
  hasWriter : s.channel.hasWriter = true ↔ .dropWriter ∉ history
  readers_pos : 0 < s.channel.readers
  now : s.now = clockAfter start history

theorem follows_nil (start : Instant) : Follows start [] { now := start } :=
  ⟨rfl, by simp, Nat.zero_lt_one, rfl⟩

section Follows

variable {start : Instant} {history : List ChannelAction} {s : Clocked}

theorem Follows.step (h : Follows start history s) (a : ChannelAction) :
    Follows start (history ++ [a]) (step s a).2 := by
  rw [snd_step]
  refine ⟨?_, ?_, Nat.add_pos_left h.readers_pos _, ?_⟩
  · rw [lastWritten?_concat, h.current]
    by_cases hdropped : .dropWriter ∈ history
    · rw [if_pos hdropped, if_neg fun hwriter => h.hasWriter.mp hwriter hdropped]
    · rw [if_neg hdropped, if_pos (h.hasWriter.mpr hdropped)]
  · rw [Bool.and_eq_true, h.hasWriter, bne_iff_ne, List.mem_append, List.mem_singleton, not_or,
      ne_comm]
  · rw [clockAfter_concat, h.now]

/-- **A state follows from what has happened.** -/
theorem follows_run (start : Instant) (history : List ChannelAction) :
    Follows start history (run { now := start } history).2 := by
  induction history using List.reverseRecOn with
  | nil => exact follows_nil start
  | append_singleton history a ih =>
    rw [run_append]
    exact ih.step a

variable {reader : Nat}

theorem Follows.latest?_eq (h : Follows start history s) (hr : reader < s.channel.readers) :
    s.channel.latest? reader = some (lastWritten? history) := by
  rw [latest?, if_pos hr, h.current]

theorem Follows.step_latest (h : Follows start history s) (hr : reader < s.channel.readers) :
    (Channel.step s (.latest reader)).1 = .token (lastWritten? history) := by
  rw [Channel.step, h.latest?_eq hr]

theorem Follows.step_get (h : Follows start history s) (hr : reader < s.channel.readers) :
    (Channel.step s (.get reader)).1 =
      .token ((lastWritten? history).filter (·.isValidAt (clockAfter start history))) := by
  rw [Channel.step, get?, h.latest?_eq hr, h.now, Option.map_some]

end Follows

/-- **All readers see the last write.** Take a channel to which anything has happened. The readers
that there are then are the first one, and one more for each clone of a reader and each one that the
writer made. Each of them, asked at that point for the latest token, answers the one that was
written last, if any; asked for one to use, it answers that token if it is not empty and its expiry,
if it has one, is ahead of the clock, and otherwise none. What it sees goes on being there whatever
happens, and only a write changes it. -/
theorem readers_see_last_write (start : Instant) (before : List ChannelAction) :
    let s := (run { now := start } before).2
    (0 < s.channel.readers ∧ (s.channel.hasWriter = true ↔ .dropWriter ∉ before) ∧ ∀ a,
      (step s a).2.channel.readers = s.channel.readers + (s.channel.makesReader a).toNat) ∧
    ∀ reader < s.channel.readers,
      (∀ after, (run { now := start } (before ++ .latest reader :: after)).1[before.length]? =
        some (.token (lastWritten? before))) ∧
      (∀ after, ∃ handed,
        (run { now := start } (before ++ .get reader :: after)).1[before.length]? =
          some (.token handed) ∧
        ∀ t, handed = some t ↔ lastWritten? before = some t ∧ t.accessToken ≠ "" ∧
          ∀ e, t.expiry = some e → clockAfter start before < e) ∧
      ∀ a, a.written? = none →
        (step s a).2.channel.latest? reader = some (lastWritten? before) := by
  intro s
  have hs : Follows start before s := follows_run start before
  refine ⟨⟨hs.readers_pos, hs.hasWriter, fun a => by rw [snd_step]⟩,
    fun reader hr => ⟨?_, ?_, ?_⟩⟩
  · intro after
    rw [getElem?_run, hs.step_latest hr]
  · intro after
    refine ⟨_, by rw [getElem?_run, hs.step_get hr], fun t => ?_⟩
    rw [Option.filter_eq_some_iff, Token.isValidAt_iff]
  · intro a ha
    have hkept : lastWritten? (before ++ [a]) = lastWritten? before := by
      rw [lastWritten?_concat, ha, Option.none_or, ite_self]
    rw [(hs.step a).latest?_eq (by rw [snd_step]; exact Nat.lt_add_right _ hr), hkept]

/-- A clone of a clone, made when the writer has gone, sees what the writer wrote after the first of
the two was made, and is handed it out until it expires. -/
theorem late_clone_sees_last_write :
    let second : Token := { accessToken := "second", expiry := some ⟨20⟩ }
    let history : List ChannelAction :=
      [.set { accessToken := "first" }, .clone 0, .publish second, .dropWriter, .clone 1,
        .clock ⟨15⟩]
    2 < (run { now := ⟨0⟩ } history).2.channel.readers ∧
      (run { now := ⟨0⟩ } (history ++ [.get 2])).1[6]? = some (.token (some second)) ∧
      (run { now := ⟨0⟩ } (history ++ [.clock ⟨20⟩] ++ [.get 2])).1[7]? = some (.token none) ∧
      (run { now := ⟨0⟩ } (history ++ [.clock ⟨20⟩] ++ [.latest 2])).1[7]? =
        some (.token (some second)) := by
  intro second history
  have hreader : 2 < (run { now := ⟨0⟩ } history).2.channel.readers := by decide
  have hreader' : 2 < (run { now := ⟨0⟩ } (history ++ [.clock ⟨20⟩])).2.channel.readers := by decide
  obtain ⟨-, hbefore⟩ := readers_see_last_write ⟨0⟩ history
  obtain ⟨-, hafter⟩ := readers_see_last_write ⟨0⟩ (history ++ [.clock ⟨20⟩])
  obtain ⟨-, hget, -⟩ := hbefore 2 hreader
  obtain ⟨hlatest, hget', -⟩ := hafter 2 hreader'
  obtain ⟨handed, hanswer, hhanded⟩ := hget []
  obtain ⟨handed', hanswer', hhanded'⟩ := hget' []
  have hsecond : handed = some second := (hhanded second).mpr (by decide)
  have hnone : handed' = none := by
    rw [Option.eq_none_iff_forall_ne_some]
    intro t ht
    obtain ⟨hlast, -, hahead⟩ := (hhanded' t).mp ht
    obtain rfl : second = t := Option.some.inj hlast
    exact absurd (hahead ⟨20⟩ rfl) (by decide)
  rw [hsecond] at hanswer
  rw [hnone] at hanswer'
  exact ⟨hreader, hanswer, hanswer', hlatest []⟩

end Channel

end TokenKeeper
