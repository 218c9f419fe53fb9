import TokenKeeper.Text.Quoted

/-!
# Run groups

A group of actors that share one cancellation. The first actor to end cancels the others, the
group waits until all have ended, and its result is that of the first. Time is counted in
milliseconds from the start of the group.

An actor is given by what it would do: when it ends by itself, and how and how long after it sees
the cancellation otherwise. `RunGroup.endOf?` says how it ends as things stand, that is with the
cancellation that has come, if one has. The group's own part is a loop that takes the ends of its
actors as they come: `joinNext?` takes one, and `outcome?` takes the first, cancels and takes the
rest.
-/

namespace TokenKeeper

/-- How an actor ends. -/
inductive Ending where
  | ok
  | error (text : String)
  | panic (text : String)
deriving DecidableEq, Repr

/-- What an actor does. -/
inductive ActorPlan where
  /-- It works until a time, if there is one, or until it sees the cancellation. -/
  | work (until? : Option Nat) (ignoresCancellation : Bool) (ending : Ending) (unwind : Nat)
      (onCancel : Ending)
  /-- It works until a time, then raises a signal and waits for the cancellation. -/
  | raise (at? : Option Nat) (ignoresCancellation : Bool) (ending : Ending) (unwind : Nat)
      (onCancel : Ending)
  /-- It waits for a signal or the cancellation. -/
  | awaitSignal
deriving DecidableEq, Repr

/-- An actor. -/
structure Actor where
  name : String
  plan : ActorPlan
deriving DecidableEq, Repr

/-- What brought an actor to its end. -/
inductive EndCause where
  | signal
  | itself
  | cancellation
deriving DecidableEq, Repr

/-- The order in which causes are listed. -/
def EndCause.rank : EndCause → Nat
  | signal => 0
  | itself => 1
  | cancellation => 2

/-- The end of an actor. -/
structure ActorEnd where
  name : String
  cause : EndCause
  /-- When it was about to end. -/
  notedAt : Nat
  /-- When it had ended. -/
  endedAt : Nat
  ending : Ending
deriving DecidableEq, Repr

/-- A group. -/
structure RunGroup where
  actors : List Actor
  /-- Whether it is cancelled before it starts. -/
  cancelled : Bool := false
deriving DecidableEq, Repr

namespace RunGroup

/-- When a signal is raised, if the cancellation does not come before. -/
def signalAt? (g : RunGroup) : Option Nat :=
  (g.actors.filterMap fun a => match a.plan with
    | .raise at? .. => at?
    | _ => none).min?

/-- The end of an actor that no cancellation reaches; `none` if it never ends. Who has raised a
signal waits for the cancellation. -/
def naturalEnd? (g : RunGroup) (a : Actor) : Option ActorEnd :=
  match a.plan with
  | .work until? _ ending _ _ => until?.map fun time => ⟨a.name, .itself, time, time, ending⟩
  | .raise .. => none
  | .awaitSignal => g.signalAt?.map fun time => ⟨a.name, .signal, time, time, .ok⟩

/-- Whether a time is reached before the cancellation is seen. An actor that ends when the
cancellation comes has ended by itself, but nothing comes before one that was there from the
start. -/
def isReached (g : RunGroup) (time cancelled : Nat) : Bool :=
  !g.cancelled && time ≤ cancelled

/-- The end of an actor under a cancellation at a time; `none` if it never ends. -/
def cancelledEnd? (g : RunGroup) (cancelled : Nat) (a : Actor) : Option ActorEnd :=
  let byCancellation (unwind : Nat) (ending : Ending) : ActorEnd :=
    ⟨a.name, .cancellation, cancelled + unwind, cancelled + unwind, ending⟩
  match a.plan with
  | .work until? ignores ending unwind onCancel =>
    match until? with
    | some time =>
      if ignores || g.isReached time cancelled then some ⟨a.name, .itself, time, time, ending⟩
      else some (byCancellation unwind onCancel)
    | none => if ignores then none else some (byCancellation unwind onCancel)
  | .raise at? ignores ending unwind onCancel =>
    match at? with
    | some time =>
      if ignores || g.isReached time cancelled then
        some ⟨a.name, .itself, time, max time cancelled, ending⟩
      else some (byCancellation unwind onCancel)
    | none => if ignores then none else some (byCancellation unwind onCancel)
  | .awaitSignal => some ⟨a.name, .signal, cancelled, cancelled, .ok⟩

/-- The end of an actor as things stand, with the time of the cancellation if it has come. -/
def endOf? (g : RunGroup) (cancelledAt : Option Nat) (a : Actor) : Option ActorEnd :=
  match cancelledAt with
  | none => g.naturalEnd? a
  | some cancelled => g.cancelledEnd? cancelled a

/-! ## The loop -/

/-- How far the loop of a group has come. -/
structure Progress where
  /-- The actors whose ends have not been taken. -/
  running : List Actor
  /-- When the cancellation came, if it has come. -/
  cancelledAt : Option Nat
  /-- The ends that have been taken, in the order in which they came. -/
  ends : List ActorEnd := []
  /-- When the last of them was taken. -/
  now : Nat := 0
deriving DecidableEq, Repr

/-- The loop before it has taken anything. -/
def start (g : RunGroup) : Progress :=
  { running := g.actors, cancelledAt := if g.cancelled then some 0 else none }

/-- The ends that the running actors will come to as things stand. Of those at one time the first
comes first, and before the cancellation a signal takes longer than anything else. -/
def coming (g : RunGroup) (p : Progress) : List ActorEnd :=
  let ends := p.running.filterMap (g.endOf? p.cancelledAt)
  if p.cancelledAt.isSome then ends
  else ends.filter (·.cause ≠ .signal) ++ ends.filter (·.cause = .signal)

/-- Wait for the next end of an actor and take it; `none` if there will be none. -/
def joinNext? (g : RunGroup) (p : Progress) : Option (ActorEnd × Progress) :=
  ((g.coming p).minOn? (·.endedAt)).map fun e =>
    (e, { p with
      running := p.running.eraseP fun a => g.endOf? p.cancelledAt a = some e
      ends := p.ends ++ [e]
      now := max p.now e.endedAt })

/-- Cancel, unless that has been done. -/
def Progress.cancel (p : Progress) : Progress :=
  { p with cancelledAt := p.cancelledAt.or (some p.now) }

/-- Take a number of ends. -/
def joinMany (g : RunGroup) : Nat → Progress → Option Progress
  | 0, p => some p
  | n + 1, p => (g.joinNext? p).bind fun (_, p) => g.joinMany n p

/-- What comes of a group. -/
structure Outcome where
  /-- The ends of the actors, in the order in which they were taken. -/
  ends : List ActorEnd
  /-- The end that came first, if there are actors. -/
  first : Option ActorEnd
  /-- When the group was cancelled, if it was. -/
  cancelledAt : Option Nat
  /-- When the result was there. -/
  resolvedAt : Nat
deriving DecidableEq, Repr

/-- What comes of a group; `none` if it goes on for ever. -/
def outcome? (g : RunGroup) : Option Outcome :=
  if g.actors = [] then
    some { ends := [], first := none, cancelledAt := g.start.cancelledAt, resolvedAt := 0 }
  else do
    let (first, p) ← g.joinNext? g.start
    let p := p.cancel
    let p ← g.joinMany p.running.length p
    return {
      ends := p.ends, first := some first, cancelledAt := p.cancelledAt, resolvedAt := p.now }

/-- What an end says to those who asked for the group's result: nothing if all is well. -/
def report (e : ActorEnd) : Option (List String) :=
  match e.ending with
  | .ok => none
  | .error text => some [e.name ++ " failed", text]
  | .panic text =>
    some ["actor panicked or was aborted: task N panicked with message " ++ Quoted.encode text]

namespace Outcome

/-- Whether the group was cancelled in the end. -/
def cancelled (o : Outcome) : Bool :=
  o.cancelledAt.isSome

/-- The result of a group: nothing, or what went wrong and why. -/
def result (o : Outcome) : Option (List String) :=
  o.first.bind report

/-- Whether one end is listed before another: by time, then by cause, then by name. -/
def listedBefore (a b : ActorEnd) : Bool :=
  if a.notedAt ≠ b.notedAt then a.notedAt < b.notedAt
  else if a.cause ≠ b.cause then a.cause.rank < b.cause.rank
  else a.name ≤ b.name

/-- The ends in the order in which they are listed. -/
def listed (o : Outcome) : List ActorEnd :=
  o.ends.mergeSort listedBefore

end Outcome

end RunGroup

end TokenKeeper
