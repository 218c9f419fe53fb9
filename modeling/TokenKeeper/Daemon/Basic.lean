import TokenKeeper.Daemon.Startup
import TokenKeeper.Refresh.Loop

/-!
# The program

The whole program: startup, and then one refresh loop for each sink that the settings ask for, all
of them with the same issuer, until a signal comes. `Daemon.run` goes through it with a signal
that comes as soon as something can be seen from outside. It need not end: the signal may never come,
and nobody listens to it while the program waits for an issuer that never responds.
-/

namespace TokenKeeper.Daemon

open Startup

/-- The version of the program. -/
def version : String := "0.1.0"

/-- What the program says when it is asked for its version. -/
def versionText : String :=
  "token-refresher " ++ version ++ "\n"

/-- What is left when the program has ended. -/
structure Report where
  exitCode : Nat
  /-- What it has printed. -/
  printed : String := ""
  /-- What it has said about a failure. -/
  failure : Option String := none
  machine : Machine
deriving DecidableEq, Repr

/-- When the signal comes: as soon as the server has seen some requests and a file is there. -/
structure StopCondition where
  requests : Nat
  file : Option String := none
deriving DecidableEq, Repr

/-- Whether the signal comes now. -/
def StopCondition.holds (c : StopCondition) (m : Machine) : Bool :=
  c.requests ≤ m.exchange.network.seen.length &&
    c.file.all fun path => (m.tree.find? (FileTree.placeOfText path)).isSome

/-- The loops at the start: one for the file and one for the proxy, as far as they are asked for. -/
def loops (w : Wiring) (tree : FileTree) : List LoopState :=
  (w.settings.file.map fun f => { sink := .file f tree }).toList ++
    (w.proxy.map fun _ => { sink := .channel {} }).toList

/-- One turn of a loop. Its fetch goes over the machine's network and takes no time, unless nothing
ever comes of it; then there is no state after it. -/
def turn (w : Wiring) (startedAt : Instant) (m : Machine) (s : LoopState) :
    Machine × Option LoopState :=
  match w.source.fetch m.exchange (startedAt.after (.millis s.time)) with
  | (none, exchange) => ({ m with exchange }, none)
  | (some result, exchange) =>
    let setup : LoopSetup :=
      { policy := { margin := w.settings.margin }
        source := fun _ => { result := fun _ => result }
        startedAt }
    let sink := match s.sink with
      | .file f _ => .file f m.tree
      | sink => sink
    let s := (setup.turn { s with sink }).2
    let tree := match s.sink with
      | .file _ tree => tree
      | _ => m.tree
    ({ m with exchange, tree }, some s)

/-- The index of the loop whose turn is next, of several the first. -/
def next (ls : List LoopState) : Nat :=
  (ls.zipIdx.foldl
    (fun best (s, i) =>
      match best with
      | some (t, j) => if s.time < t then some (s.time, i) else some (t, j)
      | none => some (s.time, i))
    none).elim 0 (·.2)

/-- Turns of the loops until the signal comes, at most `fuel` of them; `none` if it has not come by
then. A loop that waits for ever has no more turns. -/
def work (w : Wiring) (startedAt : Instant) (stop : StopCondition) :
    Nat → Machine → List LoopState → Option Machine
  | 0, m, _ => if stop.holds m then some m else none
  | fuel + 1, m, ls =>
    if stop.holds m then some m
    else
      match ls[next ls]? with
      | none => none
      | some s =>
        match turn w startedAt m s with
        | (m, some s) => work w startedAt stop fuel m (ls.set (next ls) s)
        | (m, none) => work w startedAt stop fuel m (ls.eraseIdx (next ls))

/-- The report on a program that did not start to work. -/
def refused (m : Machine) : Refusal → Report
  | .flags .helpWanted => { exitCode := 0, machine := m }
  | .flags .versionWanted => { exitCode := 0, printed := versionText, machine := m }
  | .flags _ => { exitCode := 2, machine := m }
  | .failure f => { exitCode := 1, failure := some f.text, machine := m }

/-- Run the program until it ends; `none` means that it never does. A turn brings a request to the
server or none ever will, so the number of requests to wait for and of replies to come is enough
fuel. -/
def run (arguments : List String) (environment : List (String × String)) (startedAt : Instant)
    (stop : StopCondition) (m : Machine) : Option Report :=
  match start arguments environment m with
  | (none, _) => none
  | (some (.error refusal), m) => some (refused m refusal)
  | (some (.ok w), m) =>
    let fuel := stop.requests + m.exchange.network.replies.length + 1
    (work w startedAt stop fuel m (loops w m.tree)).map fun m => { exitCode := 0, machine := m }

end TokenKeeper.Daemon
