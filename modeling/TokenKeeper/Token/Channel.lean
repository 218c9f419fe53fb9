import TokenKeeper.Token.Basic

/-!
# The live token

A channel from one writer to any number of readers. Every reader, however and whenever it was
made, sees the token that was written last; it is handed out by `get?` while it is of use and by
`latest?` regardless. Readers go on when the writer is gone. `Action` lists what can be done with
a channel, and `Channel.run` does a list of such actions.
-/

namespace TokenKeeper

/-- A channel: what was written last, whether the writer is still there, and how many readers there
are. Readers differ in nothing but their number. -/
structure Channel where
  current : Option Token := none
  hasWriter : Bool := true
  readers : Nat := 1
deriving DecidableEq, Repr

namespace Channel

/-- Write a token. -/
def write (c : Channel) (t : Token) : Channel :=
  { c with current := some t }

/-- What the reader with a number sees, of use or not. The outer `none` means that there is no such
reader. -/
def latest? (c : Channel) (reader : Nat) : Option (Option Token) :=
  if reader < c.readers then some c.current else none

/-- What the reader with a number is handed out at an instant. -/
def get? (c : Channel) (reader : Nat) (now : Instant) : Option (Option Token) :=
  (c.latest? reader).map fun t => t.filter (·.isValidAt now)

/-- One more reader. -/
def addReader (c : Channel) : Channel :=
  { c with readers := c.readers + 1 }

end Channel

/-- What can be done with a channel. -/
inductive ChannelAction where
  /-- The writer writes a token. -/
  | set (t : Token)
  /-- The writer publishes a token as the sink of a refresh loop. -/
  | publish (t : Token)
  | get (reader : Nat)
  | latest (reader : Nat)
  /-- A reader is made of another one. -/
  | clone (reader : Nat)
  /-- A reader is made by the writer. -/
  | subscribe
  /-- The clock is set. -/
  | clock (now : Instant)
  | dropWriter
deriving DecidableEq, Repr

/-- What an action answers. -/
inductive ChannelAnswer where
  | done
  /-- The name of the sink that published. -/
  | published (mode : String)
  | token (t : Option Token)
  /-- The number of readers. -/
  | readers (n : Nat)
  /-- Whether there was a writer. -/
  | dropped (had : Bool)
  | noWriter
  | noReader
deriving DecidableEq, Repr

namespace Channel

/-- The name of the channel as a sink. -/
def mode : String := "proxy"

/-- A channel under a clock. -/
structure Clocked where
  channel : Channel := {}
  now : Instant
deriving DecidableEq, Repr

/-- Do one action. -/
def step (s : Clocked) : ChannelAction → ChannelAnswer × Clocked
  | .set t =>
    if s.channel.hasWriter then (.done, { s with channel := s.channel.write t }) else (.noWriter, s)
  | .publish t =>
    if s.channel.hasWriter then (.published mode, { s with channel := s.channel.write t })
    else (.noWriter, s)
  | .get reader =>
    match s.channel.get? reader s.now with
    | some t => (.token t, s)
    | none => (.noReader, s)
  | .latest reader =>
    match s.channel.latest? reader with
    | some t => (.token t, s)
    | none => (.noReader, s)
  | .clone reader =>
    let c := if reader < s.channel.readers then s.channel.addReader else s.channel
    (.readers c.readers, { s with channel := c })
  | .subscribe =>
    if s.channel.hasWriter then
      (.readers s.channel.addReader.readers, { s with channel := s.channel.addReader })
    else (.noWriter, s)
  | .clock now => (.done, { s with now })
  | .dropWriter =>
    (.dropped s.channel.hasWriter, { s with channel := { s.channel with hasWriter := false } })

/-- Do several actions in order. -/
def run (s : Clocked) : List ChannelAction → List ChannelAnswer × Clocked
  | [] => ([], s)
  | a :: rest =>
    let (answer, s) := step s a
    let (answers, s) := run s rest
    (answer :: answers, s)

end Channel

end TokenKeeper
