import ChatClient.Failure
import ChatClient.Session.Simulation
import ChatClient.Terminal.Screen

/-!
# The terminal and its client in virtual time

The terminal and the client take turns: what a line asks for is done by the client at once, and
after everything that the client does the terminal shows what was announced meanwhile. A state that
the client announces and replaces in one go is shown only as what it was replaced by.

A state that cannot be shown breaks the program down.

## Main definitions

* `Stage`, `Stage.start`
* `Stage.line`, `Stage.wait`, `Stage.leave`, `Stage.apply`
* `Stage.Act`, `Stage.play`: what is done one after the other
-/

namespace ChatClient

/-- A terminal with its client and all that surrounds it. -/
structure Stage where
  simulation : Simulation
  screen : Screen
  /-- How many changes of the chat have been looked at. -/
  shown : Nat := 0
  /-- How many states of the connection had been announced when it was last looked at. -/
  seen : Nat := 0
  /-- Everything printed so far. -/
  output : String := ""
  /-- The user has left. -/
  done : Bool := false

namespace Stage

def client (st : Stage) : Client := st.simulation.client

def print (st : Stage) (text : String) : Stage := { st with output := st.output ++ text }

/-- Shows the changes of the chat that have not been looked at. -/
def showUpdates (st : Stage) : Stage :=
  let feed := st.client.feed
  let texts := (feed.drop st.shown).map (st.screen.update st.client.chat)
  { st.print (String.join texts) with shown := feed.length }

/-- Shows the state of the connection if it was announced. -/
def showConnection (st : Stage) : Except Overflow Stage :=
  if st.client.publications = st.seen then .ok st
  else do
    let text ← st.screen.connection st.client.chat st.client.published
    return { st.print text with seen := st.client.publications }

/-- Shows everything that was announced. Nothing is shown to a user who has left. -/
def refresh (st : Stage) : Except Overflow Stage :=
  if st.done then .ok st else st.showUpdates.showConnection

/-- The client handles a command. -/
def command (st : Stage) (c : SessionCommand) : Except Overflow Stage :=
  { st with simulation := st.simulation.command c }.refresh

/-- The user leaves. -/
def leave (st : Stage) : Except Overflow Stage :=
  if st.done then .ok st
  else
    let reaction := st.screen.leave
    reaction.commands.foldlM command { st with done := true, screen := reaction.screen }

/-- Does what a line or the passing of time asks for. -/
def react (st : Stage) (reaction : Reaction) : Except Overflow Stage := do
  let st := { st.print reaction.output with screen := reaction.screen }
  let st ← reaction.commands.foldlM command st
  if reaction.quit then st.leave else return st

/-- The next thing that can happen without time passing. A client that does not have to wait before
it acts again does so in one go. -/
def advance? (st : Stage) : Except Overflow (Option Stage) :=
  match st.simulation.advance? with
  | some simulation =>
    -- A timer that is due by now was set by what has just happened.
    some <$> { st with simulation := simulation.timer?.getD simulation }.refresh
  | none =>
    if !st.done && st.screen.debouncer.isDue st.client.now then
      some <$> st.react (st.screen.poll st.client.now)
    else .ok none

/-- Lets everything happen that can happen without time passing, at most `fuel` things. -/
def settleFrom : (fuel : Nat) → Stage → Except Overflow Stage
  | 0, st => .ok st
  | fuel + 1, st => do
    match ← st.advance? with
    | none => return st
    | some st => settleFrom fuel st

/-- Lets everything happen that can happen without time passing. -/
def settle (st : Stage) : Except Overflow Stage := settleFrom (st.simulation.patience + 2) st

/-- A line was typed. Lines of blanks are passed over, and so are those that come too late. -/
def line (st : Stage) (text : String) : Except Overflow Stage :=
  let text := Text.trim text
  if st.done || text.isEmpty then .ok st
  else st.react (st.screen.enter st.client.chat st.client.published st.client.now text)

/-- The time at which the client or the terminal wants to act by itself. -/
def due? (st : Stage) : Option Nat :=
  let typing := if st.done then none else st.screen.debouncer.deadline
  match st.simulation.due?, typing with
  | some a, some b => some (min a b)
  | some a, none => some a
  | none, b => b

def atTime (st : Stage) (now : Nat) : Stage :=
  { st with simulation := st.simulation.atTime now }

/-- Lets time pass until `deadline`. Client and terminal act whenever their time comes, at most
`fuel` times. -/
def waitFrom : (fuel : Nat) → (deadline : Nat) → Stage → Except Overflow Stage
  | 0, deadline, st => .ok (st.atTime deadline)
  | fuel + 1, deadline, st =>
    match st.due? with
    | none => .ok (st.atTime deadline)
    | some due =>
      if due ≤ deadline then do waitFrom fuel deadline (← (st.atTime due).settle)
      else .ok (st.atTime deadline)

/-- Lets time pass. -/
def wait (st : Stage) (ms : Nat) : Except Overflow Stage :=
  waitFrom (st.simulation.script.length + 4) (st.client.now + ms) st

/-- Does something to the world. -/
def apply (st : Stage) (step : WorldStep) : Stage × Except FileError (Option Bool) :=
  let (simulation, result) := st.simulation.apply step
  ({ st with simulation }, result)

/-- A terminal that has just been started with its client. -/
def start (user : UserId) (credential : Option Credential) (room : RoomId) (config : Config)
    (disk : Disk) (clock : Timestamp) (script : List (Option Handshake)) :
    Except FileError Stage := do
  let outbox ← config.outbox disk.tree
  let profile : Profile := {
    user, credential
    serverUrl := config.serverUrl
    flushPolicy := config.flushPolicy }
  let client := Client.start profile config.backoff outbox {} disk clock
  return {
    simulation := { client, script }
    screen := { user, room, debouncer := { idle := config.typingIdle } } }

/-- The first thing that the terminal does: it greets the user and asks for the room. -/
def enterRoom (st : Stage) : Except Overflow Stage :=
  (st.print (Display.greeting st.screen.user)).command (.select (some st.screen.room))

/-- What can be done with a terminal. -/
inductive Act
  | line (text : String)
  /-- There are no more lines. -/
  | leave
  | world (w : WorldStep)
  | wait (ms : Nat)
  | settle

def act (st : Stage) : Act → Except Overflow Stage
  | .line text => st.line text
  | .leave => st.leave
  | .world w => .ok (st.apply w).1
  | .wait ms => st.wait ms
  | .settle => st.settle

/-- Does one thing after the other. -/
def play (st : Stage) (acts : List Act) : Except Overflow Stage := acts.foldlM act st

end Stage

end ChatClient
