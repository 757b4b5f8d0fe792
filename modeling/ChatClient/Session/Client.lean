import ChatClient.Chat.State
import ChatClient.Config
import ChatClient.Connection.Machine
import ChatClient.Queue.Outbox
import ChatClient.Session.Network
import ChatClient.Wire.Outbound

/-!
# The client

The client keeps one room connected. It handles one event at a time: a command of its user, the
outcome of an attempt, a text from the server, the end of a link, or the end of a wait. What cannot
be sent at once goes to the outbox and is sent when the room is connected again.

Every time the client leaves a room it starts a new session with a new number, the *epoch*. Outcomes
carry the epoch of their attempt, so one that belongs to a room that was left is recognised and its
link closed.

## Main definitions

* `Session`: what the client itself knows
* `Client`: the session with the world it acts on
* `Event`, `Client.handle`: what can happen and what the client does then
-/

namespace ChatClient

/-- Who the user is and how the client was set up. -/
structure Profile where
  user : UserId
  credential : Option Credential := none
  serverUrl : String
  flushPolicy : FlushPolicy := .retainOtherRooms
  deriving DecidableEq

/-- Where this user connects a room. -/
def Profile.endpoint (p : Profile) (room : RoomId) : Endpoint :=
  ⟨p.serverUrl, room, p.credential⟩

/-- What the client itself knows. -/
structure Session where
  profile : Profile
  machine : Machine
  /-- The room that is to be connected. -/
  room : Option RoomId := none
  epoch : UInt64 := 0
  /-- The link in use, by its number. -/
  link : Option Nat := none
  /-- The attempt whose outcome is awaited, by its number. -/
  pending : Option Nat := none
  /-- When the next attempt is due. -/
  timer : Option Nat := none
  outbox : Outbox := {}
  chat : Chat := {}
  /-- How many identifiers were given out to messages without one. -/
  minted : Nat := 0
  /-- The state of the connection as others see it. -/
  published : ConnectionState := .idle
  /-- How often it has changed. -/
  publications : Nat := 0
  /-- The changes of the chat that were announced. -/
  feed : List ChatUpdate := []
  /-- No more commands are taken. -/
  stopped : Bool := false

/-- The session with the world it acts on. Times are in milliseconds since the start. -/
structure Client extends Session, Network where
  now : Nat := 0
  /-- What a clock on the wall shows. -/
  clock : Timestamp := .epoch
  disk : Disk := {}

/-- What the user of the client asks for. -/
inductive SessionCommand
  | select (room : Option RoomId)
  | send (p : Payload)
  | typing (on : Bool)
  /-- Asked for also by giving up the client. -/
  | shutdown
  deriving DecidableEq

/-- What can happen. -/
inductive Event
  | command (c : SessionCommand)
  | outcome (o : Outcome)
  | text (s : String)
  | linkClosed
  | timer
  deriving DecidableEq

namespace Client

/-- Lets others see the state of the connection. -/
def publish (c : Client) : Client :=
  { c with
    published := c.machine.state
    -- Those who watch are woken only by a state that is new.
    publications :=
      if c.published = c.machine.state then c.publications else c.publications + 1 }

/-- Hands a frame to the link in use. Says whether it was taken. -/
def transmit (c : Client) (f : Wire.Frame) : Client × Bool :=
  match c.link with
  | none => (c, false)
  | some i =>
    let sent := c.toNetwork.transmit i f
    ({ c with toNetwork := sent.1 }, sent.2)

/-- An attempt to connect a room, made now. -/
def attempt (c : Client) (room : RoomId) : Attempt where
  startedAt := c.now
  endpoint := c.profile.endpoint room
  epoch := c.epoch

/-- Starts an attempt for the room of the session. -/
def connect (c : Client) : Client :=
  match c.room with
  | none => c
  | some room =>
    { c with
      attempts := c.attempts ++ [c.attempt room]
      pending := some c.attempts.length }

/-- Sends entries until one is not taken. Returns that one and those after it. -/
def transmitAll (c : Client) : List QueueEntry → Client × List QueueEntry
  | [] => (c, [])
  | e :: es =>
    match c.transmit e.payload.frame with
    | (c, true) => c.transmitAll es
    | (c, false) => (c, e :: es)

/-- The client after an operation of its outbox. -/
def withOutbox {α : Type} (c : Client) (done : Outbox × Disk × α) : Client :=
  { c with outbox := done.1, disk := done.2.1 }

/-- Takes everything out of the outbox if nothing is to be kept for other rooms. -/
def dropOthers (c : Client) : Client :=
  if c.profile.flushPolicy = .dropOtherRooms then
    c.withOutbox (c.outbox.flush c.disk fun _ => true)
  else c

/-- Sends entries that are no longer in the outbox. What is not taken goes back to the front. -/
def transmitOrRequeue (c : Client) (entries : List QueueEntry) : Client :=
  match c.transmitAll entries with
  | (c, []) => c
  | (c, left) => c.withOutbox (c.outbox.requeueFront c.disk left)

/-- Sends what waits for the room. What waits for others may be dropped. -/
def flushQueue (c : Client) : Client :=
  match c.room with
  | none => c
  | some room =>
    let flushed := c.outbox.flush c.disk fun e => e.room == room
    match flushed.2.2 with
    | .error _ => c.withOutbox flushed
    | .ok entries => (c.withOutbox flushed).dropOthers.transmitOrRequeue entries

/-- What is noted when a retry is planned. As on the screen, attempts are counted from one. The note
is made up only where somebody keeps a log. -/
def note? : ConnectionAction → Except Overflow (Option String)
  | .scheduleReconnect attempt delay => do
    let number ← ordinal attempt
    return some ("Reconnecting in " ++ toString delay ++ " ms (attempt " ++ toString number.toNat ++
      ")")
  | _ => .ok none

/-- Does what the machine asks for. -/
def execute (c : Client) : Option ConnectionAction → Client
  | none => c
  | some .connect => c.connect
  | some .flushQueue => c.flushQueue
  | some (.scheduleReconnect _ delay) =>
    { c with timer := some (c.now + delay) }

/-- Takes a transition of the machine and does what it asks for. -/
def proceed (c : Client) (transition : Machine → Machine × Option ConnectionAction) : Client :=
  let done := transition c.machine
  { c with machine := done.1 }.execute done.2

/-- Takes a transition of the machine. The new state is announced before that is done what the
machine asks for. -/
def announce (c : Client) (transition : Machine → Machine × Option ConnectionAction) : Client :=
  let done := transition c.machine
  ({ c with machine := done.1 }.publish.execute done.2).publish

/-- What is left of the network when the client gives up its attempt and closes its link. -/
def withdraw (c : Client) : Network :=
  let n :=
    match c.pending with
    | none => c.toNetwork
    | some i => c.toNetwork.abort i
  match c.link with
  | none => n
  | some i => n.onLink i Link.close

/-- Ends the session: nothing that was begun in it goes on. -/
def teardown (c : Client) : Client :=
  { c with
    epoch := c.epoch + 1
    timer := none
    pending := none
    link := none
    toNetwork := c.withdraw
    machine := c.machine.teardown : Client }.publish

/-- The room is the one that is connected already. -/
def stays (c : Client) (room : Option RoomId) : Bool :=
  room = c.room && c.machine.state != .idle

/-- Begins to connect the room of the session, if there is one. -/
def begin (c : Client) : Client :=
  if c.room.isSome then c.proceed Machine.start else c

/-- Makes a room the one that is connected. Nothing happens if it is already. -/
def select (c : Client) (room : Option RoomId) : Client :=
  if c.stays room then c else { c.teardown with room }.begin.publish

/-- Puts a payload into the outbox, for the room of the session or else for its own. -/
def enqueue (c : Client) (p : Payload) : Client :=
  c.withOutbox (c.outbox.enqueue c.disk ⟨c.room.getD p.roomId, p⟩)

/-- Sends a payload, at once if it can be. -/
def send (c : Client) (p : Payload) : Client :=
  if c.machine.state.isOpen then
    match c.transmit p.frame with
    | (c, true) => c
    | (c, false) => c.enqueue p
  else c.enqueue p

/-- Tells the room that the user has begun or stopped typing, if it is connected. -/
def sendTyping (c : Client) (on : Bool) : Client :=
  match c.room with
  | none => c
  | some room =>
    if c.machine.state.isOpen then (c.transmit (typingFrame c.profile.user room on)).1 else c

/-- Ends the session, takes no more commands and looks at no more outcomes. -/
def shutdown (c : Client) : Client :=
  let c := c.teardown
  { c with toNetwork := c.toNetwork.dropOutcomes, stopped := true }

def handleCommand (c : Client) : SessionCommand → Client
  | .select room => c.select room
  | .send p => c.send p
  | .typing on => c.sendTyping on
  | .shutdown => c.shutdown

/-- Looks at the outcome of an attempt. The link of an attempt that belongs to an earlier session is
closed. -/
def handleOutcome (c : Client) (o : Outcome) : Client :=
  if o.epoch = c.epoch then
    match o.link with
    | some i => { c with pending := none, link := some i }.announce Machine.opened
    | none => { c with pending := none }.announce Machine.closed
  else { c with toNetwork := c.toNetwork.dropOutcome o }

/-- Lets the chat of the room know what a text from the server says. A text without meaning is
dropped. -/
def handleText (c : Client) (s : String) : Client :=
  match c.room, Inbound.decode s with
  | some room, .ok event =>
    let (chat, updates) :=
      c.chat.apply room c.profile.user event c.clock (MessageId.minted c.minted)
    { c with
      chat
      feed := c.feed ++ updates
      minted := if event.needsId then c.minted + 1 else c.minted }
  | _, _ => c

/-- The server has ended the link. -/
def handleLinkClosed (c : Client) : Client :=
  ({ c with link := none }.proceed Machine.closed).publish

/-- The wait before the next attempt is over. -/
def handleTimer (c : Client) : Client :=
  ({ c with timer := none }.proceed Machine.timerElapsed).publish

/-- What the client does when something happens. -/
def handle (c : Client) : Event → Client
  | .command command => c.handleCommand command
  | .outcome o => c.handleOutcome o
  | .text s => c.handleText s
  | .linkClosed => c.handleLinkClosed
  | .timer => c.handleTimer

/-- The link in use. -/
def currentLink? (c : Client) : Option Link :=
  c.link.bind fun i => c.links[i]?

/-- The client before anything has happened. -/
def start (profile : Profile) (backoff : Backoff) (outbox : Outbox) (chat : Chat) (disk : Disk)
    (clock : Timestamp) : Client :=
  { profile, machine := { backoff }, outbox, chat, disk, clock }

end Client

end ChatClient
