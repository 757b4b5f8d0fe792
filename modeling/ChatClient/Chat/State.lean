import ChatClient.Chat.RoomTable
import ChatClient.Wire.Inbound

/-!
# What is known about the rooms

For every room the client keeps the log of its messages, in the order in which they arrived, and the
users who are typing, in the order in which they started. The log is never sorted, and two messages
in it may have the same identifier; an edit or a deletion then concerns both.

## Main definitions

* `Chat`: the logs and the typing users of all rooms
* `Chat.append`, `Chat.receive`, `Chat.edit`, `Chat.delete`, `Chat.setTyping`, `Chat.replaceLog`
* `Chat.apply`: what an event from the server does, with the list of the changes it makes
-/

namespace ChatClient

/-- The logs and the typing users of all rooms. -/
structure Chat where
  logs : RoomTable Message := {}
  typists : RoomTable UserId := {}

/-- A change that someone who shows the chat has to know about. -/
inductive ChatUpdate
  | appended (room : RoomId) (message : Message)
  /-- All messages with the identifier have a new text. -/
  | edited (room : RoomId) (messageId : MessageId)
  | deleted (room : RoomId) (messageId : MessageId)
  /-- Exactly these users are typing now. -/
  | typing (room : RoomId) (users : List UserId)
  deriving DecidableEq

namespace Chat

def empty : Chat := {}

/-- The messages of the room in the order of their arrival. -/
def log (chat : Chat) (room : RoomId) : List Message := chat.logs.get room

/-- The users typing in the room in the order in which they started. -/
def typing (chat : Chat) (room : RoomId) : List UserId := chat.typists.get room

def isTyping (chat : Chat) (room : RoomId) (user : UserId) : Bool :=
  user ∈ chat.typing room

/-- The room with another log. -/
def replaceLog (chat : Chat) (room : RoomId) (messages : List Message) : Chat :=
  { chat with logs := chat.logs.set room messages }

/-- The room with one more message, whether or not its identifier is new. -/
def append (chat : Chat) (room : RoomId) (m : Message) : Chat :=
  { chat with logs := chat.logs.update room (· ++ [m]) }

/-- Some message of the room has the identifier. -/
def mentions (chat : Chat) (room : RoomId) (id : MessageId) : Bool :=
  (chat.log room).any fun m => m.id == id

/-- Changes every message of the room that has the identifier. -/
def modify (chat : Chat) (room : RoomId) (id : MessageId) (f : Message → Message) : Chat :=
  { chat with logs := chat.logs.update room (·.map fun m => if m.id = id then f m else m) }

/-- Edits every message of the room that has the identifier, and says whether there was one. -/
def edit (chat : Chat) (room : RoomId) (id : MessageId) (body : String) (now : Timestamp) :
    Chat × Bool :=
  (chat.modify room id (·.edit body now), chat.mentions room id)

/-- Deletes every message of the room that has the identifier, and says whether there was one. -/
def delete (chat : Chat) (room : RoomId) (id : MessageId) : Chat × Bool :=
  (chat.modify room id Message.delete, chat.mentions room id)

/-- Notes that a user is typing or no longer typing, and says whether that is news. -/
def setTyping (chat : Chat) (room : RoomId) (user : UserId) (on : Bool) : Chat × Bool :=
  if chat.isTyping room user = on then (chat, false)
  else
    let change := if on then (· ++ [user]) else List.filter (· != user)
    ({ chat with typists := chat.typists.update room change }, true)

/-- Appends a message that has just been written, so that its author is no longer typing. Says
whether that changes who is typing. -/
def receive (chat : Chat) (room : RoomId) (m : Message) : Chat × Bool :=
  (chat.append room m).setTyping room m.author false

/-- The announcement of who is typing, if it has changed. -/
def typingUpdate (room : RoomId) : Chat × Bool → List ChatUpdate
  | (_, false) => []
  | (chat, true) => [.typing room (chat.typing room)]

/-- What an event from the server does to the room, and the changes it makes. That the local user
has started typing is not news. A message without an identifier gets `fresh`. -/
def apply (chat : Chat) (room : RoomId) (localUser : UserId) (event : Inbound) (now : Timestamp)
    (fresh : MessageId) : Chat × List ChatUpdate :=
  match event with
  | .message incoming =>
    let m := incoming.place room now fresh
    let received := chat.receive room m
    (received.1, .appended room m :: typingUpdate room received)
  | .edited id body =>
    let (chat, found) := chat.edit room id body now
    (chat, if found then [.edited room id] else [])
  | .deleted id =>
    let (chat, found) := chat.delete room id
    (chat, if found then [.deleted room id] else [])
  | .typingStarted user =>
    if user = localUser then (chat, [])
    else
      let changed := chat.setTyping room user true
      (changed.1, typingUpdate room changed)
  | .typingStopped user =>
    let changed := chat.setTyping room user false
    (changed.1, typingUpdate room changed)

/-! ## Each operation as seen through the logs and the typing users -/

section Views

variable (chat : Chat) {room other : RoomId}

@[simp] theorem log_empty : empty.log room = [] := rfl

@[simp] theorem typing_empty : empty.typing room = [] := rfl

@[simp] theorem log_replaceLog (messages : List Message) :
    (chat.replaceLog room messages).log room = messages := by
  simp [log, replaceLog]

@[simp] theorem log_append (m : Message) :
    (chat.append room m).log room = chat.log room ++ [m] := by
  simp [log, append]

@[simp] theorem log_modify (id : MessageId) (f : Message → Message) :
    (chat.modify room id f).log room =
      (chat.log room).map fun m => if m.id = id then f m else m := by
  simp [log, modify]

theorem log_replaceLog_of_ne (h : other ≠ room) (messages : List Message) :
    (chat.replaceLog room messages).log other = chat.log other := by
  simp [log, replaceLog, h]

theorem log_append_of_ne (h : other ≠ room) (m : Message) :
    (chat.append room m).log other = chat.log other := by
  simp [log, append, h]

theorem log_modify_of_ne (h : other ≠ room) (id : MessageId) (f : Message → Message) :
    (chat.modify room id f).log other = chat.log other := by
  simp [log, modify, h]

@[simp] theorem log_setTyping (user : UserId) (on : Bool) :
    (chat.setTyping room user on).1.log other = chat.log other := by
  unfold setTyping
  split <;> rfl

/-- Afterwards the user is typing exactly if that is what was noted. -/
theorem isTyping_setTyping (user : UserId) (on : Bool) :
    (chat.setTyping room user on).1.isTyping room user = on := by
  unfold setTyping
  split
  · assumption
  · cases on <;> simp [isTyping, typing]

end Views

end Chat

end ChatClient
