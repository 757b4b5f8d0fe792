import ChatClient.Ident
import ChatClient.Time.Timestamp

/-!
# Messages

A message is what the log of a room holds. Its text can be replaced later and the message can be
deleted, which replaces the text as well; who wrote it, when, and what it answers never change. A
message to be sent, a *payload*, has no identity yet: the server gives it one.

## Main definitions

* `Reply`: what a message knows about the one it answers, as it was when the answer was written
* `Message`, `Message.edit`, `Message.delete`
* `Payload`: a message on its way out
-/

namespace ChatClient

/-- The message that another one answers, as far as it is known. -/
structure Reply where
  messageId : MessageId
  author : Option UserId
  body : Option String
  deriving DecidableEq

/-- A message in the log of a room. -/
structure Message where
  id : MessageId
  roomId : RoomId
  author : UserId
  displayName : Option String := none
  /-- The text, or the address of the file. -/
  body : String
  fileUrl : Option String := none
  createdAt : Timestamp
  updatedAt : Option Timestamp := none
  edited : Bool := false
  deleted : Bool := false
  reply : Option Reply := none
  deriving DecidableEq

namespace Message

/-- The text that stands in the place of a deleted one. -/
def deletedBody : String := "This message has been deleted."

/-- The message announces a file. -/
def isFile (m : Message) : Bool := m.fileUrl.isSome

/-- The message with a new text. A deleted message can be edited too and stays deleted. -/
def edit (m : Message) (body : String) (now : Timestamp) : Message :=
  { m with body, edited := true, updatedAt := some now }

/-- The message without its text. Everything else about it is kept. -/
def delete (m : Message) : Message :=
  { m with body := deletedBody, deleted := true }

@[simp] theorem id_edit (m : Message) (body : String) (now : Timestamp) :
    (m.edit body now).id = m.id := rfl

@[simp] theorem id_delete (m : Message) : m.delete.id = m.id := rfl

end Message

/-- What is known about a message by one who answers it. -/
def Reply.to (target : Message) : Reply :=
  ⟨target.id, some target.author, some target.body⟩

/-- What a payload carries. -/
inductive PayloadKind
  | text | file
  deriving DecidableEq, Repr

/-- A message that the local user wants to send. -/
structure Payload where
  kind : PayloadKind
  author : UserId
  roomId : RoomId
  body : String
  reply : Option Reply := none
  deriving DecidableEq

namespace Payload

def text (author : UserId) (roomId : RoomId) (body : String) : Payload :=
  ⟨.text, author, roomId, body, none⟩

/-- A payload that announces the file at the given address. -/
def file (author : UserId) (roomId : RoomId) (url : String) : Payload :=
  ⟨.file, author, roomId, url, none⟩

/-- The payload as an answer to a message. -/
def answering (p : Payload) (target : Message) : Payload :=
  { p with reply := some (Reply.to target) }

end Payload

/-- A payload that waits until the connection of a room opens. The room need not be the one named in
the payload: a payload waits for the room that was active when it was sent. -/
structure QueueEntry where
  room : RoomId
  payload : Payload
  deriving DecidableEq

end ChatClient
