import ChatClient.Message
import ChatClient.Time.Rfc3339
import ChatClient.Wire.Frame

/-!
# What the server says

A frame from the server is checked field by field against what its event calls for. An empty text
counts as missing everywhere except as the text of a message. An identifier that is called for must
not be blank; one that is merely allowed is dropped when it is.

## Main definitions

* `Inbound`: what a frame means
* `Inbound.ofFrame`, `Inbound.decode`: the meaning of a frame and of a text
* `Wire.DecodeProblem`: why there is none
* `Incoming.place`: the message that an announced one becomes in the log of a room
-/

namespace ChatClient

namespace Wire

/-- The fields that some event calls for. -/
inductive Demand
  | user | message | roomId | messageId
  deriving DecidableEq, Repr

/-- The name of the field on the wire. -/
def Demand.name : Demand → String
  | user => "User"
  | message => "message"
  | roomId => "room_id"
  | messageId => "message_id"

/-- Why a text has no meaning. -/
inductive DecodeProblem
  | unreadable (problem : Json.Problem)
  | unknownEvent (event : String)
  | missing (event : Event) (field : Demand)
  deriving DecidableEq

/-- What is said about the problem. Nothing is said about a text that is no frame at all. -/
def DecodeProblem.message? : DecodeProblem → Option String
  | unreadable _ => none
  | unknownEvent event => some ("Unknown event '" ++ event ++ "'")
  | missing event field => some (event.name ++ " frame is missing '" ++ field.name ++ "'")

end Wire

open Wire (Frame Event Demand DecodeProblem)

/-- A message as the server announces it. -/
structure Incoming where
  /-- Missing when the frame names none. -/
  id : Option MessageId
  author : UserId
  displayName : Option String
  body : String
  isFile : Bool
  /-- Missing also when the frame has a text that is no time. -/
  createdAt : Option Timestamp
  reply : Option Reply
  deriving DecidableEq

/-- The message in the log of a room. It gets the identifier `fresh` if it has none, and counts as
created now if it does not say when. -/
def Incoming.place (m : Incoming) (room : RoomId) (now : Timestamp) (fresh : MessageId) :
    Message where
  id := m.id.getD fresh
  roomId := room
  author := m.author
  displayName := m.displayName
  body := m.body
  fileUrl := if m.isFile then some m.body else none
  createdAt := m.createdAt.getD now
  reply := m.reply

/-- What a frame from the server means. -/
inductive Inbound
  | message (m : Incoming)
  | edited (messageId : MessageId) (body : String)
  | deleted (messageId : MessageId)
  | typingStarted (author : UserId)
  | typingStopped (author : UserId)
  deriving DecidableEq

namespace Inbound

/-- The event is a message that comes without an identifier. -/
def needsId : Inbound → Bool
  | .message m => m.id.isNone
  | _ => false

/-- An empty text counts as missing. -/
def present (s : Option String) : Option String :=
  s.filter fun s => s != ""

/-- The field of a frame, which must be there. -/
def demand {α : Type} (event : Event) (field : Demand) (a : Option α) : Except DecodeProblem α :=
  match a with
  | some a => .ok a
  | none => .error (.missing event field)

/-- An identifier that may be missing. -/
def ident? (k : IdentKind) (s : Option String) : Option (Ident k) :=
  (present s).bind (Ident.ofText? k)

def reply? (f : Frame) : Option Reply := do
  let messageId ← ident? .message f.replyTo
  return ⟨messageId, ident? .user f.replyToUser, present f.replyToMessage⟩

/-- The meaning of a frame whose event is known. -/
def ofEvent (event : Event) (f : Frame) : Except DecodeProblem Inbound :=
  match event with
  | .message | .fileMessage => do
    let author ← demand event .user (ident? .user f.user)
    let body ← demand event .message f.message
    let _ ← demand event .roomId (present f.roomId)
    return .message {
      id := ((present f.id).or (present f.messageId)).bind (Ident.ofText? .message)
      author, body
      displayName := present f.displayName
      isFile := event == .fileMessage
      createdAt := (present f.createdAt).bind Rfc3339.read?
      reply := reply? f }
  | .edit => do
    let id ← demand event .messageId (ident? .message f.messageId)
    let body ← demand event .message f.message
    return .edited id body
  | .delete => do
    return .deleted (← demand event .messageId (ident? .message f.messageId))
  | .typingStart | .typingStop => do
    let author ← demand event .user (ident? .user f.user)
    let _ ← demand event .roomId (present f.roomId)
    return if event = .typingStart then .typingStarted author else .typingStopped author

/-- The meaning of a frame. -/
def ofFrame (f : Frame) : Except DecodeProblem Inbound :=
  match f.event? with
  | none => .error (.unknownEvent f.event)
  | some event => ofEvent event f

/-- The meaning of a text from the server. -/
def decode (s : String) : Except DecodeProblem Inbound :=
  match Frame.read s with
  | .error problem => .error (.unreadable problem)
  | .ok f => ofFrame f

end Inbound

end ChatClient
