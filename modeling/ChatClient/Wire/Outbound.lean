import ChatClient.Message
import ChatClient.Wire.Frame

/-!
# What the client says

Two kinds of frames go to the server: payloads, and signals that the local user has begun or stopped
typing.

## Main definitions

* `Payload.frame`, `typingFrame`
-/

namespace ChatClient

open Wire (Frame Event)

def PayloadKind.event : PayloadKind → Event
  | .text => .message
  | .file => .fileMessage

/-- The frame of a payload. -/
def Payload.frame (p : Payload) : Frame where
  event := p.kind.event.name
  user := some p.author.text
  message := some p.body
  roomId := some p.roomId.text
  replyTo := p.reply.map fun r => r.messageId.text
  replyToMessage := p.reply.bind Reply.body
  replyToUser := p.reply.bind fun r => r.author.map Ident.text

/-- The frame that says whether a user is typing in a room. -/
def typingFrame (user : UserId) (room : RoomId) (typing : Bool) : Frame where
  event := (if typing then Event.typingStart else Event.typingStop).name
  user := some user.text
  roomId := some room.text

end ChatClient
