import ChatClient.Json.Record
import ChatClient.Json.Write

/-!
# Frames on the wire

Everything that client and server say to each other is a frame: a flat JSON object whose field
`Event` tells what it means. All other fields are texts that may be missing here; which of them an
event calls for is decided when the frame is given a meaning.

## Main definitions

* `Wire.Event`: the events that have a meaning
* `Wire.Frame`, `Wire.Frame.write`, `Wire.Frame.read`: frames and their written form
-/

namespace ChatClient.Wire

/-- What a frame can be about. -/
inductive Event
  | message | fileMessage | edit | delete | typingStart | typingStop
  deriving DecidableEq, Repr

namespace Event

def all : List Event := [message, fileMessage, edit, delete, typingStart, typingStop]

/-- The name of the event on the wire. -/
def name : Event → String
  | message => "MSG"
  | fileMessage => "MSG_FILE"
  | edit => "MSG_EDIT"
  | delete => "MSG_DELETE"
  | typingStart => "TYPING_START"
  | typingStop => "TYPING_STOP"

def ofName? (s : String) : Option Event :=
  all.find? fun e => e.name == s

@[simp] theorem ofName?_name (e : Event) : ofName? e.name = some e := by
  cases e <;> decide

end Event

/-- The fields of a frame that may be missing. -/
structure Parts where
  user : Option String := none
  message : Option String := none
  roomId : Option String := none
  messageId : Option String := none
  id : Option String := none
  displayName : Option String := none
  createdAt : Option String := none
  replyTo : Option String := none
  replyToMessage : Option String := none
  replyToUser : Option String := none
  deriving DecidableEq

/-- One frame. -/
structure Frame extends Parts where
  event : String
  deriving DecidableEq

namespace Frame

/-- The event of the frame, if it is one that has a meaning. -/
def event? (f : Frame) : Option Event := Event.ofName? f.event

def writeChars (f : Frame) : List Char :=
  let part := fun name => Json.memberIfPresent name Json.quote
  Json.writeObject (
    ("Event", Json.quote f.event) ::
    part "User" f.user ++
    part "message" f.message ++
    part "room_id" f.roomId ++
    part "message_id" f.messageId ++
    part "_id" f.id ++
    part "display_name" f.displayName ++
    part "created_at" f.createdAt ++
    part "reply_to" f.replyTo ++
    part "reply_to_message" f.replyToMessage ++
    part "reply_to_user" f.replyToUser)

/-- The text of the frame. -/
def write (f : Frame) : String := String.ofList f.writeChars

/-- A frame of which some fields have been read. -/
structure Draft extends Parts where
  event : Option String := none

/-- A field that holds a text or is missing. -/
def part (name : String) (put : Draft → Option String → Draft) : Json.Field Draft where
  name := name
  spare := true
  read := fun d cs => do
    let (s, cs) ← Json.nullable Json.text cs
    return (put d s, cs)

/-- How frames are read. Only the event has to be there. -/
def record : Json.Record Draft Frame where
  fields := [
    { name := "Event", spare := false,
      read := fun d cs => do
        let (s, cs) ← Json.text cs
        return ({ d with event := some s }, cs) },
    part "User" fun d s => { d with user := s },
    part "message" fun d s => { d with message := s },
    part "room_id" fun d s => { d with roomId := s },
    part "message_id" fun d s => { d with messageId := s },
    part "_id" fun d s => { d with id := s },
    part "display_name" fun d s => { d with displayName := s },
    part "created_at" fun d s => { d with createdAt := s },
    part "reply_to" fun d s => { d with replyTo := s },
    part "reply_to_message" fun d s => { d with replyToMessage := s },
    part "reply_to_user" fun d s => { d with replyToUser := s }]
  blank := {}
  finish := fun d => d.event.map fun event => { d.toParts with event }

/-- The frame that a text holds. -/
def read (s : String) : Except Json.Problem Frame :=
  Json.document record.read s

end Frame

end ChatClient.Wire
