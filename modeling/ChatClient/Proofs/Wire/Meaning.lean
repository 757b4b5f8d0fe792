import ChatClient.Proofs.Wire.Codec
import ChatClient.Wire.Inbound
import ChatClient.Wire.Outbound

/-!
# What the frames of the client mean

The server relays the frames of a client to the others as they are. Here it is said what they mean
to those who receive them. A payload arrives as a message without an identifier and without a time,
as these come from the server. A text that is quoted in it and is empty counts as missing. Nothing
else about a payload is lost on the way but the room, which is that of the link.

## Main definitions

* `Incoming.Restores`: the message says what the payload says

## Main results

* `decode_frame`: the meaning of a payload that is relayed
* `decode_typingFrame`: the meaning of a signal that is relayed
* `decode_sent`: whatever is sent is understood
-/

namespace ChatClient

open Wire (Frame Event)

private theorem present_text {k : IdentKind} (a : Ident k) :
    Inbound.present (some a.text) = some a.text := by
  simp [Inbound.present, a.text_ne_empty]

/-- An identifier is read back from its text. -/
theorem ident?_text {k : IdentKind} (a : Ident k) : Inbound.ident? k (some a.text) = some a := by
  simp [Inbound.ident?, present_text]

private theorem ident?_map_text {k : IdentKind} (a : Option (Ident k)) :
    Inbound.ident? k (a.map Ident.text) = a := by
  cases a with
  | none => rfl
  | some a => exact ident?_text a

/-- What is known about a message that is answered, when the answer has been relayed. -/
def Reply.relayed (r : Reply) : Reply := { r with body := Inbound.present r.body }

private theorem reply?_frame_relayed (p : Payload) :
    Inbound.reply? p.frame = p.reply.map Reply.relayed := by
  cases answers : p.reply with
  | none => simp [Inbound.reply?, Payload.frame, answers, Inbound.ident?, Inbound.present]
  | some r =>
    simp [Inbound.reply?, Payload.frame, answers, ident?_text, ident?_map_text, Reply.relayed]

/-- A payload that is relayed. -/
def Payload.relayed (p : Payload) : Incoming where
  id := none
  author := p.author
  displayName := none
  body := p.body
  isFile := p.kind == .file
  createdAt := none
  reply := p.reply.map Reply.relayed

/-- What a payload means when it has been relayed. -/
theorem decode_frame (p : Payload) : Inbound.decode p.frame.write = .ok (.message p.relayed) := by
  have author : Inbound.ident? .user p.frame.user = some p.author := ident?_text p.author
  have room : Inbound.present p.frame.roomId = some p.roomId.text := present_text p.roomId
  have reply := reply?_frame_relayed p
  have event : p.frame.event? = some p.kind.event := Event.ofName?_name _
  simp only [Inbound.decode, Frame.read_write, Inbound.ofFrame, event]
  cases kind : p.kind <;>
    simp only [PayloadKind.event, Inbound.ofEvent, author, room, reply, Inbound.demand,
      Payload.relayed, kind] <;> rfl

/-- What a signal about typing means when it has been relayed. -/
theorem decode_typingFrame (user : UserId) (room : RoomId) (on : Bool) :
    Inbound.decode (typingFrame user room on).write =
      .ok (if on then .typingStarted user else .typingStopped user) := by
  have author : Inbound.ident? .user (typingFrame user room on).user = some user := ident?_text user
  have here : Inbound.present (typingFrame user room on).roomId = some room.text :=
    present_text room
  have event : (typingFrame user room on).event? =
      some (if on then Event.typingStart else Event.typingStop) := Event.ofName?_name _
  simp only [Inbound.decode, Frame.read_write, Inbound.ofFrame, event]
  cases on <;> simp only [Inbound.ofEvent, author, here, Inbound.demand] <;> rfl

/-! ## What comes back -/

/-- The message says what the payload says. Neither an identifier nor a name nor a time is made up,
and of a message that is quoted only an empty text is lost. -/
structure Incoming.Restores (m : Incoming) (p : Payload) : Prop where
  author : m.author = p.author
  body : m.body = p.body
  isFile : m.isFile = true ↔ p.kind = .file
  id : m.id = none
  displayName : m.displayName = none
  createdAt : m.createdAt = none
  answers : m.reply = none ↔ p.reply = none
  reply : ∀ r, p.reply = some r → ∃ r', m.reply = some r' ∧ r'.messageId = r.messageId ∧
    r'.author = r.author ∧ r'.body = if r.body = some "" then none else r.body

private theorem present_eq (s : Option String) :
    Inbound.present s = if s = some "" then none else s := by
  cases s with
  | none => rfl
  | some s => by_cases empty : s = "" <;> simp [Inbound.present, empty]

private theorem restores_relayed (p : Payload) : p.relayed.Restores p where
  author := rfl
  body := rfl
  isFile := by simp [Payload.relayed]
  id := rfl
  displayName := rfl
  createdAt := rfl
  answers := by simp [Payload.relayed]
  reply r answers := ⟨r.relayed, by simp [Payload.relayed, answers], rfl, rfl, present_eq r.body⟩

/-- Whatever the client sends is understood by a client that receives it. The text of a payload
means a message that says the same, and the text of a signal means that the user has begun or
stopped typing. -/
theorem decode_sent :
    (∀ p : Payload, ∃ m, Inbound.decode p.frame.write = .ok (.message m) ∧ m.Restores p) ∧
      ∀ (user : UserId) (room : RoomId) (on : Bool),
        Inbound.decode (typingFrame user room on).write =
        .ok (if on then .typingStarted user else .typingStopped user) :=
  ⟨fun p => ⟨p.relayed, decode_frame p, restores_relayed p⟩, decode_typingFrame⟩

end ChatClient
