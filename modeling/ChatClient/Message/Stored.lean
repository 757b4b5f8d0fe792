import ChatClient.Json.Record
import ChatClient.Json.Write
import ChatClient.Message

/-!
# The stored form of payloads

Payloads that wait are stored as JSON. What is missing from a reply is written as `null`, while a
reply that is missing from a payload is left out. The readers accept either spelling in both places,
and they accept the kind of a payload also as an object whose one member has the kind as its name.

## Main definitions

* `Reply.write`, `Payload.write`, `QueueEntry.write`, `QueueEntry.writeAll`
* `Reply.reader`, `Payload.reader`, `QueueEntry.reader`, `QueueEntry.readAll`
-/

namespace ChatClient

open Json (Reader Problem)

/-- Reads an identifier; a blank text is of the wrong type. -/
def Ident.reader (k : IdentKind) : Reader (Ident k) :=
  Json.textAs (Ident.ofText? k)

def Ident.write {k : IdentKind} (a : Ident k) : List Char :=
  Json.quote a.text

namespace Reply

def write (r : Reply) : List Char :=
  Json.writeObject [
    ("message_id", r.messageId.write),
    ("author", Json.writeNullable Ident.write r.author),
    ("body", Json.writeNullable Json.quote r.body)]

/-- A reply of which some fields have been read. -/
structure Draft where
  messageId : Option MessageId := none
  author : Option UserId := none
  body : Option String := none

/-- How replies are read. In an object only the identifier has to be there. -/
def record : Json.Record Draft Reply where
  fields := [
    { name := "message_id", spare := false,
      read := fun d cs => do
        let (a, cs) ← Ident.reader .message cs
        return ({ d with messageId := some a }, cs) },
    { name := "author", spare := false,
      read := fun d cs => do
        let (a, cs) ← Json.nullable (Ident.reader .user) cs
        return ({ d with author := a }, cs) },
    { name := "body", spare := false,
      read := fun d cs => do
        let (a, cs) ← Json.nullable Json.text cs
        return ({ d with body := a }, cs) }]
  blank := {}
  finish := fun d => d.messageId.map fun messageId => ⟨messageId, d.author, d.body⟩

def reader : Reader Reply := record.read

end Reply

namespace PayloadKind

/-- The name of the kind in the stored form. -/
def name : PayloadKind → String
  | .text => "text"
  | .file => "file"

def ofName? (s : String) : Option PayloadKind :=
  if s = "text" then some .text else if s = "file" then some .file else none

/-- Reads the name of a kind. -/
def nameReader : Reader PayloadKind :=
  Json.textAs ofName?

/-- Reads what follows the opening bracket of an object that has the name of a kind as the name of
its only member, whose value is `null`. -/
def memberReader : Reader PayloadKind := fun cs =>
  match Json.skipSpace cs with
  | [] => .error .truncated
  | '"' :: rest => do
    let (kind, rest) ← nameReader ('"' :: rest)
    match Json.skipSpace (← Json.expect ':' rest) with
    | 'n' :: rest => do
      let rest ← Json.literal ['u', 'l', 'l'] rest
      return (kind, ← Json.expect '}' rest)
    | rest => .error (Json.mismatchAt rest)
  | _ => .error .malformed

/-- Reads the name of a kind, or an object that has it as the name of its only member. -/
def reader : Reader PayloadKind := fun cs =>
  match Json.skipSpace cs with
  | [] => .error .truncated
  | '"' :: rest => nameReader ('"' :: rest)
  | '{' :: rest => memberReader rest
  | _ => .error .malformed

end PayloadKind

namespace Payload

def write (p : Payload) : List Char :=
  Json.writeObject ([
    ("kind", Json.quote p.kind.name),
    ("author", p.author.write),
    ("room_id", p.roomId.write),
    ("body", Json.quote p.body)] ++
    Json.memberIfPresent "reply" Reply.write p.reply)

/-- A payload of which some fields have been read. -/
structure Draft where
  kind : Option PayloadKind := none
  author : Option UserId := none
  roomId : Option RoomId := none
  body : Option String := none
  reply : Option Reply := none

/-- How payloads are read. Only the reply may be missing. -/
def record : Json.Record Draft Payload where
  fields := [
    { name := "kind", spare := false,
      read := fun d cs => do
        let (a, cs) ← PayloadKind.reader cs
        return ({ d with kind := some a }, cs) },
    { name := "author", spare := false,
      read := fun d cs => do
        let (a, cs) ← Ident.reader .user cs
        return ({ d with author := some a }, cs) },
    { name := "room_id", spare := false,
      read := fun d cs => do
        let (a, cs) ← Ident.reader .room cs
        return ({ d with roomId := some a }, cs) },
    { name := "body", spare := false,
      read := fun d cs => do
        let (a, cs) ← Json.text cs
        return ({ d with body := some a }, cs) },
    { name := "reply", spare := true,
      read := fun d cs => do
        let (a, cs) ← Json.nullable Reply.reader cs
        return ({ d with reply := a }, cs) }]
  blank := {}
  finish := fun d => do return ⟨← d.kind, ← d.author, ← d.roomId, ← d.body, d.reply⟩

def reader : Reader Payload := record.read

end Payload

namespace QueueEntry

def write (e : QueueEntry) : List Char :=
  Json.writeObject [("room", e.room.write), ("payload", e.payload.write)]

/-- An entry of which some fields have been read. -/
structure Draft where
  room : Option RoomId := none
  payload : Option Payload := none

/-- How entries are read. Both fields have to be there. -/
def record : Json.Record Draft QueueEntry where
  fields := [
    { name := "room", spare := false,
      read := fun d cs => do
        let (a, cs) ← Ident.reader .room cs
        return ({ d with room := some a }, cs) },
    { name := "payload", spare := false,
      read := fun d cs => do
        let (a, cs) ← Payload.reader cs
        return ({ d with payload := some a }, cs) }]
  blank := {}
  finish := fun d => do return ⟨← d.room, ← d.payload⟩

def reader : Reader QueueEntry := record.read

/-- The text in which a list of entries is stored. -/
def writeAll (entries : List QueueEntry) : String :=
  String.ofList (Json.writeList (entries.map write))

/-- The entries stored in a text. -/
def readAll (s : String) : Except Problem (List QueueEntry) :=
  Json.document (Json.list reader) s

end QueueEntry

end ChatClient
