import ChatClient.Connection.Machine
import ChatClient.Message

/-!
# What the terminal shows

Texts for everything that is printed: messages as they arrive, the log of a room that has been
joined, edits, deletions, who is typing, and where the connection stands.

## Main definitions

* `Display.line`: a message on one line
* `Display.joined`, `Display.message`, `Display.edited`, `Display.deleted`, `Display.typing?`,
  `Display.connection`, `Display.sent`, `Display.prompt`, `Display.greeting`
-/

namespace ChatClient.Display

/-- The length of the rules that set things off from each other. -/
def ruleLength : Nat := 60

def thinRule : String := String.ofList (List.replicate ruleLength '-')

def thickRule : String := String.ofList (List.replicate ruleLength '=')

/-- The text of a message, with a mark in front of a file that is still there. -/
def body (m : Message) : String :=
  if m.isFile && !m.deleted then "[file] " ++ m.body else m.body

/-- The name under which the author is shown. -/
def authorName (m : Message) : String :=
  m.displayName.getD m.author.text

/-- A message on one line, with the time as seen at an offset from UTC in seconds. -/
def line (m : Message) (offset : Int) : String :=
  "[" ++ m.createdAt.clockText offset ++ "] @" ++ authorName m ++ ": " ++ body m ++
    if m.edited then " (edited)" else ""

/-- The log of a room that has just been joined. -/
def joined (room : RoomId) (log : List Message) (offset : Int) : String :=
  let content :=
    if log.isEmpty then "(No messages yet)\n"
    else String.join (log.map fun m => line m offset ++ "\n")
  "\n\n" ++ thickRule ++ "\nRoom: " ++ room.text ++ "\n" ++ content ++ thickRule ++ "\n"

/-- The message that another one answers. -/
def quoted (r : Reply) : String :=
  let author :=
    match r.author with
    | some author => "@" ++ author.text
    | none => "someone"
  match r.body with
  | some body => "  > " ++ author ++ ": " ++ body ++ "\n"
  | none => "  > " ++ author ++ " (" ++ r.messageId.text ++ ")\n"

/-- A message that has just arrived. -/
def message (m : Message) (offset : Int) : String :=
  let answered :=
    match m.reply with
    | some r => quoted r
    | none => ""
  "\n\n" ++ thinRule ++ "\n" ++ answered ++ line m offset ++
    "\nid " ++ m.id.text ++ "\n" ++ thinRule ++ "\n"

def edited (m : Message) (offset : Int) : String :=
  "\n~ " ++ line m offset ++ "\n"

def deleted (id : MessageId) : String :=
  "\nx message " ++ id.text ++ " was deleted\n"

/-- Who is typing; nothing when nobody is. -/
def typing? : List UserId → Option String
  | [] => none
  | [a] => some ("\n" ++ a.text ++ " is typing...\n")
  | [a, b] => some ("\n" ++ a.text ++ " and " ++ b.text ++ " are typing...\n")
  | a :: b :: others =>
    some ("\n" ++ a.text ++ ", " ++ b.text ++ " and " ++ toString others.length ++
      " other(s) are typing...\n")

/-- Where a connection stands. Attempts are shown counted from one. -/
def status : ConnectionState → Except Overflow String
  | .idle => .ok "disconnected"
  | .connecting => .ok "connecting..."
  | .open => .ok "connected"
  | .reconnecting attempt => do
    let number ← ordinal attempt
    return "connection lost, retry #" ++ toString number.toNat ++ " scheduled"

def connection (state : ConnectionState) (room : RoomId) : Except Overflow String := do
  let status ← status state
  return "\n* [" ++ room.text ++ "] " ++ status ++ "\n"

/-- What becomes of a message that was just typed. -/
def sent (state : ConnectionState) : String :=
  if state.isOpen then "sent\n" else "queued until reconnected\n"

/-- What the user is asked with. -/
def prompt (user : UserId) (room : RoomId) : String :=
  user.text ++ "@" ++ room.text ++ "> "

/-- The first thing shown. -/
def greeting (user : UserId) : String :=
  "\nYou are '" ++ user.text ++
    "'. Type messages and press Enter to send. /help lists commands.\n\n"

def unknownMessage (id : MessageId) : String :=
  "No message with id '" ++ id.text ++ "' in this room\n"

end ChatClient.Display
