import ChatClient.Ident
import ChatClient.Text.Blank

/-!
# Commands typed at the prompt

A line is a message unless it starts with a slash, which starts a command. Two slashes stand for a
message that starts with one. The name of a command ends at the first blank; what follows is
trimmed.

## Main definitions

* `Command`, `CommandProblem`
* `Command.parse`: the command in a line
* `Command.overview`: the text that lists the commands
-/

namespace ChatClient

/-- What a line asks for. -/
inductive Command
  | say (body : String)
  | file (url : String)
  | reply (messageId : MessageId) (body : String)
  | room (room : RoomId)
  /-- A key was hit, but there is nothing to send yet. -/
  | typing
  | help
  | quit
  deriving DecidableEq

/-- A command that was called in a wrong way. -/
inductive Usage
  | file | reply | room
  deriving DecidableEq, Repr

/-- The right way to call the command. -/
def Usage.form : Usage → String
  | file => "/file <url>"
  | reply => "/reply <id> <text>"
  | room => "/room <id>"

/-- Why a line is no command. -/
inductive CommandProblem
  | unknown (name : String)
  | usage (form : Usage)
  deriving DecidableEq, Repr

def CommandProblem.message : CommandProblem → String
  | unknown name => "Unknown command '/" ++ name ++ "', try /help"
  | usage form => "Usage: " ++ form.form

namespace Command

/-- The text that lists the commands. -/
def overview : String :=
  String.intercalate "\n" [
    "Commands:",
    "  <text>              send a message",
    "  /file <url>         send a file link",
    "  /reply <id> <text>  reply to a message",
    "  /room <id>          switch rooms",
    "  /typing             announce that you are typing",
    "  /quit               exit"]

/-- The command with the given name and the trimmed text after it. -/
def ofWords (name : String) (rest : List Char) : Except CommandProblem Command :=
  match name with
  | "file" =>
    if rest.isEmpty then .error (.usage .file) else .ok (.file (String.ofList rest))
  | "reply" =>
    match Text.splitAtBlank? rest with
    | none => .error (.usage .reply)
    | some (id, body) =>
      match Ident.ofText? .message (String.ofList id) with
      | none => .error (.usage .reply)
      | some id => .ok (.reply id (String.ofList (Text.trimChars body)))
  | "room" =>
    match Ident.ofText? .room (String.ofList rest) with
    | none => .error (.usage .room)
    | some roomId => .ok (.room roomId)
  | "typing" => .ok .typing
  | "help" => .ok .help
  | "quit" | "exit" => .ok .quit
  | name => .error (.unknown name)

/-- The name of a command and the trimmed text after it. -/
def words (cs : List Char) : String × List Char :=
  match Text.splitAtBlank? cs with
  | none => (String.ofList cs, [])
  | some (name, rest) => (String.ofList name, Text.trimChars rest)

/-- The command in a line. -/
def parse (line : String) : Except CommandProblem Command :=
  match Text.trimChars line.toList with
  | '/' :: '/' :: rest => .ok (.say (String.ofList ('/' :: rest)))
  | '/' :: rest =>
    let (name, rest) := words rest
    ofWords name rest
  | body => .ok (.say (String.ofList body))

end Command

end ChatClient
