import ChatClient.Session.Client
import ChatClient.Terminal.Command
import ChatClient.Terminal.Display
import ChatClient.Typing.Debouncer

/-!
# The terminal

The terminal turns lines into commands for the client and shows what the client announces. It knows
the room that the user has asked for, which is the one that is shown, and keeps track of whether the
user is typing.

## Main definitions

* `Screen`, `Screen.enter`: what a line does
* `Screen.update`, `Screen.connection`: what is shown when the client announces something
* `Screen.poll`, `Screen.leave`: what happens when time has passed and at the end
-/

namespace ChatClient

/-- What the terminal knows. -/
structure Screen where
  user : UserId
  /-- The room that is shown. -/
  room : RoomId
  debouncer : Debouncer
  /-- The offset from UTC at which times are shown, in seconds. -/
  offset : Int := 0

/-- What a line or the passing of time does. -/
structure Reaction where
  screen : Screen
  commands : List SessionCommand := []
  output : String := ""
  /-- The user wants to leave. -/
  quit : Bool := false

namespace Screen

def prompt (s : Screen) : String := Display.prompt s.user s.room

/-- The command that announces a signal, if there is one. -/
def announce (signal : Option TypingSignal) : List SessionCommand :=
  (signal.map fun signal => SessionCommand.typing signal.isTyping).toList

/-- The user is no longer typing, and the commands follow. -/
def afterTyping (s : Screen) (commands : List SessionCommand) (output : String) : Reaction :=
  let (debouncer, signal) := s.debouncer.send
  { screen := { s with debouncer }, commands := announce signal ++ commands, output }

/-- A payload is sent; what is said about it depends on where the connection stands. -/
def send (s : Screen) (state : ConnectionState) (p : Payload) : Reaction :=
  s.afterTyping [.send p] (Display.sent state)

/-- Does what a command asks for. -/
def obey (s : Screen) (chat : Chat) (state : ConnectionState) (now : Nat) : Command → Reaction
  | .say body => s.send state (.text s.user s.room body)
  | .file url => s.send state (.file s.user s.room url)
  | .reply id body =>
    match (chat.log s.room).reverse.find? fun m => m.id == id with
    | some target => s.send state ((Payload.text s.user s.room body).answering target)
    | none => { screen := s, output := Display.unknownMessage id }
  | .room room =>
    let reaction := s.afterTyping [.select (some room)] ""
    { reaction with screen := { reaction.screen with room } }
  | .typing =>
    let (debouncer, signal) := s.debouncer.keystroke now
    { screen := { s with debouncer }, commands := announce signal }
  | .help => { screen := s, output := Command.overview ++ "\n" }
  | .quit => { screen := s, quit := true }

/-- What a line does that was typed at the given time. -/
def enter (s : Screen) (chat : Chat) (state : ConnectionState) (now : Nat) (line : String) :
    Reaction :=
  match Command.parse line with
  | .error problem => { screen := s, output := problem.message ++ "\n" }
  | .ok command => s.obey chat state now command

/-- What the passing of time does. -/
def poll (s : Screen) (now : Nat) : Reaction :=
  let (debouncer, signal) := s.debouncer.poll now
  { screen := { s with debouncer }, commands := announce signal }

/-- What is left to be done when the user leaves. -/
def leave (s : Screen) : Reaction :=
  s.afterTyping [.shutdown] ""

/-- The text that tells of a change, if it concerns the room that is shown. -/
def updateText? (s : Screen) (chat : Chat) : ChatUpdate → Option String
  | .appended room m => if room = s.room then some (Display.message m s.offset) else none
  | .edited room id =>
    if room = s.room then
      ((chat.log room).find? fun m => m.id == id).map fun m => Display.edited m s.offset
    else none
  | .deleted room id => if room = s.room then some (Display.deleted id) else none
  | .typing room users => if room = s.room then Display.typing? users else none

/-- What is shown when the chat has changed. -/
def update (s : Screen) (chat : Chat) (u : ChatUpdate) : String :=
  match s.updateText? chat u with
  | some text => text ++ s.prompt
  | none => ""

/-- What is shown when the state of the connection has changed. -/
def connection (s : Screen) (chat : Chat) (state : ConnectionState) : Except Overflow String := do
  let status ← Display.connection state s.room
  let log := if state.isOpen then Display.joined s.room (chat.log s.room) s.offset else ""
  return status ++ log ++ s.prompt

end Screen

end ChatClient
