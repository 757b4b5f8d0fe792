import ChatClient.Session.Run
import ChatClient.Terminal.Screen

/-!
# The terminal and its client, each at its own pace

The terminal issues commands, and the client takes them one by one in the order in which they were
issued. Neither waits for the other. The user may type the next line while commands are on their
way, and whatever else can happen to the client may happen before it takes the next one. A run is a
sequence of moves of both in any order. A move that is not possible where it stands changes nothing.

What the terminal reads of the client, it reads at once: the chat, the state of the connection as it
was last published, and the time. What is printed is left out.

## Main definitions

* `Console`, `Console.start`
* `Console.Move`, `Console.step`, `Console.run`
* `Console.happenings`: what happens to the client in a run
-/

namespace ChatClient

/-- A terminal and its client. -/
structure Console where
  screen : Screen
  client : Client
  /-- The commands that the terminal has issued so far, in their order. -/
  issued : List SessionCommand := []
  /-- Those of them that the client has not taken yet. -/
  waiting : List SessionCommand := []
  /-- The user has left. -/
  done : Bool := false

namespace Console

/-- What can happen next, at the terminal, between it and the client, or to the client. -/
inductive Move
  /-- A line was typed. Lines of blanks are passed over. -/
  | line (text : String)
  /-- The terminal looks whether the typing has ended. -/
  | poll
  /-- There are no more lines. -/
  | leave
  /-- The client takes the oldest command that waits. -/
  | take
  /-- Anything else happens to the client. Commands come from the terminal only. -/
  | other (h : Happening)

/-- The terminal goes on as the reaction says, and its commands are issued. -/
def perform (s : Console) (r : Reaction) : Console :=
  { s with
    screen := r.screen
    issued := s.issued ++ r.commands
    waiting := s.waiting ++ r.commands }

def leave (s : Console) : Console :=
  if s.done then s else { s.perform s.screen.leave with done := true }

def line (s : Console) (text : String) : Console :=
  let text := Text.trim text
  if s.done || text.isEmpty then s
  else
    let reaction := s.screen.enter s.client.chat s.client.published s.client.now text
    if reaction.quit then (s.perform reaction).leave else s.perform reaction

def poll (s : Console) : Console :=
  if s.done then s else s.perform (s.screen.poll s.client.now)

/-- What happens to the client in a move. -/
def happens (s : Console) : Move → Option Happening
  | .take => s.waiting.head?.map fun c => .turn (.command c)
  | .other (.turn (.command _)) => none
  | .other h => some h
  | .line _ | .poll | .leave => none

/-- The console after a move. -/
def step (s : Console) (m : Move) : Console :=
  match m with
  | .line text => s.line text
  | .poll => s.poll
  | .leave => s.leave
  | .take =>
    match s.happens .take with
    | some h => { s with client := s.client.step h, waiting := s.waiting.tail }
    | none => s
  | .other h =>
    match s.happens (.other h) with
    | some h => { s with client := s.client.step h }
    | none => s

/-- The console after moves one after the other. -/
def run (s : Console) (moves : List Move) : Console := moves.foldl step s

/-- What happens to the client in a run. -/
def happenings : Console → List Move → List Happening
  | _, [] => []
  | s, m :: moves => (s.happens m).toList ++ (s.step m).happenings moves

/-- A console at which nobody has typed yet. The first thing that the terminal asks for is its
room. -/
def start (screen : Screen) (client : Client) : Console where
  screen := screen
  client := client
  issued := [.select (some screen.room)]
  waiting := [.select (some screen.room)]

section Runs

variable (s : Console)

@[simp] theorem run_nil : s.run [] = s := rfl

@[simp] theorem run_cons (m : Move) (moves : List Move) :
    s.run (m :: moves) = (s.step m).run moves := rfl

@[simp] theorem run_append (moves more : List Move) :
    s.run (moves ++ more) = (s.run moves).run more :=
  List.foldl_append

/-- A move of the terminal is none of the client. -/
@[simp] theorem client_perform (r : Reaction) : (s.perform r).client = s.client := rfl

@[simp] theorem client_leave : s.leave.client = s.client := by
  rw [leave]
  split
  · rfl
  · exact s.client_perform s.screen.leave

@[simp] theorem client_line (text : String) : (s.line text).client = s.client := by
  simp only [line]
  split
  · rfl
  · split
    · rw [client_leave, client_perform]
    · exact s.client_perform _

@[simp] theorem client_poll : s.poll.client = s.client := by
  rw [poll]
  split
  · rfl
  · exact s.client_perform (s.screen.poll s.client.now)

/-- Of all that happens in a move the client sees only what happens to it. -/
theorem client_step (m : Move) : (s.step m).client = s.client.run (s.happens m).toList := by
  cases m with
  | line text => exact s.client_line text
  | poll => exact s.client_poll
  | leave => exact s.client_leave
  | take =>
    rw [step]
    cases s.happens .take <;> rfl
  | other h =>
    rw [step]
    cases s.happens (.other h) <;> rfl

/-- The client of a run has gone through a run of its own. -/
theorem client_run (moves : List Move) :
    (s.run moves).client = s.client.run (s.happenings moves) := by
  induction moves generalizing s with
  | nil => rfl
  | cons m moves ih => rw [run_cons, ih, client_step, happenings, Client.run_append]

end Runs

end Console

end ChatClient
