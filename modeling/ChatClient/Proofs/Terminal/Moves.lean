import ChatClient.Terminal.Console
import Mathlib.Tactic.Common

/-!
# The moves of a console

Whatever is typed, the terminal issues one of a few rows of commands. A signal about typing may come
alone. In front of a payload, of another room and of the end there is one only if the last one was
that the user is typing. All that can become of a console in one move is one of four things:
nothing, such a row that is issued, a command that the client takes, or something that happens to
the client.

## Main definitions

* `Screen.Issues`: what the terminal can issue at once, and what becomes of it
* `Console.Moves`: what can become of a console in one move

## Main results

* `enter_issues`: what a line makes the terminal issue
* `step_moves`: every step of a console is one of these moves
-/

namespace ChatClient

namespace Screen

/-- What the terminal can issue at once, and what becomes of it. -/
inductive Issues (s : Screen) : List SessionCommand → Screen → Prop
  | nothing : Issues s [] s
  | keystroke (now : Nat) :
      Issues s (announce (s.debouncer.keystroke now).2)
        { s with debouncer := (s.debouncer.keystroke now).1 }
  | poll (now : Nat) :
      Issues s (announce (s.debouncer.poll now).2)
        { s with debouncer := (s.debouncer.poll now).1 }
  | send (p : Payload) (author : p.author = s.user) (room : p.roomId = s.room) :
      Issues s (announce s.debouncer.send.2 ++ [.send p]) { s with debouncer := s.debouncer.send.1 }
  | select (room : RoomId) :
      Issues s (announce s.debouncer.send.2 ++ [.select (some room)])
        { s with debouncer := s.debouncer.send.1, room }
  | leave :
      Issues s (announce s.debouncer.send.2 ++ [.shutdown])
        { s with debouncer := s.debouncer.send.1 }

variable (s : Screen)

private theorem obey_issues (chat : Chat) (state : ConnectionState) (now : Nat) (c : Command) :
    s.Issues (s.obey chat state now c).commands (s.obey chat state now c).screen := by
  cases c with
  | say body => exact .send (.text s.user s.room body) rfl rfl
  | file url => exact .send (.file s.user s.room url) rfl rfl
  | reply id body =>
    simp only [obey]
    split
    · next target _ => exact .send ((Payload.text s.user s.room body).answering target) rfl rfl
    · exact .nothing
  | room room => exact .select room
  | typing => exact .keystroke now
  | help => exact .nothing
  | quit => exact .nothing

/-- All that can come of a line is told by `Issues`. -/
theorem enter_issues (chat : Chat) (state : ConnectionState) (now : Nat) (text : String) :
    s.Issues (s.enter chat state now text).commands (s.enter chat state now text).screen := by
  rw [enter]
  split
  · exact .nothing
  · exact s.obey_issues chat state now _

/-- A line that asks for the end changes nothing else. -/
theorem enter_of_quit {chat : Chat} {state : ConnectionState} {now : Nat} {text : String}
    (quit : (s.enter chat state now text).quit = true) :
    s.enter chat state now text = { screen := s, quit := true } := by
  rw [enter] at quit ⊢
  split
  · next parsed => simp [parsed] at quit
  · next c parsed =>
    rw [parsed] at quit
    cases c with
    | quit => rfl
    | reply id body =>
      simp only [obey] at quit
      split at quit <;> simp [send, afterTyping] at quit
    | _ => simp [obey, send, afterTyping] at quit

/-- Only who leaves shuts the client down. -/
theorem shutdown_notMem_announce (signal : Option TypingSignal) :
    .shutdown ∉ announce signal := by
  cases signal <;> simp [announce]

/-- No line asks for a shutdown. The user asks for it by leaving. -/
theorem shutdown_notMem_enter (chat : Chat) (state : ConnectionState) (now : Nat)
    (text : String) : .shutdown ∉ (s.enter chat state now text).commands := by
  have afterTyping (c : SessionCommand) (output : String) (other : .shutdown ≠ c) :
      .shutdown ∉ (s.afterTyping [c] output).commands := by
    simp [Screen.afterTyping, shutdown_notMem_announce, other]
  rw [enter]
  split
  · simp
  · next c _ =>
    cases c with
    | say body => exact afterTyping _ _ (by simp)
    | file url => exact afterTyping _ _ (by simp)
    | reply id body =>
      simp only [obey]
      split
      · exact afterTyping _ _ (by simp)
      · simp
    | room room => exact afterTyping _ "" (by simp)
    | typing => exact shutdown_notMem_announce _
    | help => simp [obey]
    | quit => simp [obey]

end Screen

namespace Console

/-- What can become of a console in one move, and what happens to its client then. -/
inductive Moves (s : Console) : Option Happening → Console → Prop
  | stay : Moves s none s
  | issue (commands : List SessionCommand) (screen : Screen) (done : Bool)
      (issues : s.screen.Issues commands screen) :
      Moves s none { s with
        screen
        issued := s.issued ++ commands
        waiting := s.waiting ++ commands
        done }
  | take (c : SessionCommand) (rest : List SessionCommand) (waits : s.waiting = c :: rest) :
      Moves s (some (.turn (.command c)))
        { s with client := s.client.step (.turn (.command c)), waiting := rest }
  | other (h : Happening) (free : ∀ c, h ≠ .turn (.command c)) :
      Moves s (some h) { s with client := s.client.step h }

variable (s : Console)

/-- What is not a command can happen to the client by itself. -/
theorem happens_other {h : Happening} (free : ∀ c, h ≠ .turn (.command c)) :
    s.happens (.other h) = some h := by
  unfold happens
  split <;> simp_all

private theorem leave_moves : s.Moves none s.leave := by
  rw [leave]
  split
  · exact .stay
  · exact .issue _ _ true .leave

private theorem line_moves (text : String) : s.Moves none (s.line text) := by
  simp only [line]
  split
  · exact .stay
  · split
    · next quit =>
      have nothing := s.screen.enter_of_quit quit
      have same : s.perform { screen := s.screen, quit := true } = s := by simp [perform]
      rw [nothing, same]
      exact s.leave_moves
    · exact .issue _ _ s.done (s.screen.enter_issues ..)

/-- All that can come of a move is told by `Moves`. -/
theorem step_moves (m : Move) : s.Moves (s.happens m) (s.step m) := by
  cases m with
  | line text => exact s.line_moves text
  | poll =>
    rw [step, poll, happens]
    split
    · exact .stay
    · exact .issue _ _ s.done (.poll s.client.now)
  | leave => exact s.leave_moves
  | take =>
    cases waits : s.waiting with
    | nil =>
      have none_ : s.happens .take = none := by simp [happens, waits]
      rw [step, none_]
      exact .stay
    | cons c rest =>
      have some_ : s.happens .take = some (.turn (.command c)) := by simp [happens, waits]
      rw [step, some_, waits]
      exact .take c rest waits
  | other h =>
    -- The world gives no commands: those come from the user alone.
    by_cases command : ∃ c, h = .turn (.command c)
    · obtain ⟨c, rfl⟩ := command
      exact .stay
    · have free : ∀ c, h ≠ .turn (.command c) := fun c same => command ⟨c, same⟩
      rw [step, s.happens_other free]
      exact .other h free

end Console

end ChatClient
