import ChatClient.Proofs.Chat.Deeds
import ChatClient.Proofs.Session.Listening
import ChatClient.Proofs.Session.Setting
import ChatClient.Proofs.Session.Talk
import ChatClient.Proofs.Terminal.Rooms
import ChatClient.Proofs.Wire.Meaning
import Mathlib.Data.List.Forall2

/-!
# What the others get to know

While a client is open and its link takes every frame, each command that it takes becomes one frame
at most, and the server relays the frames to the others. Whoever applies them in their order knows
of every message, and knows at all times whether the user is typing, as far as the terminal has
announced it.

Three parties take part, and each keeps its own count. The terminal has a flag, which changes
together with what it issues. The client turns commands into frames in their order. The others fold
the frames into what they know. On all three the typing of the user is the same function of the
commands, so that the three inductions fit together.

## Main definitions

* `SessionCommand.frames`, `SessionCommand.typingAfter`, `SessionCommand.payload?`: what a command
  comes to
* `Client.Serves`: the client is open, and its link takes every frame
* `Console.Carries`: what has been issued and said between two moments
* `Message.Conveys`: a message in a log tells what was sent

## Main results

* `carries_run`: the frames of a run are those of the commands, in their order
* `hearAll_frames`: what they make of the knowledge of someone else
* `run_conveys`: terminal and receiver agree
-/

namespace ChatClient

open Wire (Frame)

namespace SessionCommand

/-- The frames that a command comes to while the room is connected. -/
def frames (user : UserId) (room : RoomId) : SessionCommand → List Frame
  | send p => [p.frame]
  | typing on => [typingFrame user room on]
  | select _ | shutdown => []

/-- Whether the user is typing after a command. Who sends a message has stopped. -/
def typingAfter (before : Bool) : SessionCommand → Bool
  | send _ => false
  | typing on => on
  | select _ | shutdown => before

/-- The payload that is sent. -/
def payload? : SessionCommand → Option Payload
  | send p => some p
  | select _ | typing _ | shutdown => none

end SessionCommand

/-! ## The terminal -/

namespace Screen

variable {s s' : Screen} {commands : List SessionCommand}

/-- The end of the typing is announced if the typing was. -/
theorem typingAfter_send (d : Debouncer) :
    (announce d.send.2).foldl SessionCommand.typingAfter d.announced = false := by
  cases announced : d.announced <;>
    simp [Debouncer.send, announced, announce, SessionCommand.typingAfter, TypingSignal.isTyping]

/-- The flag of the terminal says what it has announced. -/
theorem Issues.announced (issues : s.Issues commands s') :
    commands.foldl SessionCommand.typingAfter s.debouncer.announced = s'.debouncer.announced := by
  cases issues with
  | nothing => rfl
  | keystroke now =>
    cases announced : s.debouncer.announced <;>
      simp [Debouncer.keystroke, announced, announce, SessionCommand.typingAfter,
        TypingSignal.isTyping]
  | poll now =>
    cases due : s.debouncer.isDue now <;>
      simp [Debouncer.poll, due, announce, SessionCommand.typingAfter, TypingSignal.isTyping]
  | send p =>
    rw [List.foldl_append]
    rfl
  | select room =>
    rw [List.foldl_append, typingAfter_send]
    rfl
  | leave =>
    rw [List.foldl_append, typingAfter_send]
    rfl

private theorem Issues.user_eq (issues : s.Issues commands s') : s'.user = s.user := by
  cases issues <;> rfl

/-- The terminal sends in the name of its user. -/
theorem Issues.author_eq (issues : s.Issues commands s') {p : Payload} (mem : .send p ∈ commands) :
    p.author = s.user := by
  have signal (signal : Option TypingSignal) : .send p ∉ announce signal := by
    cases signal <;> simp [announce]
  cases issues with
  | nothing => contradiction
  | keystroke now => exact absurd mem (signal _)
  | poll now => exact absurd mem (signal _)
  | send p' author =>
    rcases List.mem_append.1 mem with mem | mem
    · exact absurd mem (signal _)
    · obtain rfl : p = p' := by simpa using mem
      exact author
  | select room =>
    rcases List.mem_append.1 mem with mem | mem
    · exact absurd mem (signal _)
    · simp at mem
  | leave =>
    rcases List.mem_append.1 mem with mem | mem
    · exact absurd mem (signal _)
    · simp at mem

end Screen

/-! ## The client -/

namespace Client

/-- The client is open in the room, and its link takes every frame. -/
structure Serves (c : Client) (room : RoomId) : Prop where
  isOpen : c.machine.state = .open
  active : c.room = some room
  running : c.stopped = false
  accepts : ∃ i l, c.link = some i ∧ c.links[i]? = some l ∧ l.accepts = none

variable {c : Client} {room : RoomId}

private theorem serves_iff : c.Serves room ↔
    c.machine.state = .open ∧ c.room = some room ∧ c.stopped = false ∧
      ∃ l ∈ c.link.bind (c.links[·]?), l.accepts = none := by
  constructor
  · rintro ⟨isOpen, active, running, i, l, held, hl, all⟩
    exact ⟨isOpen, active, running, l, by simp [held, hl], all⟩
  · rintro ⟨isOpen, active, running, l, mem, all⟩
    obtain ⟨i, held, hl⟩ := Option.bind_eq_some_iff.1 mem
    exact ⟨isOpen, active, running, i, l, held, hl, all⟩

instance : Decidable (c.Serves room) := decidable_of_iff' _ serves_iff

/-- On a link that serves the room everything can be sent. -/
theorem Serves.canSend (serves : c.Serves room) : c.canSend = true := by
  obtain ⟨i, l, held, hl, all⟩ := serves.accepts
  rw [canSend_eq held hl]
  simp [Link.reads, all]

/-- A command that is taken is said in its frames. -/
theorem Serves.says (serves : c.Serves room) (command : SessionCommand) :
    ∃ new, (c.step (.turn (.command command))).accepted = c.accepted ++ new ∧
      new.map Prod.snd = command.frames c.profile.user room := by
  cases command with
  | select room' =>
    have quiet := c.step_quiet (h := .turn (.command (.select room'))) rfl
    exact ⟨[], by rw [quiet.accepted, List.append_nil], rfl⟩
  | shutdown =>
    have quiet := c.step_quiet (h := .turn (.command .shutdown)) rfl
    exact ⟨[], by rw [quiet.accepted, List.append_nil], rfl⟩
  | send p =>
    rw [step_of_running serves.running]
    -- The link is open and takes frames, so the payload does not wait.
    rcases c.send_cases p with ⟨i, links, -, -, -, sent⟩ | ⟨closed | deaf, -⟩
    · exact ⟨[(i, p.frame)], congrArg (·.accepted) sent, rfl⟩
    · exact absurd serves.isOpen closed
    · exact absurd (serves.canSend.symm.trans deaf) (by decide)
  | typing on =>
    obtain ⟨i, -, held, -⟩ := serves.accepts
    obtain ⟨links, taken⟩ :=
      c.transmit_of_canSend (typingFrame c.profile.user room on) held serves.canSend
    have said : c.sendTyping on =
        (c.transmit (typingFrame c.profile.user room on)).1 := by
      simp [sendTyping, serves.active, serves.isOpen, ConnectionState.isOpen]
    rw [step_of_running serves.running]
    refine ⟨[(i, typingFrame c.profile.user room on)], ?_, rfl⟩
    change (c.sendTyping on).accepted = _
    rw [said, taken]

/-- Nothing is said but for a command, since no other link opens. -/
theorem Serves.silent (serves : c.Serves room) {h : Happening}
    (free : ∀ command, h ≠ .turn (.command command)) : (c.step h).accepted = c.accepted := by
  cases silent : speaks h with
  | false => exact (c.step_quiet silent).accepted
  | true =>
    unfold speaks at silent
    split at silent
    · exact absurd rfl (free _)
    · exact absurd rfl (free _)
    · rw [step_of_running serves.running]
      rcases c.outcome_cases with quiet | ⟨o, os, i, -, -, -, ⟨connecting, -⟩ | ⟨-, stays⟩⟩
      · exact quiet.accepted
      · rw [serves.isOpen] at connecting
        contradiction
      · exact congrArg (·.accepted) stays
    · contradiction

end Client

/-! ## Both together -/

namespace Console

/-- Between two moments these commands have been issued, and of all that waited and was issued the
frames of those that no longer wait have been said. -/
structure Carries (user : UserId) (room : RoomId) (s s' : Console)
    (commands : List SessionCommand) :
    Prop where
  issued : s'.issued = s.issued ++ commands
  said : ∃ new, s'.client.accepted = s.client.accepted ++ new ∧
    new.map Prod.snd ++ s'.waiting.flatMap (SessionCommand.frames user room) =
      (s.waiting ++ commands).flatMap (SessionCommand.frames user room)
  typing : commands.foldl SessionCommand.typingAfter s.screen.debouncer.announced =
    s'.screen.debouncer.announced
  author : ∀ p, .send p ∈ commands → p.author = s.screen.user
  user_eq : s'.screen.user = s.screen.user
  profile_eq : s'.client.profile = s.client.profile

variable {user : UserId} {room : RoomId} {s s' s'' : Console} {commands more : List SessionCommand}

theorem Carries.refl (user : UserId) (room : RoomId) (s : Console) : Carries user room s s [] :=
  ⟨by simp, ⟨[], by simp, by simp⟩, rfl, by simp, rfl, rfl⟩

/-- What is carried in two stretches is carried, with the commands of both. -/
theorem Carries.trans (h : Carries user room s s' commands) (h' : Carries user room s' s'' more) :
    Carries user room s s'' (commands ++ more) where
  issued := by rw [h'.issued, h.issued, List.append_assoc]
  said := by
    obtain ⟨new, accepted, said⟩ := h.said
    obtain ⟨new', accepted', said'⟩ := h'.said
    refine ⟨new ++ new', by rw [accepted', accepted, List.append_assoc], ?_⟩
    rw [List.map_append, List.append_assoc, said', List.flatMap_append, ← List.append_assoc, said]
    simp
  typing := by rw [List.foldl_append, h.typing, h'.typing]
  author p mem := by
    rcases List.mem_append.1 mem with mem | mem
    · exact h.author p mem
    · exact (h'.author p mem).trans h.user_eq
  user_eq := h'.user_eq.trans h.user_eq
  profile_eq := h'.profile_eq.trans h.profile_eq

private theorem carries_step (serves : s.client.Serves room) (m : Move) :
    ∃ commands, Carries s.client.profile.user room s (s.step m) commands := by
  have moves := s.step_moves m
  generalize s.step m = s' at moves ⊢
  generalize s.happens m = happens at moves
  cases moves with
  | stay => exact ⟨[], .refl _ _ s⟩
  | issue commands screen done issues =>
    exact ⟨commands, rfl, ⟨[], by simp, by simp⟩, issues.announced, fun p => issues.author_eq,
      issues.user_eq, rfl⟩
  | take c rest waits =>
    obtain ⟨new, accepted, frames⟩ := serves.says c
    refine ⟨[], by simp, ⟨new, accepted, ?_⟩, rfl, by simp, rfl, s.client.profile_step _⟩
    rw [frames, waits]
    simp
  | other h free =>
    have silent := serves.silent free
    exact ⟨[], by simp, ⟨[], by simp [silent], by simp⟩, rfl, by simp, rfl, s.client.profile_step _⟩

/-- On a link that goes on serving the room every run of the console carries the commands that it
issues. -/
theorem carries_run (moves : List Move)
    (steady : ∀ n < moves.length, (s.run (moves.take n)).client.Serves room) :
    ∃ commands, Carries s.client.profile.user room s (s.run moves) commands := by
  induction moves generalizing s with
  | nil => exact ⟨[], .refl _ _ s⟩
  | cons m moves ih =>
    have now : s.client.Serves room := steady 0 (Nat.succ_pos _)
    -- A move leaves the user of the client alone, in whose name the later frames are said.
    obtain ⟨first, carries⟩ := carries_step now m
    obtain ⟨others, later⟩ := ih (s := s.step m) fun n bound =>
      steady (n + 1) (Nat.succ_lt_succ bound)
    rw [carries.profile_eq] at later
    exact ⟨first ++ others, carries.trans later⟩

end Console

/-! ## The others -/

/-- The message tells what the payload says. -/
structure Message.Conveys (m : Message) (p : Payload) : Prop where
  author : m.author = p.author
  body : m.body = p.body
  isFile : m.isFile = (p.kind == .file)

private theorem conveys_place (p : Payload) (room : RoomId) (now : Timestamp) (fresh : MessageId) :
    (p.relayed.place room now fresh).Conveys p := by
  refine ⟨rfl, rfl, ?_⟩
  cases kind : p.kind <;> simp [Message.isFile, Incoming.place, Payload.relayed, kind]

namespace Knowledge

variable {user localUser : UserId} {room : RoomId}

/-- A payload that is heard comes to the end of the log, and its author is no longer typing. -/
theorem hear_frame (k : Knowledge) (localUser : UserId) {r : Reading} {p : Payload}
    (text : r.text = p.frame.write) :
    (k.hear localUser r).1.chat.isTyping r.room p.author = false ∧
      ∃ m : Message, m.Conveys p ∧
        (k.hear localUser r).1.chat.log r.room = k.chat.log r.room ++ [m] := by
  rw [hear, text, decode_frame]
  refine ⟨?_, _, conveys_place p r.room r.time (MessageId.minted k.minted), ?_⟩
  · exact Chat.isTyping_setTyping _ p.author false
  · exact Chat.log_receive _

/-- A signal that is heard says whether another user is typing. -/
theorem hear_typingFrame (k : Knowledge) {r : Reading} {on : Bool} {named : RoomId}
    (other : localUser ≠ user) (text : r.text = (typingFrame user named on).write) :
    (k.hear localUser r).1.chat.isTyping r.room user = on ∧
      (k.hear localUser r).1.chat.log r.room = k.chat.log r.room := by
  rw [hear, text, decode_typingFrame]
  cases on with
  | true =>
    simp only [if_true, Chat.apply, if_neg other.symm]
    exact ⟨Chat.isTyping_setTyping _ user true, Chat.log_setTyping _ user true⟩
  | false => exact ⟨Chat.isTyping_setTyping _ user false, Chat.log_setTyping _ user false⟩

/-- Frames that are heard in their order make the user type as the commands say, and each payload
becomes a message at the end of the log. -/
theorem hearAll_frames {named : RoomId} (other : localUser ≠ user) (commands : List SessionCommand)
    (author : ∀ p, .send p ∈ commands → p.author = user) (k : Knowledge) {rs : List Reading}
    (here : ∀ r ∈ rs, r.room = room)
    (relayed : rs.map Reading.text =
      (commands.flatMap (SessionCommand.frames user named)).map Frame.write) :
    (k.hearAll localUser rs).chat.isTyping room user =
        commands.foldl SessionCommand.typingAfter (k.chat.isTyping room user) ∧
      ∃ new, (k.hearAll localUser rs).chat.log room = k.chat.log room ++ new ∧
        List.Forall₂ Message.Conveys new (commands.filterMap SessionCommand.payload?) := by
  induction commands generalizing k rs with
  | nil =>
    obtain rfl : rs = [] := by simpa using relayed
    exact ⟨rfl, [], (List.append_nil _).symm, .nil⟩
  | cons command commands ih =>
    -- A selection and the end give no frame. Everything else gives one, which is the first to be
    -- heard.
    have author' := fun p mem => author p (List.mem_cons_of_mem _ mem)
    cases command with
    | select room' => exact ih author' k here relayed
    | shutdown => exact ih author' k here relayed
    | send p =>
      obtain ⟨r, rs, rfl, text, relayed⟩ := List.map_eq_cons_iff.1 relayed
      obtain rfl : r.room = room := here r List.mem_cons_self
      obtain rfl : p.author = user := author p List.mem_cons_self
      obtain ⟨stopped, m, conveys, log⟩ := k.hear_frame localUser text
      obtain ⟨typing, new, grown, all⟩ := ih author' (k.hear localUser r).1
        (fun r' mem => here r' (List.mem_cons_of_mem _ mem)) relayed
      refine ⟨?_, m :: new, ?_, .cons conveys all⟩
      · rw [stopped] at typing
        exact typing
      · rw [log, List.append_assoc] at grown
        exact grown
    | typing on =>
      obtain ⟨r, rs, rfl, text, relayed⟩ := List.map_eq_cons_iff.1 relayed
      obtain rfl : r.room = room := here r List.mem_cons_self
      obtain ⟨now, log⟩ := k.hear_typingFrame other text
      obtain ⟨typing, new, grown, all⟩ := ih author' (k.hear localUser r).1
        (fun r' mem => here r' (List.mem_cons_of_mem _ mem)) relayed
      rw [now] at typing
      rw [log] at grown
      exact ⟨typing, new, grown, all⟩

end Knowledge

namespace Console

variable {s : Console} {room : RoomId}

/-- Whatever move is made, the client is open then and its link takes every frame, and the frames
are relayed to someone else. As soon as the client has taken all commands and the frames have been
heard, the user is typing there exactly if the terminal has announced it, and the log has grown by
one message for each payload that was sent. -/
theorem run_conveys (moves : List Move) (same : s.client.profile.user = s.screen.user)
    (steady : ∀ n < moves.length, (s.run (moves.take n)).client.Serves room)
    (before : s.waiting = [])
    (after : (s.run moves).waiting = []) (localUser : UserId) (other : localUser ≠ s.screen.user)
    (k : Knowledge) (agree : k.chat.isTyping room s.screen.user = s.screen.debouncer.announced)
    (rs : List Reading) (here : ∀ r ∈ rs, r.room = room)
    (relayed : rs.map Reading.text =
      ((s.run moves).client.accepted.drop s.client.accepted.length).map fun p => p.2.write) :
    (k.hearAll localUser rs).chat.isTyping room s.screen.user =
        (s.run moves).screen.debouncer.announced ∧
      ∃ new, (k.hearAll localUser rs).chat.log room = k.chat.log room ++ new ∧
        List.Forall₂ Message.Conveys new
          (((s.run moves).issued.drop s.issued.length).filterMap SessionCommand.payload?) := by
  obtain ⟨commands, carries⟩ := carries_run moves steady
  -- Nothing waits at either end, so that the frames that were said are those of the commands.
  obtain ⟨said, accepted, frames⟩ := carries.said
  rw [before, after, same, List.nil_append, List.flatMap_nil, List.append_nil] at frames
  have texts : rs.map Reading.text =
      (commands.flatMap (SessionCommand.frames s.screen.user room)).map Frame.write := by
    rw [relayed, accepted, List.drop_left, ← frames, List.map_map]
    rfl
  have heard := k.hearAll_frames other commands carries.author here texts
  rw [agree, carries.typing] at heard
  rw [carries.issued, List.drop_left]
  exact heard

end Console

/-! ### A detour

The user hits keys, sends, falls silent while the client is late, sends a file and hits keys again.
-/

namespace Detour

def desktop : Console :=
  console.run [.take, .other (.settle 0 (.accepted none)), .other (.turn .outcome)]

def chitchat : List Console.Move := [
  .line "/typing", .line "one", .take, .line "/typing", .take, .take, .other (.pass 3000), .poll,
  .take, .take, .line "/file two", .line "/typing", .take, .take]

def listener : UserId := ⟨"neighbor", by decide⟩

/-- What the server relays. -/
def echoes : List Reading :=
  ((desktop.run chitchat).client.accepted.drop desktop.client.accepted.length).map fun p =>
    { link := 0, room := lobby, text := p.2.write, time := .epoch }

end Detour

theorem run_conveys_detour :
    (∀ n < Detour.chitchat.length,
        (Detour.desktop.run (Detour.chitchat.take n)).client.Serves Detour.lobby) ∧
      (Detour.desktop.run Detour.chitchat).waiting = [] ∧
      (Detour.desktop.run Detour.chitchat).screen.debouncer.announced = true ∧
      (((Detour.desktop.run Detour.chitchat).issued.drop Detour.desktop.issued.length).filterMap
          SessionCommand.payload?).map (fun p => (p.kind, p.body)) =
        [(.text, "one"), (.file, "two")] ∧
      ((Knowledge.mk .empty 0).hearAll Detour.listener Detour.echoes).chat.isTyping Detour.lobby
          Detour.profile.user =
        (Detour.desktop.run Detour.chitchat).screen.debouncer.announced ∧
      ∃ new, ((Knowledge.mk .empty 0).hearAll Detour.listener Detour.echoes).chat.log Detour.lobby =
          (Knowledge.mk .empty 0).chat.log Detour.lobby ++ new ∧
        List.Forall₂ Message.Conveys new
          (((Detour.desktop.run Detour.chitchat).issued.drop Detour.desktop.issued.length).filterMap
            SessionCommand.payload?) := by
  have steady : ∀ n < Detour.chitchat.length,
      (Detour.desktop.run (Detour.chitchat.take n)).client.Serves Detour.lobby := by
    decide +kernel
  have waiting : (Detour.desktop.run Detour.chitchat).waiting = [] := by decide +kernel
  have relayed : Detour.echoes.map Reading.text =
      ((Detour.desktop.run Detour.chitchat).client.accepted.drop
        Detour.desktop.client.accepted.length).map fun p => p.2.write := by
    rw [Detour.echoes, List.map_map]
    rfl
  have here : ∀ r ∈ Detour.echoes, r.room = Detour.lobby := by
    simp only [Detour.echoes, List.mem_map]
    rintro r ⟨p, -, rfl⟩
    rfl
  exact ⟨steady, waiting, by decide +kernel, by decide +kernel,
    Console.run_conveys Detour.chitchat (by decide +kernel) steady (by decide +kernel) waiting
      Detour.listener (by decide) ⟨.empty, 0⟩ (by decide +kernel) Detour.echoes here relayed⟩

end ChatClient
