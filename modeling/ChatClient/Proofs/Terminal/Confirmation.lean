import ChatClient.Proofs.Session.Handover
import ChatClient.Proofs.Session.Publication
import ChatClient.Proofs.Session.Setting
import ChatClient.Proofs.Terminal.Signals

/-!
# What the user is told about a line

As soon as a line was typed the user is told what becomes of it: it was sent, or it waits until the
connection is back. The client has not seen the line by then. The terminal goes by whether the
connection is open, and the client goes by the link as well: a frame that the link does not take
waits in the outbox.

So there are three fates. Without an open connection the line waits, and that is said. Over an open
connection it is sent, and that is said too, as long as the link takes what the terminal has issued:
the line, and the end of the typing before it. When a server has stopped taking frames, and the
client has not found the end of the link yet, the line waits as well, and then the user is told that
it was sent.

## Main definitions

* `Link.takes`: the server takes so many more frames
* `Client.Handed`, `Client.Queued`: what has become of a payload
* `Console.printed`: what the user is told
* `Console.Confirms`: what is told and what is done

## Main results

* `send_fate`: a payload is either handed to the link or queued
* `attended_run`: nobody asks the client to stop as long as the user is there
* `run_confirms`: when the user is told the truth
-/

namespace ChatClient

namespace Link

/-- The server takes so many more frames. -/
def takes (l : Link) (n : Nat) : Bool := l.accepts.all fun limit => n ≤ limit

variable (l : Link) (n : Nat)

private theorem takes_one : l.takes 1 = l.reads := by
  cases limit : l.accepts with
  | none => simp [takes, reads, limit]
  | some k => cases k <;> simp [takes, reads, limit]

private theorem takes_succ : l.takes (n + 1) = (l.reads && l.accept.takes n) := by
  cases limit : l.accepts with
  | none => simp [takes, reads, accept, limit]
  | some k => cases k <;> simp [takes, reads, accept, limit]

end Link

namespace Client

variable (c : Client)

/-- The client takes commands one after the other. -/
def follow (cs : List SessionCommand) : Client :=
  c.run (cs.map fun command => .turn (.command command))

/-- Commands are taken one after the other. -/
theorem follow_append (cs cs' : List SessionCommand) :
    c.follow (cs ++ cs') = (c.follow cs).follow cs' := by
  rw [follow, List.map_append, run_append]
  rfl

/-- A frame with the payload was taken by the link in use, some time between the two moments. -/
def Handed (c c' : Client) (p : Payload) : Prop :=
  ∃ i, c.link = some i ∧ (i, p.frame) ∈ c'.accepted.drop c.accepted.length

/-- The payload has come to the end of the outbox between the two moments, and nothing else has
changed there. -/
def Queued (c c' : Client) (p : Payload) : Prop :=
  c'.outbox.entries = c.outbox.entries ++ [c.entry p]

/-! ## The end of the typing -/

variable {c} (running : c.stopped = false)
include running

/-- What is said about typing carries no payload. -/
theorem follow_announce (signal : Option TypingSignal) : ∃ links signals,
    c.follow (Screen.announce signal) =
        { c with links := links, accepted := c.accepted ++ signals } ∧
      ∀ taken ∈ signals, taken.2.payload? = none := by
  cases signal with
  | none => exact ⟨c.links, [], by rw [List.append_nil]; rfl, by simp⟩
  | some signal =>
    have said : c.follow (Screen.announce (some signal)) = c.sendTyping signal.isTyping :=
      c.step_of_running running (.command (.typing signal.isTyping))
    rw [said]
    rcases c.sendTyping_spec signal.isTyping with ⟨i, links, room, -, -, -, sent⟩ | lost
    · exact ⟨links, _, sent, by simp⟩
    · exact ⟨c.links, [], by rw [List.append_nil]; exact lost, by simp⟩

/-- After the signal the link still takes a frame if it takes one more than there were before. -/
theorem canSend_announce (signal : Option TypingSignal) (isOpen : c.machine.state = .open)
    (active : c.room.isSome = true) :
    (c.follow (Screen.announce signal)).canSend =
      c.currentLink?.any fun l => l.takes ((Screen.announce signal).length + 1) := by
  cases signal with
  | none => simp [Screen.announce, follow, canSend, Link.takes_one]
  | some signal =>
    have said : c.follow (Screen.announce (some signal)) = c.sendTyping signal.isTyping :=
      c.step_of_running running (.command (.typing signal.isTyping))
    obtain ⟨room, active⟩ := Option.isSome_iff_exists.1 active
    have tried : c.sendTyping signal.isTyping =
        (c.transmit (typingFrame c.profile.user room signal.isTyping)).1 := by
      simp [sendTyping, active, isOpen, ConnectionState.isOpen]
    rw [said, tried]
    change _ = c.currentLink?.any fun l => l.takes (1 + 1)
    cases reads : c.canSend with
    | false =>
      -- What is not taken once is not taken twice either.
      rw [c.transmit_of_not_canSend _ reads, reads]
      unfold canSend at reads
      cases current : c.currentLink? with
      | none => rfl
      | some l => simp_all [Link.takes_succ]
    | true =>
      obtain ⟨i, held⟩ := c.link_of_canSend reads
      obtain ⟨l, hl⟩ : ∃ l, c.links[i]? = some l := by
        cases hl : c.links[i]? with
        | none => simp [canSend, currentLink?, held, hl] at reads
        | some l => exact ⟨l, rfl⟩
      have current : c.currentLink? = some l := by simp [currentLink?, held, hl]
      rw [canSend_eq held hl] at reads
      have hl' : (c.links.set i l.accept)[i]? = some l.accept :=
        List.getElem?_set_self (List.getElem?_eq_some_iff.1 hl).1
      rw [transmit_of_reads held hl _ reads, current, Option.any_some, Link.takes_succ, reads,
        Bool.true_and, Link.takes_one]
      exact canSend_eq held hl'

/-- A payload that comes after the end of the typing is handed to the link if the connection is open
and the link still takes a frame. Otherwise it is queued. It is never both. -/
theorem send_fate (signal : Option TypingSignal) (p : Payload) :
    let c' := c.follow (Screen.announce signal ++ [.send p])
    (c.machine.state = .open ∧ (c.follow (Screen.announce signal)).canSend = true ∧
        Handed c c' p ∧ ¬ Queued c c' p) ∨
      ((c.machine.state ≠ .open ∨ (c.follow (Screen.announce signal)).canSend = false) ∧
        Queued c c' p ∧ ¬ Handed c c' p) := by
  obtain ⟨links, signals, said, bare⟩ := follow_announce running signal
  have last : c.follow (Screen.announce signal ++ [.send p]) =
      (c.follow (Screen.announce signal)).send p := by
    rw [follow_append]
    exact step_of_running (by rw [said]; exact running) (.command (.send p))
  intro c'
  rw [show c' = (c.follow (Screen.announce signal)).send p from last]
  rcases (c.follow (Screen.announce signal)).send_cases p with
    ⟨i, links', isOpen, held, reads, sent⟩ | ⟨cannot, queued⟩
  · rw [said] at isOpen held
    refine .inl ⟨isOpen, reads, ⟨i, held, ?_⟩, ?_⟩
    · rw [sent, said]
      simp
    · rw [Queued, sent, said]
      simp
  · refine .inr ⟨by rwa [said] at cannot ⊢, ?_, ?_⟩
    · rw [Queued, queued, said]
      rfl
    · rintro ⟨i, -, mem⟩
      have accepted : ((c.follow (Screen.announce signal)).enqueue p).accepted =
          (c.follow (Screen.announce signal)).accepted := rfl
      -- All that the link has taken since then is the signal.
      rw [queued, accepted, said, List.drop_left] at mem
      have none_ := bare _ mem
      rw [payload?_frame] at none_
      contradiction

end Client

/-! ## What is typed -/

private theorem Screen.send_notMem_announce (p : Payload) (signal : Option TypingSignal) :
    .send p ∉ announce signal := by
  cases signal <;> simp [announce]

/-- A line that sends a payload does nothing but that. -/
theorem Screen.enter_of_sends (s : Screen) {chat : Chat} {state : ConnectionState} {now : Nat}
    {text : String} {p : Payload} (sends : .send p ∈ (s.enter chat state now text).commands) :
    s.enter chat state now text = s.send state p := by
  have own (p' : Payload) (mem : .send p ∈ (s.send state p').commands) : p' = p := by
    rw [Screen.send, Screen.afterTyping, List.mem_append, List.mem_singleton] at mem
    rcases mem with signal | same
    · exact absurd signal (send_notMem_announce p _)
    · exact (SessionCommand.send.inj same).symm
  rw [enter] at sends ⊢
  -- Three kinds of lines send a payload, and what any other line issues is no payload.
  split
  · next parsed => simp [parsed] at sends
  · next c parsed =>
    rw [parsed] at sends
    cases c with
    | say body => rw [obey, own _ sends]
    | file url => rw [obey, own _ sends]
    | reply id body =>
      simp only [obey] at sends ⊢
      split
      · next target found =>
        rw [found] at sends
        rw [own _ sends]
      · next lost => simp [lost] at sends
    | room room => simp [obey, Screen.afterTyping, send_notMem_announce] at sends
    | typing => exact absurd sends (send_notMem_announce p _)
    | help => simp [obey] at sends
    | quit => simp [obey] at sends

namespace Console

variable {s : Console}

/-- How the terminal reacts to a line that is not made of blanks only. -/
def reaction (s : Console) (text : String) : Reaction :=
  s.screen.enter s.client.chat s.client.published s.client.now (Text.trim text)

/-- What the user is told when a line was typed. -/
def printed (s : Console) (text : String) : String :=
  if s.done || (Text.trim text).isEmpty then "" else (s.reaction text).output

/-- A line that is typed has its reaction, and the last one of all is that the user leaves. -/
theorem line_eq (s : Console) (text : String) :
    s.line text =
      if s.done || (Text.trim text).isEmpty then s
      else if (s.reaction text).quit then (s.perform (s.reaction text)).leave
      else s.perform (s.reaction text) :=
  rfl

/-- A line that sends a payload issues it, behind the end of the typing. -/
theorem line_of_sends (caughtUp : s.waiting = []) {text : String} {p : Payload}
    (sends : .send p ∈ (s.line text).waiting) :
    s.done = false ∧ s.printed text = Display.sent s.client.published ∧
      (s.line text).waiting = Screen.announce s.screen.debouncer.send.2 ++ [.send p] := by
  rw [printed]
  rw [line_eq] at sends ⊢
  cases goes : s.done || (Text.trim text).isEmpty with
  | true =>
    rw [goes, if_pos rfl, caughtUp] at sends
    contradiction
  | false =>
    have here : s.done = false := (Bool.or_eq_false_iff.1 goes).1
    simp only [goes, Bool.false_eq_true, if_false] at sends ⊢
    cases quit : (s.reaction text).quit with
    | true =>
      -- The last command shuts the client down, and nothing is sent before.
      have leaves : s.reaction text = { screen := s.screen, quit := true } :=
        s.screen.enter_of_quit quit
      rw [if_pos quit, leaves] at sends
      simp [leave, perform, here, caughtUp, Screen.leave, Screen.afterTyping,
        Screen.send_notMem_announce] at sends
    | false =>
      simp only [quit, Bool.false_eq_true, if_false, perform, caughtUp, List.nil_append] at sends ⊢
      have sent : s.reaction text = s.screen.send s.client.published p :=
        s.screen.enter_of_sends sends
      rw [sent]
      exact ⟨here, rfl, rfl⟩

/-! ## What the client takes -/

/-- The client takes all that waits, and nothing else happens meanwhile. -/
def catchUp (s : Console) : Console := s.run (List.replicate s.waiting.length .take)

private theorem client_catchUp (s : Console) : s.catchUp.client = s.client.follow s.waiting := by
  rw [catchUp]
  generalize waits : s.waiting = cs
  induction cs generalizing s with
  | nil => rfl
  | cons c cs ih =>
    have taken :
        s.step .take = { s with client := s.client.step (.turn (.command c)), waiting := cs } := by
      simp [step, happens, waits]
    rw [List.length_cons, List.replicate_succ, run_cons, taken]
    exact ih _ rfl

/-- As long as the user is there, nobody asks the client to stop. -/
def Attended (s : Console) : Prop :=
  s.done = false → s.client.stopped = false ∧ .shutdown ∉ s.waiting

private theorem attended_perform (attended : s.Attended) {r : Reaction}
    (goesOn : .shutdown ∉ r.commands) :
    (s.perform r).Attended := by
  intro here
  obtain ⟨running, waiting⟩ := attended here
  refine ⟨running, fun mem => ?_⟩
  rcases List.mem_append.1 mem with old | new
  · exact waiting old
  · exact goesOn new

private theorem attended_of_done (done : s.done = true) : s.Attended :=
  fun here => absurd (here.symm.trans done) (by decide)

private theorem attended_step (attended : s.Attended) (m : Move) : (s.step m).Attended := by
  cases m with
  | line text =>
    rw [step, line]
    split
    · exact attended
    · dsimp only
      split
      · exact attended_of_done (done_leave _)
      · exact attended_perform attended (s.screen.shutdown_notMem_enter _ _ _ _)
  | poll =>
    rw [step, poll]
    split
    · exact attended
    · exact attended_perform attended (Screen.shutdown_notMem_announce _)
  | leave => exact attended_of_done s.done_leave
  | take =>
    rw [step]
    cases waits : s.waiting with
    | nil => simpa [happens, waits] using attended
    | cons c rest =>
      have took : s.happens .take = some (.turn (.command c)) := by simp [happens, waits]
      rw [took]
      intro here
      obtain ⟨running, waiting⟩ := attended here
      -- The command that is taken has been waiting, so that it is not the one to stop.
      rw [waits, List.mem_cons, not_or] at waiting
      have goesOn : Happening.turn (.command c) ≠ .turn (.command .shutdown) := by
        intro last
        exact waiting.1 (Turn.command.inj (Happening.turn.inj last)).symm
      exact ⟨(s.client.stopped_step_of_ne goesOn).trans running, waiting.2⟩
  | other h =>
    by_cases command : ∃ c, h = .turn (.command c)
    · obtain ⟨c, rfl⟩ := command
      exact attended
    · have free : ∀ c, h ≠ .turn (.command c) := fun c same => command ⟨c, same⟩
      rw [step, s.happens_other free]
      intro here
      obtain ⟨running, waiting⟩ := attended here
      exact ⟨(s.client.stopped_step_of_ne (free .shutdown)).trans running, waiting⟩

/-- As long as the user is there, the client has not stopped. -/
theorem attended_run (attended : s.Attended) (moves : List Move) : (s.run moves).Attended := by
  induction moves generalizing s with
  | nil => exact attended
  | cons m moves ih => exact ih (attended_step attended m)

/-! ## What is told and what is done -/

/-- What the user is told about a line that sends a payload, and what the client does when it takes
the commands at once. -/
structure Confirms (s : Console) (text : String) (p : Payload) : Prop where
  sent_iff : s.printed text = "sent\n" ↔ s.client.machine.state = .open
  queued_iff : s.printed text = "queued until reconnected\n" ↔ s.client.machine.state ≠ .open
  /-- The payload is handed to the link or queued, and never both. -/
  handed_iff : Client.Handed s.client (s.line text).catchUp.client p ↔
    ¬ Client.Queued s.client (s.line text).catchUp.client p
  /-- A payload of which it is said that it waits does so. -/
  waits : s.printed text = "queued until reconnected\n" →
    Client.Queued s.client (s.line text).catchUp.client p
  /-- The user is told the truth, either way, exactly if a link that is open takes all that was
  issued. -/
  truthful_iff :
    ((s.printed text = "sent\n" ↔ Client.Handed s.client (s.line text).catchUp.client p) ∧
        (s.printed text = "queued until reconnected\n" ↔
          Client.Queued s.client (s.line text).catchUp.client p)) ↔
      (s.client.machine.state = .open →
        (s.client.currentLink?.any fun l => l.takes (s.line text).waiting.length) = true)

/-- The two texts differ, and which one it is depends on the state alone. -/
theorem printed_iff {s : Console} {text : String} {state : ConnectionState}
    (printed : s.printed text = Display.sent state) :
    (s.printed text = "sent\n" ↔ state = .open) ∧
      (s.printed text = "queued until reconnected\n" ↔ state ≠ .open) := by
  rw [printed, Display.sent]
  cases state <;> simp [ConnectionState.isOpen]

/-- A user who has waited for all commands to be taken is told what becomes of the next line, as far
as the terminal can know. -/
theorem confirms (visible : s.client.Visible) (attended : s.Attended) (caughtUp : s.waiting = [])
    {text : String} {p : Payload} (sends : .send p ∈ (s.line text).waiting) :
    s.Confirms text p := by
  obtain ⟨here, printed, waiting⟩ := line_of_sends caughtUp sends
  obtain ⟨running, -⟩ := attended here
  have published : s.client.published = s.client.machine.state := visible.published_eq
  rw [published] at printed
  obtain ⟨sent_iff, queued_iff⟩ := printed_iff printed
  have after : (s.line text).catchUp.client =
      s.client.follow (Screen.announce s.screen.debouncer.send.2 ++ [.send p]) := by
    rw [client_catchUp, client_line, waiting]
  have fate := Client.send_fate running s.screen.debouncer.send.2 p
  -- Where the connection is open there is a room, so that the signal is said as well.
  have takes (isOpen : s.client.machine.state = .open) :
      (s.client.follow (Screen.announce s.screen.debouncer.send.2)).canSend =
        s.client.currentLink?.any fun l => l.takes (s.line text).waiting.length := by
    have active := visible.active (by simp [isOpen])
    rw [Client.canSend_announce running _ isOpen active, waiting, List.length_append]
    rfl
  rw [← after] at fate
  refine ⟨sent_iff, queued_iff, ?_, ?_, ?_⟩
  · rcases fate with ⟨-, -, handed, unqueued⟩ | ⟨-, queued, unhanded⟩
    · exact iff_of_true handed unqueued
    · exact iff_of_false unhanded (not_not_intro queued)
  · intro told
    rcases fate with ⟨isOpen, -⟩ | ⟨-, queued, -⟩
    · exact absurd isOpen (queued_iff.1 told)
    · exact queued
  · rw [sent_iff, queued_iff]
    rcases fate with ⟨isOpen, reads, handed, unqueued⟩ | ⟨cannot, queued, unhanded⟩
    · have all := (takes isOpen).symm.trans reads
      exact iff_of_true ⟨iff_of_true isOpen handed, iff_of_false (not_not_intro isOpen) unqueued⟩
        fun _ => all
    · by_cases isOpen : s.client.machine.state = .open
      · have reads := cannot.resolve_left (not_not_intro isOpen)
        rw [takes isOpen] at reads
        refine iff_of_false (fun both => unhanded (both.1.1 isOpen)) fun all => ?_
        rw [all isOpen] at reads
        contradiction
      · exact iff_of_true ⟨iff_of_false isOpen unhanded, iff_of_true isOpen queued⟩
          fun open_ => absurd open_ isOpen

/-- Whatever has been typed and whatever has happened to the client: when it has taken all commands,
and a line is typed that sends a payload, the user is told that it was sent if the connection is
open and that it waits otherwise. The latter is true. Both are, exactly if a link that is open takes
all that was issued. Otherwise the line waits, and the user is told that it was sent. -/
theorem run_confirms (screen : Screen) (profile : Profile) (backoff : Backoff) (outbox : Outbox)
    (chat : Chat) (disk : Disk) (clock : Timestamp) (moves : List Move) (text : String)
    (p : Payload)
    (caughtUp :
      ((start screen (.start profile backoff outbox chat disk clock)).run moves).waiting = [])
    (sends : .send p ∈
      (((start screen (.start profile backoff outbox chat disk clock)).run moves).line
        text).waiting) :
    ((start screen (.start profile backoff outbox chat disk clock)).run moves).Confirms text p := by
  have attended : (start screen (.start profile backoff outbox chat disk clock)).Attended :=
    fun _ => ⟨rfl, by simp [start]⟩
  have visible := Client.visible_run (Client.visible_start profile backoff outbox chat disk clock)
    ((start screen (.start profile backoff outbox chat disk clock)).happenings moves)
  refine confirms ?_ (attended_run attended moves) caughtUp sends
  rw [client_run]
  exact visible

end Console

/-! ### A detour

The server has gone away without a word. The link is still open, but takes nothing any more. -/

namespace Detour

def goodbye : Payload := .text profile.user lobby "good night"

def arriving : List Console.Move :=
  [.take, .other (.settle 0 (.accepted none)), .other (.turn .outcome)]

def crowded : Console := console.run arriving

def deserted : Console := console.run (arriving ++ [.other (.deafen 0)])

end Detour

theorem run_confirms_detour :
    Detour.crowded.waiting = [] ∧
      .send Detour.goodbye ∈ (Detour.crowded.line " good night").waiting ∧
      Detour.crowded.Confirms " good night" Detour.goodbye ∧
      Detour.crowded.printed " good night" = "sent\n" ∧
      Client.Handed Detour.crowded.client (Detour.crowded.line " good night").catchUp.client
        Detour.goodbye := by
  have caughtUp : Detour.crowded.waiting = [] := by decide +kernel
  have sends : .send Detour.goodbye ∈ (Detour.crowded.line " good night").waiting := by
    decide +kernel
  have confirms := Console.run_confirms Detour.hall Detour.profile {} {} .empty {} .epoch
    Detour.arriving " good night" Detour.goodbye caughtUp sends
  have printed : Detour.crowded.printed " good night" = "sent\n" := by decide +kernel
  have takes : (Detour.crowded.client.currentLink?.any fun l =>
      l.takes (Detour.crowded.line " good night").waiting.length) = true := by decide +kernel
  exact ⟨caughtUp, sends, confirms, printed, (confirms.truthful_iff.2 fun _ => takes).1.1 printed⟩

/-- The user is told that the line was sent. The server has not taken it, and it waits. -/
theorem deserted_detour :
    Detour.deserted.waiting = [] ∧
      Detour.deserted.client.machine.state = .open ∧
      Detour.deserted.printed "good night" = "sent\n" ∧
      (Detour.deserted.line "good night").catchUp.client.accepted = [] ∧
      Detour.deserted.client.outbox.entries = [] ∧
      (Detour.deserted.line "good night").catchUp.client.outbox.entries =
        [⟨Detour.lobby, Detour.goodbye⟩] := by
  decide +kernel

end ChatClient
