import ChatClient.Proofs.Session.Talk
import Mathlib.Data.List.Basic
import Mathlib.Tactic.Common

/-!
# What passes between the outbox and the links

A payload that is sent is either taken by the link in use at once or put into the outbox, and when a
link opens those that wait for its room are taken out of the outbox and handed to the link. Here all
ways are listed in which a step can do that, whether or not the file of the outbox can be written,
whatever is done about the payloads for other rooms, and however many sessions there were.

## Main definitions

* `Wire.Frame.payload?`: the payload that a frame carries
* `Client.sends`, `Client.takes`: what is sent and what is taken when something happens
* `Client.Exchanges`: all that can become of the outbox and the record of frames in one step

## Main results

* `payload?_frame`: a frame carries exactly one payload
* `flushQueue_cases`: what becomes of the entries that wait when a link opens
* `step_exchanges`
-/

namespace ChatClient

open Wire (Frame)

/-- The kind of payload that an event brings. -/
def PayloadKind.ofEvent? : Wire.Event → Option PayloadKind
  | .message => some .text
  | .fileMessage => some .file
  | _ => none

/-- What a frame says about the message that it answers. -/
def Wire.Frame.reply? (f : Frame) : Option Reply :=
  (f.replyTo.bind (Ident.ofText? .message)).map fun messageId =>
    ⟨messageId, f.replyToUser.bind (Ident.ofText? .user), f.replyToMessage⟩

/-- The payload that a frame carries. Signals about typing carry none. -/
def Wire.Frame.payload? (f : Frame) : Option Payload := do
  let kind ← f.event?.bind PayloadKind.ofEvent?
  let author ← f.user.bind (Ident.ofText? .user)
  let roomId ← f.roomId.bind (Ident.ofText? .room)
  let body ← f.message
  return ⟨kind, author, roomId, body, f.reply?⟩

private theorem reply?_frame (p : Payload) : p.frame.reply? = p.reply := by
  cases h : p.reply with
  | none => simp [Wire.Frame.reply?, Payload.frame, h]
  | some r =>
    obtain ⟨messageId, author, body⟩ := r
    cases author <;> simp [Wire.Frame.reply?, Payload.frame, h]

@[simp] theorem payload?_frame (p : Payload) : p.frame.payload? = some p := by
  have kind : p.frame.event?.bind PayloadKind.ofEvent? = some p.kind := by
    cases h : p.kind <;>
      simp [Wire.Frame.event?, Payload.frame, h, PayloadKind.event, PayloadKind.ofEvent?]
  have author : p.frame.user.bind (Ident.ofText? .user) = some p.author := by simp [Payload.frame]
  have roomId : p.frame.roomId.bind (Ident.ofText? .room) = some p.roomId := by
    simp [Payload.frame]
  have body : p.frame.message = some p.body := rfl
  simp [Wire.Frame.payload?, kind, author, roomId, body, reply?_frame]

@[simp] theorem payload?_typingFrame (user : UserId) (room : RoomId) (on : Bool) :
    (typingFrame user room on).payload? = none := by
  have kind : (typingFrame user room on).event?.bind PayloadKind.ofEvent? = none := by
    cases on <;> simp [Wire.Frame.event?, typingFrame, PayloadKind.ofEvent?]
  simp [Wire.Frame.payload?, kind]

namespace Client

variable (c : Client)

/-- The payloads that were taken, in the order in which they were. -/
def delivered : List Payload := c.accepted.filterMap fun taken => taken.2.payload?

/-- A payload as it would wait: for the active room if there is one, and otherwise for its own. -/
def entry (p : Payload) : QueueEntry := ⟨c.room.getD p.roomId, p⟩

/-- What is sent when this happens. -/
def sends : Happening → List QueueEntry
  | .turn (.command (.send p)) => if c.stopped then [] else [c.entry p]
  | _ => []

/-- What is taken by links when this happens. -/
def takes (h : Happening) : List QueueEntry :=
  ((c.step h).accepted.drop c.accepted.length).filterMap fun taken => taken.2.payload?.map c.entry

/-- What waits for the active room can be taken out of the outbox. -/
def flushes : Bool :=
  match c.room with
  | none => false
  | some room => (c.outbox.flush c.disk fun e => e.room == room).2.2.isOk

/-- What waits for the active room is handed to a link in its order, as far as it takes it. The rest
goes back to the front, where what waits for other rooms may have been dropped. -/
structure HandsOver (c c' : Client) (room : RoomId) (i : Nat) (sent left others : List QueueEntry) :
    Prop where
  active : c.room = some room
  split : (c.outbox.entries.filter fun e => e.room == room) = sent ++ left
  accepted : c'.accepted = c.accepted ++ sent.map fun e => (i, e.payload.frame)
  entries : c'.outbox.entries = left ++ others
  others_eq : others = (c.outbox.entries.filter fun e => !(e.room == room)) ∨
    (c.profile.flushPolicy = .dropOtherRooms ∧ others = [])
  stuck : left = [] ∨ c'.canSend = false

/-- All that can become of the outbox and the record of frames in one step, with what is sent and
what is taken in it. -/
inductive Exchanges (c c' : Client) : List QueueEntry → List QueueEntry → Prop
  | quiet (accepted : c'.accepted = c.accepted) (outbox : c'.outbox = c.outbox) :
      Exchanges c c' [] []
  | signal (i : Nat) (f : Frame) (bare : f.payload? = none)
      (accepted : c'.accepted = c.accepted ++ [(i, f)]) (outbox : c'.outbox = c.outbox) :
      Exchanges c c' [] []
  | transmit (p : Payload) (i : Nat) (isOpen : c.machine.state = .open) (reads : c.canSend = true)
      (accepted : c'.accepted = c.accepted ++ [(i, p.frame)]) (outbox : c'.outbox = c.outbox) :
      Exchanges c c' [c.entry p] [c.entry p]
  | enqueue (p : Payload) (cannot : c.machine.state ≠ .open ∨ c.canSend = false)
      (accepted : c'.accepted = c.accepted)
      (entries : c'.outbox.entries = c.outbox.entries ++ [c.entry p]) :
      Exchanges c c' [c.entry p] []
  | handOver (room : RoomId) (i : Nat) (sent left others : List QueueEntry)
      (hands : HandsOver c c' room i sent left others) : Exchanges c c' [] sent

variable {c}

/-! ## When a link opens -/

/-- What waits for other rooms is kept or dropped. -/
theorem exists_dropOthers (c : Client) : ∃ others d,
    c.dropOthers = { c with outbox := { c.outbox with entries := others }, disk := d } ∧
      (others = c.outbox.entries ∨ (c.profile.flushPolicy = .dropOtherRooms ∧ others = [])) := by
  rw [dropOthers]
  split
  · next drops =>
    rcases c.outbox.flush_cases c.disk fun _ => true with ⟨d, flushed⟩ | ⟨d, e, flushed⟩
    · exact ⟨[], d, by simp [flushed, withOutbox], .inr ⟨drops, rfl⟩⟩
    · exact ⟨_, d, by rw [flushed]; rfl, .inl rfl⟩
  · exact ⟨_, c.disk, rfl, .inl rfl⟩

/-- Entries are handed to the link in their order. Those that are not taken wait in front of all
others, and then the link takes no more. -/
theorem transmitOrRequeue_spec (c : Client) {i : Nat} (held : c.link = some i)
    (es : List QueueEntry) : ∃ sent left,
      es = sent ++ left ∧
      (c.transmitOrRequeue es).accepted = c.accepted ++ sent.map (fun e => (i, e.payload.frame)) ∧
      (c.transmitOrRequeue es).outbox.entries = left ++ c.outbox.entries ∧
      (left = [] ∨ (c.transmitOrRequeue es).canSend = false) := by
  obtain ⟨sent, left, links, split, taken, stuck⟩ := c.transmitAll_spec held es
  rw [transmitOrRequeue.eq_def]
  rw [taken] at stuck ⊢
  cases left with
  | nil => exact ⟨sent, [], split, rfl, rfl, .inl rfl⟩
  | cons e left => exact ⟨sent, e :: left, split, rfl, rfl, .inr (stuck.resolve_left (by simp))⟩

/-- What waits for the room is handed to the link, unless it cannot be taken out of the outbox. -/
theorem flushQueue_cases (c : Client) {i : Nat} (held : c.link = some i) :
    (c.flushes = false ∧ c.flushQueue.accepted = c.accepted ∧ c.flushQueue.outbox = c.outbox) ∨
    ∃ room sent left others, HandsOver c c.flushQueue room i sent left others := by
  cases active : c.room with
  | none =>
    have nothing : c.flushQueue = c := by rw [flushQueue.eq_def, active]
    exact .inl ⟨by rw [flushes, active], by rw [nothing], by rw [nothing]⟩
  | some room =>
    rcases c.outbox.flush_cases c.disk fun e => e.room == room with ⟨d, flushed⟩ | ⟨d, e, flushed⟩
    · right
      rw [flushQueue_of_ok active flushed]
      -- The rest of the entries is dropped or kept before the first one is sent.
      obtain ⟨others, d', dropped, others_eq⟩ := exists_dropOthers { c with
        outbox := { c.outbox with entries := c.outbox.entries.filter fun e => !(e.room == room) }
        disk := d }
      rw [dropped]
      obtain ⟨sent, left, split, accepted, entries, stuck⟩ := transmitOrRequeue_spec
        { c with outbox := { c.outbox with entries := others }, disk := d' } (i := i) held
        (c.outbox.entries.filter fun e => e.room == room)
      exact ⟨room, sent, left, others, active, split, accepted, entries, others_eq, stuck⟩
    · rw [flushQueue_of_error active flushed]
      exact .inl ⟨by simp [flushes, active, flushed, Except.isOk, Except.toBool], rfl, rfl⟩

/-! ## Every step -/

section Taken

variable {h : Happening} {new : List (Nat × Frame)}

private theorem takes_eq (accepted : (c.step h).accepted = c.accepted ++ new) :
    c.takes h = new.filterMap fun taken => taken.2.payload?.map c.entry := by
  rw [takes, accepted, List.drop_left]

/-- Nothing is taken where no frame is. -/
theorem takes_eq_nil (accepted : (c.step h).accepted = c.accepted) : c.takes h = [] := by
  simp [takes, accepted]

/-- An entry for the active room is the one that its payload would get now. -/
theorem HandsOver.takes_eq {room : RoomId} {i : Nat} {sent left others : List QueueEntry}
    (hands : HandsOver c (c.step h) room i sent left others) : c.takes h = sent := by
  rw [Client.takes_eq hands.accepted, List.filterMap_map]
  have same : ∀ e ∈ sent, e.payload.frame.payload?.map c.entry = some e := by
    intro e he
    have flushed : e ∈ c.outbox.entries.filter fun e => e.room == room := by
      rw [hands.split]
      exact List.mem_append_left _ he
    have here : e.room = room := by simpa using (List.mem_filter.1 flushed).2
    simp [entry, hands.active, ← here]
  calc sent.filterMap (fun e => e.payload.frame.payload?.map c.entry)
      = sent.filterMap some := List.filterMap_congr same
    _ = sent := List.filterMap_some

end Taken

private theorem exchanges_of_quiet {h : Happening} (quiet : Quiet c (c.step h))
    (silent : c.sends h = []) :
    c.Exchanges (c.step h) (c.sends h) (c.takes h) := by
  rw [silent, takes_eq_nil quiet.accepted]
  exact .quiet quiet.accepted quiet.outbox

/-- What a step does that looks at an outcome. -/
theorem exchanges_outcome (running : c.stopped = false) :
    c.Exchanges (c.step (.turn .outcome)) [] (c.takes (.turn .outcome)) := by
  have after : c.step (.turn .outcome) = c.outcome?.getD c := step_of_running running _
  rcases c.outcome_cases with quiet | ⟨o, os, i, -, -, -, opens | stays⟩
  · exact exchanges_of_quiet (after ▸ quiet) rfl
  -- A link has opened, and what waits is handed over to it.
  · rcases (c.opening os i).flushQueue_cases rfl with
      ⟨-, accepted, outbox⟩ | ⟨room, sent, left, others, hands⟩
    · rw [opens.2] at after
      have same : (c.step (.turn .outcome)).accepted = c.accepted := by rw [after]; exact accepted
      rw [takes_eq_nil same]
      exact .quiet same (by rw [after]; exact outbox)
    · have hands : HandsOver c (c.step (.turn .outcome)) room i sent left others := by
        rw [after, opens.2]
        exact ⟨hands.active, hands.split, hands.accepted, hands.entries,
          hands.others_eq, hands.stuck⟩
      rw [hands.takes_eq]
      exact .handOver room i sent left others hands
  · rw [stays.2] at after
    have same : (c.step (.turn .outcome)).accepted = c.accepted := by rw [after]; rfl
    rw [takes_eq_nil same]
    exact .quiet same (by rw [after]; rfl)

private theorem exchanges_send (running : c.stopped = false) (p : Payload) :
    c.Exchanges (c.step (.turn (.command (.send p)))) [c.entry p]
      (c.takes (.turn (.command (.send p)))) := by
  have after : c.step (.turn (.command (.send p))) = c.send p := step_of_running running _
  rcases c.send_cases p with ⟨i, links, isOpen, -, reads, sent⟩ | ⟨cannot, queued⟩
  · rw [sent] at after
    have accepted : (c.step (.turn (.command (.send p)))).accepted =
        c.accepted ++ [(i, p.frame)] := by rw [after]
    have taken : c.takes (.turn (.command (.send p))) = [c.entry p] := by
      rw [takes_eq accepted]
      simp
    rw [taken]
    exact .transmit p i isOpen reads accepted (by rw [after])
  · rw [queued] at after
    have accepted : (c.step (.turn (.command (.send p)))).accepted = c.accepted := by
      rw [after]
      rfl
    rw [takes_eq_nil accepted]
    exact .enqueue p cannot accepted (by rw [after]; rfl)

private theorem exchanges_typing (running : c.stopped = false) (on : Bool) :
    c.Exchanges (c.step (.turn (.command (.typing on)))) []
      (c.takes (.turn (.command (.typing on)))) := by
  have after : c.step (.turn (.command (.typing on))) = c.sendTyping on := step_of_running running _
  rcases c.sendTyping_spec on with ⟨i, links, room, -, -, -, said⟩ | lost
  · rw [said] at after
    have accepted : (c.step (.turn (.command (.typing on)))).accepted =
        c.accepted ++ [(i, typingFrame c.profile.user room on)] := by rw [after]
    have taken : c.takes (.turn (.command (.typing on))) = [] := by
      rw [takes_eq accepted]
      simp
    rw [taken]
    exact .signal i _ (payload?_typingFrame ..) accepted (by rw [after])
  · rw [lost] at after
    exact exchanges_of_quiet (by rw [after]; exact .refl c) rfl

private theorem sends_of_silent {h : Happening} (silent : speaks h = false) : c.sends h = [] := by
  unfold sends
  split
  · simp [speaks] at silent
  · rfl

/-- Every step is an exchange of what is sent for what is taken. -/
theorem step_exchanges (c : Client) (h : Happening) :
    c.Exchanges (c.step h) (c.sends h) (c.takes h) := by
  cases silent : speaks h with
  | false => exact exchanges_of_quiet (c.step_quiet silent) (sends_of_silent silent)
  | true =>
    cases h with
    | turn t =>
      cases running : c.stopped with
      | true =>
        refine exchanges_of_quiet ?_ ?_
        · rw [step_of_stopped running]
          exact .refl c
        · unfold sends
          split <;> simp [running]
      | false =>
        cases t with
        | outcome => exact exchanges_outcome running
        | command command =>
          cases command with
          | send p =>
            have sends : c.sends (.turn (.command (.send p))) = [c.entry p] := by
              simp [Client.sends, running]
            rw [sends]
            exact exchanges_send running p
          | typing on => exact exchanges_typing running on
          | _ => simp [speaks] at silent
        | _ => simp [speaks] at silent
    | _ => simp [speaks] at silent

end Client

end ChatClient
