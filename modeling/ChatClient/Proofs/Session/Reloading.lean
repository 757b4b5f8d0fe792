import ChatClient.Proofs.Queue.Survival
import ChatClient.Proofs.Session.Delivery
import ChatClient.Proofs.Session.Exchange
import Mathlib.Tactic.Common

/-!
# What was stored goes out as if it were sent at once

A payload that cannot be sent is put into the outbox and written to a file. Another client may read
the file, long after the first one has gone, and send what it finds there when a link opens. The
servers then get the very texts that they would have got if the payloads had been sent over the open
link one by one.

This comes from two sides. What is read from the file are the entries that were written there,
whatever they are made of; and to hand out entries is to hand their frames to the link in their
order, which is what sending does over an open link. When the link takes no more, neither of the two
changes the network.

## Main definitions

* `Network.say`: frames are handed to a link one after the other
* `Client.Resumes`, `Client.Beside`: a client whose link has just opened, and one that is open
  already

## Main results

* `toNetwork_run_send`: what servers get by sending over an open link
* `toNetwork_flushQueue`: what they get when a link opens
* `stored_like_live`: they get the same by both, from a file that was written and read again
-/

namespace ChatClient

namespace Network

variable {n : Network} {i : Nat}

/-- The network after frames were handed to a link one after the other, whether it took them or
not. -/
def say (n : Network) (i : Nat) (fs : List Wire.Frame) : Network :=
  fs.foldl (fun n f => (n.transmit i f).1) n

private theorem say_cons (f : Wire.Frame) (fs : List Wire.Frame) :
    n.say i (f :: fs) = (n.transmit i f).1.say i fs := rfl

/-- A link that does not take one frame does not take any other. -/
theorem transmit_of_refused {f : Wire.Frame} (refused : (n.transmit i f).2 = false)
    (f' : Wire.Frame) : n.transmit i f' = (n, false) := by
  rw [transmit] at refused ⊢
  split at refused
  · rfl
  · split at refused
    · cases refused
    · next deaf => rw [if_neg deaf]

private theorem say_of_refused {f : Wire.Frame} (refused : (n.transmit i f).2 = false)
    (fs : List Wire.Frame) : n.say i fs = n := by
  induction fs with
  | nil => rfl
  | cons f' fs ih => rw [say_cons, transmit_of_refused refused, ih]

end Network

namespace Client

variable {c : Client} {i : Nat} {room : RoomId}

/-! ## Over a link that is open -/

private theorem toNetwork_transmit (held : c.link = some i) (f : Wire.Frame) :
    (c.transmit f).1.toNetwork = (c.toNetwork.transmit i f).1 ∧
      (c.transmit f).2 = (c.toNetwork.transmit i f).2 := by
  simp [transmit, held]

/-- What is sent over an open link is handed to it. If it is not taken it waits, which does not
concern the network. -/
theorem toNetwork_send (isOpen : c.machine.state = .open) (held : c.link = some i) (p : Payload) :
    (c.send p).toNetwork = (c.toNetwork.transmit i p.frame).1 := by
  obtain ⟨network, taken⟩ := toNetwork_transmit held p.frame
  rw [← network, send, if_pos (by simp [isOpen, ConnectionState.isOpen])]
  split
  · next c' h => rw [h]
  · next c' h =>
    rw [h]
    rfl

/-- Payloads that are sent one after the other over an open link say their frames on it, as far as
they are taken. -/
theorem toNetwork_run_send (running : c.stopped = false) (isOpen : c.machine.state = .open)
    (held : c.link = some i) (es : List QueueEntry) :
    (c.run (es.map fun e => .turn (.command (.send e.payload)))).toNetwork =
      c.toNetwork.say i (es.map fun e => e.payload.frame) := by
  induction es generalizing c with
  | nil => rfl
  | cons e es ih =>
    have sent : c.step (.turn (.command (.send e.payload))) = c.send e.payload :=
      step_of_running running _
    have standing := c.standing_send e.payload
    rw [List.map_cons, run_cons, sent, List.map_cons, Network.say_cons,
      ← toNetwork_send isOpen held]
    apply ih
    · rw [← running]
      exact congrArg Standing.stopped standing
    · rw [← isOpen]
      exact congrArg (fun s => s.machine.state) standing
    · rw [← held]
      exact congrArg Standing.link standing

/-! ## When a link opens -/

private theorem toNetwork_transmitAll (held : c.link = some i) (es : List QueueEntry) :
    (c.transmitAll es).1.toNetwork = c.toNetwork.say i (es.map fun e => e.payload.frame) := by
  induction es generalizing c with
  | nil => rfl
  | cons e es ih =>
    obtain ⟨network, taken⟩ := toNetwork_transmit held e.payload.frame
    have link := congrArg Standing.link (c.standing_transmit e.payload.frame)
    rw [transmitAll, List.map_cons]
    split
    · next c' h =>
      rw [h] at network link
      rw [ih (link.trans held), Network.say_cons, ← network]
    -- The first entry that is not taken ends the sending, and no other would have been taken.
    · next c' h =>
      rw [h] at network taken
      rw [Network.say_of_refused (taken.symm : _ = false), network,
        Network.transmit_of_refused taken.symm]

private theorem toNetwork_transmitOrRequeue (held : c.link = some i) (es : List QueueEntry) :
    (c.transmitOrRequeue es).toNetwork = c.toNetwork.say i (es.map fun e => e.payload.frame) := by
  rw [← toNetwork_transmitAll held es, transmitOrRequeue]
  split
  · next c' h => rw [h]
  · next c' left _ h =>
    rw [h]
    rfl

/-- What waits for the room is handed to the link when it can be taken out of the outbox. -/
theorem toNetwork_flushQueue (held : c.link = some i) (active : c.room = some room)
    (flushes : c.flushes = true) :
    c.flushQueue.toNetwork = c.toNetwork.say i (framesFor room c.outbox.entries) := by
  rw [Client.flushes, active] at flushes
  rcases c.outbox.flush_cases c.disk fun e => e.room == room with ⟨d, flushed⟩ | ⟨d, e, failed⟩
  · rw [flushQueue_of_ok active flushed]
    -- What is dropped for other rooms is dropped before anything is sent.
    obtain ⟨others, d', dropped, -⟩ := exists_dropOthers { c with
      outbox := { c.outbox with entries := c.outbox.entries.filter fun e => !(e.room == room) }
      disk := d }
    rw [dropped]
    let rest : Client := { c with outbox := { c.outbox with entries := others }, disk := d' }
    exact toNetwork_transmitOrRequeue (show rest.link = some i from held) _
  · simp [failed, Except.isOk, Except.toBool] at flushes

/-! ## From one client to another by way of a file -/

/-- A link of the session has opened for the room, and what waits for the room can be taken out of
the outbox. -/
structure Resumes (c : Client) (room : RoomId) (i : Nat) : Prop where
  running : c.stopped = false
  connecting : c.machine.state = .connecting
  active : c.room = some room
  opened : ∃ o os, c.outcomes = o :: os ∧ o.epoch = c.epoch ∧ o.link = some i
  flushes : c.flushes = true

/-- The other client is open over the link already, and the network is the same but for the outcome
that is looked at first. -/
structure Beside (c live : Client) (i : Nat) : Prop where
  running : live.stopped = false
  isOpen : live.machine.state = .open
  held : live.link = some i
  network : live.toNetwork = { c.toNetwork with outcomes := c.outcomes.tail }

/-- The payloads of entries are sent one after the other. -/
def sendAll (es : List QueueEntry) : List Happening :=
  es.map fun e => .turn (.command (.send e.payload))

/-- When a link opens, what waits for the room goes out as if it were sent over the open link. -/
theorem Resumes.toNetwork_step (resumes : Resumes c room i) {live : Client}
    (beside : Beside c live i) :
    (c.step (.turn .outcome)).toNetwork =
      (live.run (sendAll (c.outbox.entries.filter fun e => e.room == room))).toNetwork := by
  obtain ⟨o, os, queued, current, link⟩ := resumes.opened
  have after : c.step (.turn .outcome) = (c.opening os i).flushQueue.publish := by
    rw [step_of_running resumes.running]
    exact c.outcome_opens queued current link resumes.connecting
  have network : (c.opening os i).toNetwork = live.toNetwork := by
    rw [beside.network, queued]
    rfl
  calc (c.step (.turn .outcome)).toNetwork
      = (c.opening os i).flushQueue.toNetwork := by rw [after]; rfl
    _ = live.toNetwork.say i (framesFor room c.outbox.entries) := by
        rw [toNetwork_flushQueue (c := c.opening os i) rfl resumes.active resumes.flushes, network]
        rfl
    _ = _ := (toNetwork_run_send beside.running beside.isOpen beside.held _).symm

/-- A list of entries is read back from its stored form, whatever it is made of. So if a payload
cannot be sent, waits, and is saved with all others, the outbox that is loaded from the file holds
it at its end; and when a link opens to a client with this outbox, the servers get what they would
have got if the payloads that wait for the room had been sent one by one over the open link. -/
theorem stored_like_live :
    (∀ entries, QueueEntry.readAll (QueueEntry.writeAll entries) = .ok entries) ∧
      ∀ (c : Client) (path : Path) (p : Payload), c.outbox.file = some path →
        c.machine.state ≠ .open ∨ c.canSend = false →
        (c.outbox.enqueue c.disk (c.entry p)).2.2 = .ok () →
        ∃ q, Outbox.load (c.send p).disk.tree path = .ok q ∧
          q.entries = c.outbox.entries ++ [c.entry p] ∧
          ∀ (later live : Client) (room : RoomId) (i : Nat), later.outbox = q →
            later.Resumes room i → later.Beside live i →
            (later.step (.turn .outcome)).toNetwork =
              (live.run (sendAll (q.entries.filter fun e => e.room == room))).toNetwork := by
  refine ⟨readAll_writeAll, fun c path p file waits saved => ?_⟩
  -- Nothing is sent over a link that is not open or takes nothing.
  have queued : c.send p = c.enqueue p := by
    rcases c.send_cases p with ⟨i, links, isOpen, -, reads, -⟩ | ⟨-, queued⟩
    · rcases waits with closed | deaf
      · exact absurd isOpen closed
      · simp [reads] at deaf
    · exact queued
  refine ⟨(c.send p).outbox, ?_, by rw [queued]; rfl, ?_⟩
  · rw [queued]
    exact Outbox.load_of_save (q := { c.outbox with entries := c.outbox.entries ++ [c.entry p] })
      file (Prod.ext rfl saved)
  · intro later live room i same resumes beside
    rw [← same]
    exact resumes.toNetwork_step beside

end Client

/-! ### A detour

An answer of which not much is known is stored and sent by a client that was not there when it was
written. -/

namespace Detour

/-- A file whose address has quotes, a control character and letters beyond ASCII in it. -/
def answer : Payload where
  kind := .file
  author := profile.user
  roomId := lobby
  body := "\"é\n\x01"
  reply := some ⟨⟨"m1", by decide⟩, none, some "«»"⟩

def writer : Client := .start profile {} { file := some drawer } .empty {} .epoch

/-- The outbox that the answer waits in. -/
def drawerful : Outbox := { entries := [⟨lobby, answer⟩], file := some drawer }

def successor : Client :=
  (Client.start profile {} drawerful .empty (writer.send answer).disk .epoch).run [
    .turn (.command (.select (some lobby))), .settle 0 (.accepted none)]

end Detour

theorem stored_like_live_detour :
    Outbox.load (Detour.writer.send Detour.answer).disk.tree Detour.drawer = .ok Detour.drawerful ∧
      Detour.successor.Resumes Detour.lobby 0 ∧
      Detour.successor.Beside (Detour.successor.opening [] 0) 0 ∧
      (Detour.successor.step (.turn .outcome)).accepted = [(0, Detour.answer.frame)] ∧
      (Detour.successor.step (.turn .outcome)).toNetwork =
        ((Detour.successor.opening [] 0).run (Client.sendAll
          (Detour.drawerful.entries.filter fun e => e.room == Detour.lobby))).toNetwork := by
  have resumes : Detour.successor.Resumes Detour.lobby 0 :=
    ⟨rfl, rfl, rfl, ⟨_, _, rfl, rfl, rfl⟩, rfl⟩
  have beside : Detour.successor.Beside (Detour.successor.opening [] 0) 0 := ⟨rfl, rfl, rfl, rfl⟩
  obtain ⟨q, loaded, entries, alike⟩ :=
    Client.stored_like_live.2 Detour.writer Detour.drawer Detour.answer rfl (.inl (by decide)) rfl
  have here : q = Detour.drawerful :=
    Except.ok.inj (loaded.symm.trans (Outbox.load_of_read rfl))
  subst here
  exact ⟨loaded, resumes, beside, by decide, alike _ _ _ _ rfl resumes beside⟩

end ChatClient
