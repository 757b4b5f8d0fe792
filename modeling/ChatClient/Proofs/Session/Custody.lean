import ChatClient.Proofs.Session.Delivery
import ChatClient.Proofs.Session.Exchange
import ChatClient.Proofs.Session.Setting
import Mathlib.Tactic.Common

/-!
# Nothing is lost when the file fails

Three things can go wrong between the outbox and its file. An entry may be added without being
written, entries may be put back without being written, and entries may not be taken out because
what is left cannot be written. The outbox goes on with what it has in memory, and it only lets go
of an entry that it hands to the caller. So every payload is in exactly one place, with a server or
in the outbox, whatever becomes of the file.

## Main results

* `Exchanges.balance`: a step neither loses nor doubles an entry
* `run_balance`: along every run the payloads that were taken and those that wait are those that
  waited at first and those that were sent
-/

namespace ChatClient

namespace Client

variable {c c' : Client} {sent taken : List QueueEntry}

/-- The entries that pass a test and those that do not are all of them. -/
theorem HandsOver.balance {room : RoomId} {i : Nat} {left others : List QueueEntry}
    (hands : HandsOver c c' room i taken left others)
    (retains : c.profile.flushPolicy = .retainOtherRooms) :
    (taken ++ c'.outbox.entries).Perm c.outbox.entries := by
  have others_eq : others = c.outbox.entries.filter fun e => !(e.room == room) :=
    hands.others_eq.resolve_right fun drops => by simp [retains] at drops
  rw [hands.entries, others_eq, ← List.append_assoc, ← hands.split]
  exact List.filter_append_perm _ _

/-- Nothing is gained or lost in an exchange: what was taken and what waits is what waited and what
was sent. -/
theorem Exchanges.balance (x : Exchanges c c' sent taken)
    (retains : c.profile.flushPolicy = .retainOtherRooms) :
    (taken ++ c'.outbox.entries).Perm (c.outbox.entries ++ sent) := by
  cases x with
  | quiet accepted outbox => rw [outbox, List.append_nil, List.nil_append]
  | signal i f bare accepted outbox => rw [outbox, List.append_nil, List.nil_append]
  | transmit p i isOpen reads accepted outbox =>
    rw [outbox]
    exact List.perm_append_comm
  | enqueue p cannot accepted entries => rw [entries, List.nil_append]
  | handOver room i taken left others hands =>
    rw [List.append_nil]
    exact hands.balance retains

/-- What is taken along a run and what waits after it is what waited before and what is sent. -/
theorem balance_run (retains : c.profile.flushPolicy = .retainOtherRooms) (hs : List Happening) :
    (c.record takes hs ++ (c.run hs).outbox.entries).Perm
      (c.outbox.entries ++ c.record sends hs) := by
  induction hs generalizing c with
  | nil => simp
  | cons h hs ih =>
    have first := (c.step_exchanges h).balance retains
    have rest := ih (c := c.step h) (by rw [profile_step, retains])
    have later := rest.append_left (c.takes h)
    have sooner := first.append_right ((c.step h).record sends hs)
    rw [run_cons, record_cons, record_cons]
    simp only [List.append_assoc] at later sooner ⊢
    exact later.trans sooner

/-- The record of frames holds what is taken, and nothing else. -/
theorem Exchanges.delivered (x : Exchanges c c' sent taken) :
    c'.delivered = c.delivered ++ taken.map QueueEntry.payload := by
  have append {new : List (Nat × Wire.Frame)} (accepted : c'.accepted = c.accepted ++ new) :
      c'.delivered = c.delivered ++ new.filterMap fun t => t.2.payload? := by
    rw [Client.delivered, accepted, List.filterMap_append]
    rfl
  cases x with
  | quiet accepted outbox => simp [append (accepted.trans (List.append_nil _).symm)]
  | signal i f bare accepted outbox => simp [append accepted, bare]
  | transmit p i isOpen reads accepted outbox => simp [append accepted, entry]
  | enqueue p cannot accepted entries =>
    simp [append (accepted.trans (List.append_nil _).symm)]
  | handOver room i taken left others hands =>
    rw [append hands.accepted, List.filterMap_map]
    congr 1
    simp

/-- The payloads that were taken and those that wait. -/
def held (c : Client) : List Payload := c.delivered ++ c.outbox.entries.map QueueEntry.payload

private theorem step_balance (retains : c.profile.flushPolicy = .retainOtherRooms) (h : Happening) :
    (c.step h).held.Perm (c.held ++ (c.sends h).map QueueEntry.payload) := by
  have x := c.step_exchanges h
  have moved := (x.balance retains).map QueueEntry.payload
  rw [List.map_append, List.map_append] at moved
  rw [held, held, x.delivered, List.append_assoc, List.append_assoc]
  exact moved.append_left _

private theorem held_run (retains : c.profile.flushPolicy = .retainOtherRooms)
    (hs : List Happening) :
    (c.run hs).held.Perm (c.held ++ (c.record sends hs).map QueueEntry.payload) := by
  induction hs generalizing c with
  | nil => simp
  | cons h hs ih =>
    have later := ih (c := c.step h) (by rw [profile_step, retains])
    rw [run_cons, record_cons, List.map_append, ← List.append_assoc]
    exact later.trans ((step_balance retains h).append_right _)

/-- With an outbox that keeps what waits for other rooms, and after everything that can happen in
whatever order, faults of the disk included, the payloads that were taken by links together with
those that wait are those that waited at first together with those that were sent, each as often. -/
theorem run_balance (profile : Profile) (backoff : Backoff) (outbox : Outbox) (chat : Chat)
    (disk : Disk) (clock : Timestamp) (hs : List Happening)
    (retains : profile.flushPolicy = .retainOtherRooms) :
    ((start profile backoff outbox chat disk clock).run hs).held.Perm
      ((outbox.entries ++ (start profile backoff outbox chat disk clock).record sends hs).map
        QueueEntry.payload) := by
  have balance := held_run (c := start profile backoff outbox chat disk clock) retains hs
  rw [List.map_append]
  exact balance

end Client

namespace Detour

/-- Two entries wait in a file. -/
def stored : Outbox := { entries := waiting, file := some (.ofText "waiting.json") }

/-- The disk fails when an entry is added, when one is put back, and when some are to be taken
out. -/
def unreliable : Disk :=
  let fault : Option Fault := some ⟨.isDirectory, 3⟩
  { faults := [fault, none, none, none, fault, none, none, none, fault] }

def cautious : Client := .start profile {} stored .empty unreliable .epoch

/-- The first link takes one of two entries, and those that wait when the second one opens stay
where they are. -/
def mishaps : List Happening := [
  .turn (.command (.send (note "second"))), .turn (.command (.select (some lobby))),
  .settle 0 (.accepted (some 1)), .turn .outcome, .turn (.command (.send (note "third"))),
  .hangUp 0, .turn .listen, .pass 1000, .turn .timer, .settle 1 (.accepted none), .turn .outcome,
  .turn (.command (.send (note "fourth")))]

end Detour

theorem run_balance_detour :
    Detour.profile.flushPolicy = .retainOtherRooms ∧
      (Detour.cautious.run Detour.mishaps).held =
        ["first", "fourth", "second", "third"].map Detour.note ∧
      (Detour.cautious.run Detour.mishaps).held.Perm
        (["first", "second", "third", "fourth"].map Detour.note) := by
  have balance := Client.run_balance Detour.profile {} Detour.stored .empty Detour.unreliable .epoch
    Detour.mishaps rfl
  have all : (Detour.stored.entries ++ Detour.cautious.record Client.sends Detour.mishaps).map
      QueueEntry.payload = ["first", "second", "third", "fourth"].map Detour.note := by decide
  exact ⟨rfl, by decide, all ▸ balance⟩

end ChatClient
