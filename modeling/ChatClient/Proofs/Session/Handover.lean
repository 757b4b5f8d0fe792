import ChatClient.Proofs.Session.Talk
import Mathlib.Tactic.Common

/-!
# What a link leaves behind when it opens

When a link opens, what waits for its room is taken out of the outbox, what waits for other rooms
may be dropped, and only then is the first entry handed to the link. What the link does not take
goes back to the front. The outbox is written up to three times on the way, and each time the file
may fail.

The order matters. Dropping comes while the entries of the room are out of the outbox, so that it
cannot touch them, and they come back only after it. Here it is said exactly what is sent and what
waits afterwards, in terms of how many frames the link takes and of which of the writes succeed.

## Main definitions

* `Link.TakesFirst`: how many of the next frames a link takes

## Main results

* `transmitAll_take`: a link that takes so many frames is sent so many entries
* `dropOthers_spec`: what is dropped
* `flushQueue_takes`: what is sent and what waits after a link has opened
-/

namespace ChatClient

/-- Of the next `n` frames the link takes the first `k`, and all of them if there are no more than
`k`. -/
def Link.TakesFirst (l : Link) (k n : Nat) : Prop :=
  l.accepts = some k ∨ (l.accepts = none ∧ n ≤ k)

namespace Link

variable {l : Link} {k n : Nat}

/-- A server that takes a frame more takes the next one. -/
theorem TakesFirst.reads (takes : l.TakesFirst (k + 1) n) : l.reads = true := by
  rcases takes with limit | ⟨limit, -⟩ <;> simp [Link.reads, limit]

private theorem TakesFirst.not_reads (takes : l.TakesFirst 0 (n + 1)) : l.reads = false := by
  rcases takes with limit | ⟨-, none_⟩
  · simp [Link.reads, limit]
  · omega

/-- When a server has taken one of the frames, it takes one less of the rest. -/
theorem TakesFirst.accept (takes : l.TakesFirst (k + 1) (n + 1)) : l.accept.TakesFirst k n := by
  rcases takes with limit | ⟨limit, enough⟩
  · exact .inl (by simp [Link.accept, limit])
  · exact .inr ⟨by simp [Link.accept, limit], by omega⟩

end Link

namespace Client

variable (c : Client)

/-! ## What is sent -/

section Sending

variable {c} {i k : Nat} {l : Link} (held : c.link = some i) (hl : c.links[i]? = some l)
include held hl

/-- A frame that the server takes is noted with the link, and nothing else changes. -/
theorem transmit_of_reads (f : Wire.Frame) (reads : l.reads = true) :
    c.transmit f = ({ c with
      links := c.links.set i l.accept
      accepted := c.accepted ++ [(i, f)] }, true) := by
  simp [transmit, held, Network.transmit, hl, reads]

/-- As many entries are taken as the link takes frames, and the others come back. -/
theorem transmitAll_take (es : List QueueEntry) (takes : l.TakesFirst k es.length) :
    ∃ links, c.transmitAll es = ({ c with
      links := links
      accepted := c.accepted ++ (es.take k).map fun e => (i, e.payload.frame) }, es.drop k) := by
  induction es generalizing c l k with
  | nil => exact ⟨c.links, by simp [transmitAll]⟩
  | cons e es ih =>
    cases k with
    | zero =>
      have deaf : c.canSend = false := (canSend_eq held hl).trans takes.not_reads
      exact ⟨c.links, by simp [transmitAll, c.transmit_of_not_canSend _ deaf]⟩
    | succ k =>
      -- The link takes one frame less after the first entry.
      have taken := transmit_of_reads held hl e.payload.frame takes.reads
      have hl' : (c.links.set i l.accept)[i]? = some l.accept :=
        List.getElem?_set_self (List.getElem?_eq_some_iff.1 hl).1
      obtain ⟨links, rest⟩ := ih (c := { c with
        links := c.links.set i l.accept
        accepted := c.accepted ++ [(i, e.payload.frame)] }) held hl' takes.accept
      refine ⟨links, ?_⟩
      rw [transmitAll, taken]
      dsimp only
      rw [rest]
      simp

/-- What the link does not take waits in front of all others. -/
theorem transmitOrRequeue_take (es : List QueueEntry) (takes : l.TakesFirst k es.length) :
    (c.transmitOrRequeue es).accepted =
        c.accepted ++ (es.take k).map (fun e => (i, e.payload.frame)) ∧
      (c.transmitOrRequeue es).outbox.entries = es.drop k ++ c.outbox.entries := by
  obtain ⟨links, taken⟩ := transmitAll_take held hl es takes
  rw [transmitOrRequeue.eq_def, taken]
  cases es.drop k with
  | nil => exact ⟨rfl, rfl⟩
  | cons e left => exact ⟨rfl, rfl⟩

end Sending

/-! ## What is dropped -/

/-- Everything in the outbox is dropped if the client is set up that way and the outbox can be
emptied. Nothing is said meanwhile. -/
theorem dropOthers_spec : c.dropOthers.link = c.link ∧ c.dropOthers.toNetwork = c.toNetwork ∧
    c.dropOthers.outbox.entries =
      if c.profile.flushPolicy = .dropOtherRooms ∧
          (c.outbox.flush c.disk fun _ => true).2.2.isOk = true then []
      else c.outbox.entries := by
  rw [dropOthers]
  split
  · next drops =>
    refine ⟨rfl, rfl, ?_⟩
    rcases c.outbox.flush_cases c.disk fun _ => true with ⟨d, flushed⟩ | ⟨d, e, failed⟩
    · simp [drops, flushed, withOutbox, Except.isOk, Except.toBool]
    · simp [failed, withOutbox, Except.isOk, Except.toBool]
  · next keeps => exact ⟨rfl, rfl, by simp [keeps]⟩

/-! ## The whole handover -/

section Handover

variable {c} {room : RoomId} (active : c.room = some room)
include active

/-- After the first flush has succeeded, the link takes what it can, and the second flush decides on
what waits for others. -/
theorem flushQueue_of_flushed {i k : Nat} {l : Link} (held : c.link = some i)
    (hl : c.links[i]? = some l) {q : Outbox} {d : Disk} {entries : List QueueEntry}
    (flushed : (c.outbox.flush c.disk fun e => e.room == room) = (q, d, .ok entries))
    (takes : l.TakesFirst k entries.length) :
    c.flushQueue.accepted = c.accepted ++ (entries.take k).map (fun e => (i, e.payload.frame)) ∧
      c.flushQueue.outbox.entries = entries.drop k ++
        if c.profile.flushPolicy = .dropOtherRooms ∧
            (q.flush d fun _ => true).2.2.isOk = true then [] else q.entries := by
  obtain ⟨link, network, others⟩ := dropOthers_spec { c with outbox := q, disk := d }
  have sent := transmitOrRequeue_take (link.trans held) (by rw [network]; exact hl) entries takes
  rw [network, others, ← flushQueue_of_ok active flushed] at sent
  exact sent

end Handover

/-- If the first entries wait for a room and the others do not, then the first ones are what waits
for it. -/
theorem filter_append_others {here others : List QueueEntry} {room : RoomId}
    (mine : ∀ e ∈ here, e.room = room) (theirs : ∀ e ∈ others, e.room ≠ room) :
    ((here ++ others).filter fun e => e.room == room) = here := by
  have all : (here.filter fun e => e.room == room) = here := by
    rw [List.filter_eq_self]
    simpa using mine
  have none_ : (others.filter fun e => e.room == room) = [] := by
    rw [List.filter_eq_nil_iff]
    simpa using theirs
  rw [List.filter_append, all, none_, List.append_nil]

/-- A link has come into use that takes the next `k` frames. If what waits for the room cannot be
taken out of the outbox, nothing happens. Otherwise the first `k` entries of the room are sent in
their order; the others wait in front, and behind them what waits for other rooms, unless that is to
be dropped and can be. In any case what waits for the room is sent or still waits, in its order. -/
theorem flushQueue_takes {room : RoomId} {i k : Nat} {l : Link} (active : c.room = some room)
    (held : c.link = some i) (hl : c.links[i]? = some l)
    (takes : l.TakesFirst k (c.outbox.entries.filter fun e => e.room == room).length) :
    let here := c.outbox.entries.filter fun e => e.room == room
    let others := c.outbox.entries.filter fun e => !(e.room == room)
    let first := c.outbox.flush c.disk fun e => e.room == room
    let second := first.1.flush first.2.1 fun _ => true
    (first.2.2.isOk = false →
        c.flushQueue.accepted = c.accepted ∧ c.flushQueue.outbox = c.outbox) ∧
      (first.2.2.isOk = true →
        c.flushQueue.accepted = c.accepted ++ (here.take k).map (fun e => (i, e.payload.frame)) ∧
          c.flushQueue.outbox.entries = here.drop k ++
            if c.profile.flushPolicy = .dropOtherRooms ∧ second.2.2.isOk = true then []
            else others) ∧
      ∃ sent, c.flushQueue.accepted = c.accepted ++ sent.map (fun e => (i, e.payload.frame)) ∧
        sent ++ (c.flushQueue.outbox.entries.filter fun e => e.room == room) = here := by
  intro here others first second
  rcases c.outbox.flush_cases c.disk fun e => e.room == room with ⟨d, flushed⟩ | ⟨d, e, failed⟩
  · have ok : first = ({ c.outbox with entries := others }, d, .ok here) := flushed
    have sent := flushQueue_of_flushed active held hl flushed takes
    simp only [second, ok]
    refine ⟨nofun, fun _ => sent, here.take k, sent.1, ?_⟩
    -- What waits for others does not count, be it dropped or not.
    rw [sent.2, filter_append_others, List.take_append_drop]
    · intro e mem
      simpa using (List.mem_filter.1 (List.mem_of_mem_drop mem)).2
    · intro e mem
      split at mem
      · contradiction
      · simpa using (List.mem_filter.1 mem).2
  · have error : first = (c.outbox, d, .error e) := failed
    rw [flushQueue_of_error active failed]
    rw [error]
    exact ⟨fun _ => ⟨rfl, rfl⟩, nofun, [], by simp, rfl⟩

end Client

namespace Detour

/-- A text that waits for a room. -/
def line (room : RoomId) (body : String) : QueueEntry := ⟨room, .text profile.user room body⟩

/-- What waits for two rooms, in a file. -/
def crowd : Outbox where
  entries := [line lobby "one", line attic "two", line lobby "three"]
  file := some (.ofText "waiting.json")

/-- The disk fails when the file is rewritten for the second time. -/
def failing : Disk where
  faults := [none, none, none, some ⟨.isDirectory, 3⟩]

/-- A link to the lobby has opened that takes one frame, and nothing is kept for other rooms. -/
def handing : Client :=
  ((Client.start { profile with flushPolicy := .dropOtherRooms } {} crowd .empty failing .epoch).run
    [.turn (.command (.select (some lobby))), .settle 0 (.accepted (some 1))]).opening [] 0

end Detour

/-- The first flush succeeds and the second one fails. -/
theorem flushQueue_takes_detour :
    Detour.handing.room = some Detour.lobby ∧ Detour.handing.link = some 0 ∧
      (Detour.handing.links[0]?).map Link.accepts = some (some 1) ∧
      Detour.handing.flushQueue.accepted = [(0, (Detour.line Detour.lobby "one").payload.frame)] ∧
      Detour.handing.flushQueue.outbox.entries =
        [Detour.line Detour.lobby "three", Detour.line Detour.attic "two"] := by
  have active : Detour.handing.room = some Detour.lobby := by decide
  have held : Detour.handing.link = some 0 := by decide
  have flushed := Client.flushQueue_takes Detour.handing active held (k := 1)
    (l := { room := Detour.lobby, epoch := 1, accepts := some 1 }) (by decide) (.inl rfl)
  obtain ⟨-, taken, -⟩ := flushed
  obtain ⟨sent, left⟩ := taken (by decide)
  exact ⟨active, held, by decide, sent.trans (by decide), left.trans (by decide)⟩

end ChatClient
