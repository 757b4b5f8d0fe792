import ChatClient.Proofs.Session.Exchange
import ChatClient.Proofs.Session.Lifetime

/-!
# The rooms that frames name

Every frame of the client names a room, and so does every payload that waits. Nobody checks that it
is the room of the link that takes the frame, or the one for which the payload waits. It is, as long
as a payload is sent only while its own room is active: then it is taken by a link of that room, or
it is put into the outbox under that room and handed to a link of that room later.

## Main definitions

* `Client.Addressed`: every frame was taken by a link of the room that it names
* `Client.Filed`: every entry waits for the room that its payload names
* `Client.Aims`: what is sent is for the active room

## Main results

* `filed_step`, `addressed_step`: a step keeps both if what is sent in it is for the active room
-/

namespace ChatClient.Client

variable {c : Client}

/-- Every frame was taken by a link that was opened for the room that the frame names. -/
def Addressed (c : Client) : Prop :=
  ∀ p ∈ c.accepted, ∃ l, c.links[p.1]? = some l ∧ p.2.roomId = some l.room.text

/-- Every entry waits for the room that its payload names. -/
def Filed (c : Client) : Prop := ∀ e ∈ c.outbox.entries, e.room = e.payload.roomId

/-- If a payload is sent when this happens, then it is for the active room. -/
def Aims (c : Client) (h : Happening) : Prop :=
  ∀ p, h = .turn (.command (.send p)) → c.stopped = false → c.room = some p.roomId

/-- A payload for the active room is put into the outbox under that room. -/
theorem Aims.sends {h : Happening} (aims : c.Aims h) :
    ∀ e ∈ c.sends h, e.room = e.payload.roomId := by
  intro e mem
  unfold Client.sends at mem
  split at mem
  · next p =>
    split at mem
    · contradiction
    · next running =>
      obtain rfl := List.mem_singleton.1 mem
      simp [entry, aims p rfl (by simpa using running)]
  · contradiction

/-- What a flush leaves in the outbox was there before. -/
theorem HandsOver.filed {c' : Client} {room : RoomId} {i : Nat} {sent left others : List QueueEntry}
    (hands : HandsOver c c' room i sent left others) (filed : c.Filed) : c'.Filed := by
  intro e mem
  rw [hands.entries, List.mem_append] at mem
  rcases mem with back | other
  · have flushed : e ∈ c.outbox.entries.filter fun e => e.room == room := by
      rw [hands.split]
      exact List.mem_append_right _ back
    exact filed e (List.mem_filter.1 flushed).1
  · rcases hands.others_eq with kept | ⟨-, dropped⟩
    · rw [kept] at other
      exact filed e (List.mem_filter.1 other).1
    · rw [dropped] at other
      contradiction

/-- If what is sent is for the room under which it would be filed, entries stay filed rightly. -/
theorem filed_step {h : Happening} (filed : c.Filed) (aims : c.Aims h) : (c.step h).Filed := by
  have exchanges := c.step_exchanges h
  have own := aims.sends
  generalize c.sends h = sends at exchanges own
  generalize c.takes h = takes at exchanges
  unfold Filed
  cases exchanges with
  | quiet accepted outbox => rw [outbox]; exact filed
  | signal i f bare accepted outbox => rw [outbox]; exact filed
  | transmit p i isOpen reads accepted outbox => rw [outbox]; exact filed
  | enqueue p cannot accepted entries =>
    rw [entries]
    intro e mem
    rcases List.mem_append.1 mem with old | new
    · exact filed e old
    · exact own e new
  | handOver room i sent left others hands => exact hands.filed filed

/-! ## What is said -/

/-- What a step does to the active room, apart from selecting another one. -/
theorem room_step_of_free (s : c.standing.Sound) {h : Happening}
    (free : ∀ room, h ≠ .turn (.command (.select room))) : (c.step h).room = c.room := by
  have moves := step_moves s h
  generalize after : (c.step h).standing = s' at moves
  generalize c.leaves h = ends at moves
  have room_eq : (c.step h).room = s'.room := congrArg Standing.room after
  rw [room_eq]
  cases moves with
  | part => exact absurd rfl (free _)
  | enter => exact absurd rfl (free _)
  | _ => rfl

/-- What is said while a link opens are payloads that waited for its room. -/
theorem names_outcome (s : c.standing.Sound) (filed : c.Filed) :
    ∃ new, (c.outcome?.getD c).accepted = c.accepted ++ new ∧
      ∀ p ∈ new, p.2.roomId = c.room.map Ident.text := by
  rcases c.outcome_quiet_or_opens s with quiet | ⟨o, os, i, -, -, -, opens⟩
  · exact ⟨[], by rw [quiet.accepted, List.append_nil], by simp⟩
  · rw [opens]
    rcases (c.opening os i).flushQueue_cases rfl with
      ⟨-, accepted, -⟩ | ⟨room, sent, left, others, hands⟩
    · exact ⟨[], by rw [List.append_nil]; exact accepted, by simp⟩
    · refine ⟨_, hands.accepted, fun p said => ?_⟩
      obtain ⟨e, mem, rfl⟩ := List.mem_map.1 said
      have flushed : e ∈ c.outbox.entries.filter fun e => e.room == room := by
        have split := hands.split
        change c.outbox.entries.filter _ = _ at split
        rw [split]
        exact List.mem_append_left _ mem
      obtain ⟨waited, here⟩ := List.mem_filter.1 flushed
      have active : c.room = some room := hands.active
      have named : e.payload.roomId = room := by rw [← filed e waited, eq_of_beq here]
      simp [Payload.frame, named, active]

/-- Whatever is said in a step names the active room. -/
theorem step_names (s : c.standing.Sound) {h : Happening} (filed : c.Filed) (aims : c.Aims h) :
    ∃ new, (c.step h).accepted = c.accepted ++ new ∧
      ∀ p ∈ new, p.2.roomId = c.room.map Ident.text := by
  have nothing {c' : Client} (accepted : c'.accepted = c.accepted) :
      ∃ new, c'.accepted = c.accepted ++ new ∧ ∀ p ∈ new, p.2.roomId = c.room.map Ident.text :=
    ⟨[], by rw [accepted, List.append_nil], by simp⟩
  cases silent : speaks h with
  | false => exact nothing (c.step_quiet silent).accepted
  | true =>
    unfold speaks at silent
    cases running : c.stopped with
    | true =>
      split at silent <;> try contradiction
      all_goals exact nothing (by rw [step_of_stopped running])
    | false =>
      split at silent <;> try contradiction
      all_goals rw [step_of_running running]
      · next p =>
        -- A payload names its own room, which is the active one for a command that aims right.
        have active := aims p rfl running
        rcases c.send_cases p with ⟨i, links, -, -, -, sent⟩ | ⟨-, queued⟩
        · refine ⟨[(i, p.frame)], congrArg (·.accepted) sent, ?_⟩
          simp [active, Payload.frame]
        · exact nothing (congrArg (·.accepted) queued)
      · next on =>
        rcases c.sendTyping_spec on with ⟨i, links, room, -, -, active, sent⟩ | lost
        · refine ⟨[(i, typingFrame c.profile.user room on)], congrArg (·.accepted) sent, ?_⟩
          simp [active, typingFrame]
        · exact nothing (congrArg (·.accepted) lost)
      · exact names_outcome s filed

/-- Frames that are taken name the room of their link, and they go on doing so. -/
theorem addressed_step (s : c.standing.Sound) {h : Happening}
    (bound : c.epoch.toNat + (c.leaves h).toNat < 2 ^ 64) (addressed : c.Addressed)
    (filed : c.Filed) (aims : c.Aims h) : (c.step h).Addressed := by
  obtain ⟨new, accepted, named⟩ := step_names s filed aims
  obtain ⟨new', accepted', said⟩ := (confined_step s h bound).frame
  obtain rfl : new = new' := List.append_cancel_left (accepted.symm.trans accepted')
  intro p mem
  rw [accepted, List.mem_append] at mem
  rcases mem with old | fresh
  · -- Links keep their numbers and their rooms.
    obtain ⟨l, hl, names⟩ := addressed p old
    obtain ⟨l', hl', grown⟩ := (c.grows_step h).links _ _ hl
    exact ⟨l', hl', by rw [names, grown.room]⟩
  · obtain ⟨l, hl, active⟩ := said p fresh
    have free : ∀ room, h ≠ .turn (.command (.select room)) := by
      -- Nothing is said while a room is selected.
      rintro room rfl
      have quiet := (c.step_quiet (h := .turn (.command (.select room))) rfl).accepted
      rw [accepted, List.append_right_eq_self] at quiet
      rw [quiet] at fresh
      contradiction
    have same := room_step_of_free s free
    exact ⟨l, hl, by rw [named p fresh, ← same, active]; rfl⟩

end ChatClient.Client
