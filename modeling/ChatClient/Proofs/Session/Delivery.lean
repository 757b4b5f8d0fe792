import ChatClient.Proofs.Session.Growth
import ChatClient.Proofs.Session.Talk

/-!
# Every payload arrives once and in order

A payload is sent under a room, the active one if there is one and its own otherwise. It may leave
at once, wait in the outbox, be taken out when a link opens, and be put back when the link fails.
Through all of this the payloads of a room form one line: those that were taken on links of the
room, then those that still wait for it. A payload that is sent goes to the end of the line, and
nothing else changes it.

The line does not get out of order because a payload is sent past the outbox only over a link that
takes frames, and while such a link is in use nothing waits for its room (`Tidy.drained`).

## Main definitions

* `Client.deliveredTo`, `Client.waitingFor`, `Client.line`: the line of a room
* `Client.sentTo`: what is sent under a room
* `Client.Tidy`: the invariant

## Main results

* `flushQueue_inMemory`: what a link does to the line when it opens
* `step_advances`: what one step does to the line of a room
* `run_delivers`: for an outbox without a file that keeps what waits for other rooms, every payload
  is delivered at most once, in order, and waits until then
-/

namespace ChatClient

/-- The frame carries a payload. -/
def Wire.Frame.carriesPayload (f : Wire.Frame) : Bool :=
  f.event? == some .message || f.event? == some .fileMessage

private theorem carriesPayload_frame (p : Payload) : p.frame.carriesPayload = true := by
  cases h : p.kind <;>
    simp [Wire.Frame.carriesPayload, Wire.Frame.event?, Payload.frame, h, PayloadKind.event]

private theorem carriesPayload_typingFrame (user : UserId) (room : RoomId) (on : Bool) :
    (typingFrame user room on).carriesPayload = false := by
  cases on <;> simp [Wire.Frame.carriesPayload, Wire.Frame.event?, typingFrame]

/-- The frames of the entries that wait for a room. -/
def framesFor (room : RoomId) (es : List QueueEntry) : List Wire.Frame :=
  (es.filter fun e => e.room == room).map fun e => e.payload.frame

@[simp] theorem framesFor_append (room : RoomId) (es es' : List QueueEntry) :
    framesFor room (es ++ es') = framesFor room es ++ framesFor room es' := by
  simp [framesFor]

private theorem framesFor_singleton (room : RoomId) (e : QueueEntry) :
    framesFor room [e] = if e.room == room then [e.payload.frame] else [] := by
  by_cases here : e.room = room
  · simp [framesFor, here]
  · simp [framesFor, here]

private theorem framesFor_eq_nil {room : RoomId} {es : List QueueEntry}
    (h : ∀ e ∈ es, e.room ≠ room) :
    framesFor room es = [] := by
  rw [framesFor, List.filter_eq_nil_iff.2, List.map_nil]
  intro e he
  simpa using h e he

private theorem framesFor_of_forall {room : RoomId} {es : List QueueEntry}
    (h : ∀ e ∈ es, e.room = room) :
    framesFor room es = es.map fun e => e.payload.frame := by
  rw [framesFor, List.filter_eq_self.2]
  intro e he
  simpa using h e he

/-- What waits for a room does not depend on what waits for others. -/
theorem framesFor_filter (room : RoomId) {active : RoomId} (other : active ≠ room)
    (es : List QueueEntry) :
    framesFor room (es.filter fun e => !(e.room == active)) = framesFor room es := by
  rw [framesFor, List.filter_filter]
  congr 1
  apply List.filter_congr
  intro e _
  by_cases here : e.room = room
  · simp [here, other.symm]
  · simp [here]

/-- When the entries of a room are taken out, and those that are not sent are put back in front, the
line of every room stays as it was. -/
theorem framesFor_flushed {active : RoomId} {es sent left : List QueueEntry}
    (split : (es.filter fun e => e.room == active) = sent ++ left) (room : RoomId) :
    ((if active = room then sent.map fun e => e.payload.frame else []) ++
        framesFor room (left ++ es.filter fun e => !(e.room == active))) = framesFor room es := by
  have mine : ∀ e ∈ left, e.room = active := by
    intro e he
    have flushed : e ∈ es.filter fun e => e.room == active := by
      rw [split]
      exact List.mem_append_right _ he
    simpa using (List.mem_filter.1 flushed).2
  rw [framesFor_append]
  by_cases here : active = room
  · subst here
    have waiting : framesFor active es = (sent ++ left).map fun e => e.payload.frame := by
      rw [← split]
      rfl
    have others : framesFor active (es.filter fun e => !(e.room == active)) = [] :=
      framesFor_eq_nil fun e he => by simpa using (List.mem_filter.1 he).2
    rw [if_pos rfl, framesFor_of_forall mine, others, waiting, List.map_append, List.append_nil]
  -- Another room has nothing taken from its line and nothing put into it.
  · have kept : framesFor room left = [] := framesFor_eq_nil fun e he => by
      rw [mine e he]
      exact here
    rw [if_neg here, kept, framesFor_filter room here, List.nil_append, List.nil_append]

/-- The outbox after everything for a room was taken out of it. -/
def Outbox.without (q : Outbox) (room : RoomId) : Outbox :=
  { q with entries := q.entries.filter fun e => !(e.room == room) }

namespace Client

/-- A frame that was taken is a payload, and its link was opened for the room. -/
def delivers (c : Client) (room : RoomId) (taken : Nat × Wire.Frame) : Bool :=
  taken.2.carriesPayload && c.links[taken.1]?.map Link.room == some room

/-- The payloads that were taken on links opened for the room, in the order in which they were. -/
def deliveredTo (c : Client) (room : RoomId) : List Wire.Frame :=
  (c.accepted.filter (c.delivers room)).map Prod.snd

/-- The payloads that wait for the room, in their order. -/
def waitingFor (c : Client) (room : RoomId) : List Wire.Frame :=
  framesFor room c.outbox.entries

/-- The payloads of the room that were taken, then those that still wait. -/
def line (c : Client) (room : RoomId) : List Wire.Frame :=
  c.deliveredTo room ++ c.waitingFor room

/-- The payload that is sent under the room when this happens to the client. -/
def sentTo (room : RoomId) (c : Client) : Happening → List Wire.Frame
  | .turn (.command (.send p)) =>
    if !c.stopped && c.room.getD p.roomId == room then [p.frame] else []
  | _ => []

/-- What holds of a client whose outbox has no file and keeps what waits for other rooms. -/
structure Tidy (c : Client) : Prop where
  sound : c.standing.Sound
  known : ∀ p ∈ c.accepted, p.1 < c.links.length
  memory : c.outbox.file = none
  retains : c.profile.flushPolicy = .retainOtherRooms
  drained : c.canSend = true → ∀ room, c.room = some room → ∀ e ∈ c.outbox.entries, e.room ≠ room

variable {c c' : Client}

/-! ## What is delivered -/

section Grown

variable (grows : c.toNetwork.Grows true c'.toNetwork)
include grows

/-- Links keep their rooms, so that what was delivered to a room stays delivered to it. -/
theorem delivers_of_grows {taken : Nat × Wire.Frame} (known : taken.1 < c.links.length)
    (room : RoomId) : c'.delivers room taken = c.delivers room taken := by
  obtain ⟨l, hl, grown⟩ := grows.links _ _ (List.getElem?_eq_getElem known)
  unfold delivers
  rw [hl, List.getElem?_eq_getElem known, Option.map_some, Option.map_some, grown.room]

variable (known : ∀ p ∈ c.accepted, p.1 < c.links.length)
include known

private theorem deliveredTo_append {new : List (Nat × Wire.Frame)}
    (accepted : c'.accepted = c.accepted ++ new) (room : RoomId) :
    c'.deliveredTo room = c.deliveredTo room ++ (new.filter (c'.delivers room)).map Prod.snd := by
  have old : c.accepted.filter (c'.delivers room) = c.accepted.filter (c.delivers room) :=
    List.filter_congr fun p hp => delivers_of_grows grows (known p hp) room
  unfold deliveredTo
  rw [accepted, List.filter_append, List.map_append, old]

/-- Of the frames that a link takes the payloads are delivered to its room. -/
theorem deliveredTo_of_said {i : Nat} {l : Link} (hl : c.links[i]? = some l)
    {frames : List Wire.Frame} (accepted : c'.accepted = c.accepted ++ frames.map fun f => (i, f))
    (room : RoomId) :
    c'.deliveredTo room =
      c.deliveredTo room ++ if l.room = room then frames.filter (·.carriesPayload) else [] := by
  -- All new frames are on one link, so that they count for its room or not at all.
  have new : (frames.map fun f => (i, f)).filter (c'.delivers room) =
      (frames.filter fun f => f.carriesPayload && l.room == room).map fun f => (i, f) := by
    rw [List.filter_map]
    congr 1
    apply List.filter_congr
    intro f _
    rw [Function.comp_apply, delivers_of_grows grows (List.getElem?_eq_some_iff.1 hl).1]
    simp [delivers, hl]
  rw [deliveredTo_append grows known accepted, new, List.map_map]
  by_cases same : l.room = room
  · simp [same, Function.comp_def]
  · simp [same]

private theorem known_of_said {i : Nat} {l : Link} (hl : c.links[i]? = some l)
    {frames : List Wire.Frame} (accepted : c'.accepted = c.accepted ++ frames.map fun f => (i, f)) :
    ∀ p ∈ c'.accepted, p.1 < c'.links.length := by
  intro p hp
  have longer := Network.length_le_of_grows grows
  have here := (List.getElem?_eq_some_iff.1 hl).1
  rw [accepted, List.mem_append, List.mem_map] at hp
  rcases hp with old | ⟨f, -, rfl⟩
  · have := known p old
    omega
  · exact Nat.lt_of_lt_of_le here longer

end Grown

/-! ## What waits -/

section Flush

variable (memory : c.outbox.file = none) (retains : c.profile.flushPolicy = .retainOtherRooms)
  {room : RoomId} (active : c.room = some room)
include memory retains active

/-- Nothing is dropped for other rooms, so that sending begins with what is left in the outbox. -/
theorem flushQueue_eq : c.flushQueue =
    transmitOrRequeue { c with outbox := c.outbox.without room }
      (c.outbox.entries.filter fun e => e.room == room) := by
  have kept : dropOthers { c with outbox := c.outbox.without room } =
      { c with outbox := c.outbox.without room } := by
    rw [dropOthers]
    exact if_neg (by simp [retains])
  rw [flushQueue_of_ok active (c.outbox.flush_inMemory memory c.disk _)]
  exact congrArg (transmitOrRequeue · _) kept

/-- The payloads that wait for the active room are taken in their order. Those that are not taken
wait in front of all others, and then the link takes no more. -/
theorem flushQueue_inMemory {i : Nat} (held : c.link = some i) :
    ∃ sent left links,
      (c.outbox.entries.filter fun e => e.room == room) = sent ++ left ∧
      c.flushQueue = { c with
        links := links
        accepted := c.accepted ++ sent.map fun e => (i, e.payload.frame)
        outbox := { c.outbox with
          entries := left ++ c.outbox.entries.filter fun e => !(e.room == room) } } ∧
      (left = [] ∨ c.flushQueue.canSend = false) := by
  let rest : Client := { c with outbox := c.outbox.without room }
  obtain ⟨sent, left, links, split, taken, stuck⟩ :=
    rest.transmitAll_spec held (c.outbox.entries.filter fun e => e.room == room)
  have after : c.flushQueue = { c with
      links := links
      accepted := c.accepted ++ sent.map fun e => (i, e.payload.frame)
      outbox := { c.outbox with
        entries := left ++ c.outbox.entries.filter fun e => !(e.room == room) } } := by
    rw [flushQueue_eq memory retains active, transmitOrRequeue, taken]
    -- With nothing left over nothing goes back.
    cases left with
    | nil => rfl
    | cons e es =>
      have back := Outbox.requeueFront_inMemory (q := rest.outbox) memory rest.disk (e :: es)
      change withOutbox _ (rest.outbox.requeueFront rest.disk (e :: es)) = _
      rw [back]
      rfl
  refine ⟨sent, left, links, split, after, ?_⟩
  rcases stuck with none_ | deaf
  · exact .inl none_
  · right
    rw [taken] at deaf
    rw [after]
    exact deaf

end Flush

/-! ## What a step does to the lines -/

/-- The line of every room grows by what is sent under it, and nothing waits for the active room
while the link takes frames. -/
structure Advances (c c' : Client) (sent : RoomId → List Wire.Frame) : Prop where
  known : ∀ p ∈ c'.accepted, p.1 < c'.links.length
  memory : c'.outbox.file = none
  drained : c'.canSend = true → ∀ room, c'.room = some room → ∀ e ∈ c'.outbox.entries, e.room ≠ room
  line : ∀ room, c'.line room = c.line room ++ sent room

/-- A link that takes frames has taken frames before. -/
theorem canSend_of_grows (known : ∀ i, c.link = some i → i < c.links.length)
    (grows : c.toNetwork.Grows true c'.toNetwork) (link : c'.link = c.link)
    (h : c'.canSend = true) : c.canSend = true := by
  obtain ⟨i, held'⟩ := c'.link_of_canSend h
  have held : c.link = some i := link ▸ held'
  have hl := List.getElem?_eq_getElem (known i held)
  obtain ⟨l', hl', grown⟩ := grows.links i _ hl
  rw [canSend_eq held hl]
  rw [canSend_eq held' hl'] at h
  exact grown.reads h

private theorem lt_of_held (s : c.standing.Sound) (i : Nat) (held : c.link = some i) :
    i < c.links.length := by
  obtain ⟨l, hl, -, -⟩ := exists_held s held
  exact (List.getElem?_eq_some_iff.1 hl).1

/-- A step in which nothing is said and nothing is filed delivers nothing. -/
theorem Tidy.quiet (t : c.Tidy) (grows : c.toNetwork.Grows true c'.toNetwork) (quiet : Quiet c c') :
    Advances c c' fun _ => [] where
  known p hp := by
    rw [quiet.accepted] at hp
    exact Nat.lt_of_lt_of_le (t.known p hp) (Network.length_le_of_grows grows)
  memory := by rw [quiet.outbox, t.memory]
  drained reads room active e he := by
    -- If a link is still in use it was before, for the same room.
    rcases quiet.link with gone | ⟨link, room_eq⟩
    · obtain ⟨i, held⟩ := c'.link_of_canSend reads
      simp [gone] at held
    · rw [room_eq] at active
      rw [quiet.outbox] at he
      exact t.drained (canSend_of_grows (lt_of_held t.sound) grows link reads) room active e he
  line room := by
    have accepted : c'.accepted = c.accepted ++ [] := by rw [quiet.accepted, List.append_nil]
    have delivered := deliveredTo_append grows t.known accepted room
    rw [line, line, delivered, waitingFor, waitingFor, quiet.outbox]
    simp

/-- A frame is taken by the link in use, and nothing waits for its room. -/
theorem Tidy.said (t : c.Tidy) {i : Nat} (held : c.link = some i) (reads : c.canSend = true)
    (grows : c.toNetwork.Grows true c'.toNetwork) (session : c'.toSession = c.toSession)
    {f : Wire.Frame} (accepted : c'.accepted = c.accepted ++ [(i, f)]) :
    Advances c c' fun room => if c.room = some room ∧ f.carriesPayload then [f] else [] := by
  obtain ⟨l, hl, -, active⟩ := exists_held t.sound held
  have frames : c'.accepted = c.accepted ++ [f].map fun f => (i, f) := accepted
  refine ⟨known_of_said grows t.known hl frames, ?_, ?_, ?_⟩
  · rw [session]
    exact t.memory
  · rw [session]
    exact fun _ => t.drained reads
  · intro room
    have delivered := deliveredTo_of_said grows t.known hl frames room
    have waiting : c'.waitingFor room = c.waitingFor room := by rw [waitingFor, waitingFor, session]
    rw [line, line, delivered, waiting, active]
    by_cases here : l.room = room
    -- The frame overtakes nothing, since nothing waits for the room.
    · have nothing : c.waitingFor room = [] :=
        framesFor_eq_nil (t.drained reads room (here ▸ active))
      rw [nothing]
      cases payload : f.carriesPayload <;> simp [here, payload]
    · simp [here]

/-- A payload that cannot be sent waits behind all others for its room. -/
theorem Tidy.enqueued (t : c.Tidy) (deaf : c.canSend = false) (p : Payload) :
    Advances c (c.enqueue p) fun room =>
      if c.room.getD p.roomId == room then [p.frame] else [] := by
  have after : c.enqueue p = { c with
      outbox := { c.outbox with entries := c.outbox.entries ++ [⟨c.room.getD p.roomId, p⟩] } } := by
    rw [enqueue]
    rw [Outbox.enqueue_inMemory t.memory]
    rfl
  rw [after]
  refine ⟨t.known, t.memory, fun reads => ?_, fun room => ?_⟩
  · exact absurd (deaf.symm.trans reads) (by decide)
  · have waiting : framesFor room (c.outbox.entries ++ [⟨c.room.getD p.roomId, p⟩]) =
        c.waitingFor room ++ if c.room.getD p.roomId == room then [p.frame] else [] := by
      rw [framesFor_append, framesFor_singleton]
      rfl
    change c.deliveredTo room ++ framesFor room _ = _
    rw [waiting, line, List.append_assoc]

/-- A link opens, and what waits for its room is sent. -/
theorem Tidy.opening (t : c.Tidy) {o : Outcome} {os : List Outcome} {i : Nat}
    (oldest : c.outcomes = o :: os) (current : o.epoch = c.epoch) (link : o.link = some i)
    (grows : c.toNetwork.Grows true (c.opening os i).flushQueue.publish.toNetwork) :
    Advances c (c.opening os i).flushQueue.publish fun _ => [] := by
  obtain ⟨l, hl, -, active⟩ := exists_link t.sound (i := i) (by
    rw [t.sound.outcomes_link o (by simp [standing, oldest]) i link, current])
  obtain ⟨sent, left, links, split, after, stuck⟩ :=
    flushQueue_inMemory (c := c.opening os i) t.memory t.retains active rfl
  have accepted : (c.opening os i).flushQueue.publish.accepted =
      c.accepted ++ (sent.map fun e => e.payload.frame).map fun f => (i, f) := by
    change (c.opening os i).flushQueue.accepted = _
    rw [after, List.map_map]
    rfl
  have entries : (c.opening os i).flushQueue.publish.outbox.entries =
      left ++ c.outbox.entries.filter fun e => !(e.room == l.room) := by
    change (c.opening os i).flushQueue.outbox.entries = _
    rw [after]
    rfl
  refine ⟨known_of_said grows t.known hl accepted, ?_, ?_, ?_⟩
  · change (c.opening os i).flushQueue.outbox.file = none
    rw [after]
    exact t.memory
  · intro reads room active' e he
    -- The link still takes frames, so that everything was taken.
    have all : left = [] := by
      rcases stuck with all | deaf
      · exact all
      · exact absurd (deaf.symm.trans reads) (by decide)
    have same : (c.opening os i).flushQueue.room = some room := active'
    rw [after] at same
    obtain rfl : l.room = room := Option.some.inj (active.symm.trans same)
    rw [entries, all, List.nil_append, List.mem_filter] at he
    simpa using he.2
  · intro room
    have delivered := deliveredTo_of_said grows t.known hl accepted room
    have payloads : (sent.map fun e => e.payload.frame).filter (·.carriesPayload) =
        sent.map fun e => e.payload.frame := by
      rw [List.filter_eq_self]
      intro f hf
      obtain ⟨e, -, rfl⟩ := List.mem_map.1 hf
      exact carriesPayload_frame e.payload
    rw [payloads] at delivered
    rw [line, line, delivered, waitingFor, waitingFor, entries, List.append_assoc, List.append_nil]
    exact congrArg (c.deliveredTo room ++ ·) (framesFor_flushed split room)

/-- A payload is taken at once, or it waits. Either way it comes after all that was sent for its
room. -/
theorem Tidy.send (t : c.Tidy) (p : Payload) :
    Advances c (c.send p) fun room => if c.room.getD p.roomId == room then [p.frame] else [] := by
  have grows := (Network.conduct_grows.send c p).weaken
  have open_iff := t.sound.open_iff
  rcases c.send_spec p open_iff with ⟨i, links, held, reads, sent⟩ | ⟨deaf, queued⟩
  · obtain ⟨l, -, -, active⟩ := exists_held t.sound held
    rw [sent] at grows ⊢
    have said := t.said held reads grows rfl rfl
    simpa [active, carriesPayload_frame] using said
  · rw [queued]
    exact t.enqueued deaf p

/-- A signal is no payload, so nothing is delivered by it. -/
theorem Tidy.sendTyping (t : c.Tidy) (on : Bool) : Advances c (c.sendTyping on) fun _ => [] := by
  have grows := (Network.conduct_grows.sendTyping c on).weaken
  rcases c.sendTyping_spec on with ⟨i, links, room, held, reads, -, sent⟩ | lost
  · rw [sent] at grows ⊢
    have said := t.said held reads grows rfl rfl
    simpa [carriesPayload_typingFrame] using said
  · rw [lost] at grows ⊢
    exact t.quiet grows (.refl c)

/-- When a link opens, what waits for its room is sent in its order, up to where the server takes no
more. -/
theorem Tidy.outcome (t : c.Tidy) (grows : c.toNetwork.Grows true (c.outcome?.getD c).toNetwork) :
    Advances c (c.outcome?.getD c) fun _ => [] := by
  rcases c.outcome_quiet_or_opens t.sound with quiet | ⟨o, os, i, oldest, current, link, opens⟩
  · exact t.quiet grows quiet
  · rw [opens] at grows ⊢
    exact t.opening oldest current link grows

/-- Nothing but a payload that is sent makes a line longer. -/
theorem sentTo_of_quiet {h : Happening} (silent : speaks h = false) :
    (fun room => sentTo room c h) = fun _ => [] := by
  funext room
  unfold sentTo
  split
  · simp [speaks] at silent
  · rfl

/-- A step delivers what it sends, after all that was sent before. -/
theorem step_advances (t : c.Tidy) (h : Happening) :
    Advances c (c.step h) fun room => sentTo room c h := by
  have grows := c.grows_step h
  -- Only a payload, a signal and an outcome can make the client speak.
  cases silent : speaks h with
  | false =>
    rw [sentTo_of_quiet silent]
    exact t.quiet grows (c.step_quiet silent)
  | true =>
    cases h with
    | turn u =>
      cases running : c.stopped with
      | true =>
        rw [step_of_stopped running]
        have nothing : (fun room => sentTo room c (.turn u)) = fun _ => [] := by
          funext room
          unfold sentTo
          split <;> simp [running]
        rw [nothing]
        exact t.quiet (.refl _) (.refl c)
      | false =>
        rw [step_of_running running] at grows ⊢
        cases u with
        | outcome => exact t.outcome grows
        | command command =>
          cases command with
          | send p =>
            have sent := t.send p
            change Advances c (c.send p) _
            simpa [sentTo, running] using sent
          | typing on => exact t.sendTyping on
          | _ => simp [speaks] at silent
        | _ => simp [speaks] at silent
    | _ => simp [speaks] at silent

/-! ## Along a run -/

private theorem tidy_step (t : c.Tidy) (h : Happening)
    (bound : c.epoch.toNat + (c.leaves h).toNat < 2 ^ 64) : (c.step h).Tidy := by
  have moves := step_moves t.sound h
  have advances := step_advances t h
  have profile : (c.step h).profile = c.profile := moves.profile_eq
  exact ⟨moves.sound t.sound bound, advances.known, advances.memory, profile ▸ t.retains,
    advances.drained⟩

/-- In every run the line of a room grows by what is sent under it, and by nothing else. -/
theorem line_run (t : c.Tidy) (hs : List Happening)
    (bound : c.epoch.toNat + c.teardowns hs < 2 ^ 64) (room : RoomId) :
    (c.run hs).line room = c.line room ++ c.record (sentTo room) hs := by
  induction hs generalizing c with
  | nil => simp
  | cons h hs ih =>
    obtain ⟨first, -, rest⟩ := sound_cons t.sound bound
    have lines := ih (tidy_step t h first) rest
    rw [run_cons, record_cons, lines, (step_advances t h).line room, List.append_assoc]

private theorem tidy_start {profile : Profile} (retains : profile.flushPolicy = .retainOtherRooms)
    (backoff : Backoff) (entries : List QueueEntry) (chat : Chat) (disk : Disk)
    (clock : Timestamp) :
    (start profile backoff (.inMemory entries) chat disk clock).Tidy where
  sound := sound_start profile backoff _ chat disk clock
  known := by simp [start]
  memory := rfl
  retains := retains
  drained := by simp [start, canSend, currentLink?]

/-- With an outbox that has no file and keeps what waits for other rooms, and after everything that
can happen in whatever order, the payloads that were taken on links of a room, followed by those
that still wait for it, are those that waited at first followed by those that were sent under the
room, each once and in their order.

The numbers of the sessions must not run out. They have 64 bits, so after `2 ^ 64` sessions an
outcome that was never looked at would bear the number of the session again, and its link, which is
that of another room, would come into use. -/
theorem run_delivers (profile : Profile) (backoff : Backoff) (entries : List QueueEntry)
    (chat : Chat) (disk : Disk) (clock : Timestamp) (hs : List Happening)
    (retains : profile.flushPolicy = .retainOtherRooms)
    (bound : (start profile backoff (.inMemory entries) chat disk clock).teardowns hs < 2 ^ 64)
    (room : RoomId) :
    ((start profile backoff (.inMemory entries) chat disk clock).run hs).deliveredTo room ++
        ((start profile backoff (.inMemory entries) chat disk clock).run hs).waitingFor room =
      framesFor room entries ++
        (start profile backoff (.inMemory entries) chat disk clock).record (sentTo room) hs := by
  have t := tidy_start retains backoff entries chat disk clock
  have lines := line_run t hs (by simpa [start] using bound) room
  have first : (start profile backoff (.inMemory entries) chat disk clock).line room =
      framesFor room entries := rfl
  rw [first] at lines
  exact lines

end Client

namespace Detour

def note (body : String) : Payload := .text profile.user lobby body

def waiting : List QueueEntry := [⟨lobby, note "first"⟩]

/-- The link to the lobby takes one frame only, and its successor the rest. -/
def talk : List Happening := [
  .turn (.command (.send (note "second"))), .turn (.command (.select (some lobby))),
  .turn (.command (.send (note "third"))), .settle 0 (.accepted (some 1)), .turn .outcome,
  .turn (.command (.send (note "fourth"))), .hangUp 0, .turn .listen, .pass 1000, .turn .timer,
  .settle 1 (.accepted none), .turn .outcome, .turn (.command (.send (note "fifth")))]

end Detour

theorem run_delivers_detour :
    (Client.start Detour.profile {} (.inMemory Detour.waiting) .empty {} .epoch).teardowns
        Detour.talk < 2 ^ 64 ∧
      ((Client.start Detour.profile {} (.inMemory Detour.waiting) .empty {} .epoch).run
          Detour.talk).deliveredTo Detour.lobby ++
        ((Client.start Detour.profile {} (.inMemory Detour.waiting) .empty {} .epoch).run
          Detour.talk).waitingFor Detour.lobby =
        ["first", "second", "third", "fourth", "fifth"].map fun body =>
          (Detour.note body).frame := by
  have bound :
      (Client.start Detour.profile {} (.inMemory Detour.waiting) .empty {} .epoch).teardowns
        Detour.talk < 2 ^ 64 := by
    decide
  have lines := Client.run_delivers Detour.profile {} Detour.waiting .empty {} .epoch Detour.talk
    rfl bound Detour.lobby
  exact ⟨bound, lines.trans (by decide)⟩

end ChatClient
