import ChatClient.Session.Run

/-!
# Where a client stands

Most of what a client does leaves its course as it is: sending and receiving change what was said,
not what comes next. The *standing* of a client is the rest, the state of its connection with the
attempts, outcomes and links that belong to it. Everything else is erased, so that two clients that
differ only in what they have said have the same standing.

## Main definitions

* `Origin`: the session and the room for which an attempt was made or a link was opened
* `Standing`, `Client.standing`

## Main results

* `standing_send`, `standing_sendTyping`, `standing_flushQueue`, `standing_handleText`: talking does
  not change where the client stands
* `standing_teardown`, `standing_connect`, `standing_settleLate`: what does
-/

namespace ChatClient

/-- The session and the room for which an attempt was made or a link was opened. -/
structure Origin where
  epoch : UInt64
  room : RoomId

def Attempt.origin (a : Attempt) : Origin := ⟨a.epoch, a.endpoint.room⟩

def Link.origin (l : Link) : Origin := ⟨l.epoch, l.room⟩

/-- What decides on the course of a client. -/
structure Standing where
  profile : Profile
  machine : Machine
  room : Option RoomId
  epoch : UInt64
  link : Option Nat
  pending : Option Nat
  timer : Option Nat
  published : ConnectionState
  stopped : Bool
  attempts : List Attempt
  outcomes : List Outcome
  /-- Where the links come from, in the order of their numbers. -/
  origins : List Origin

namespace Standing

/-- The attempts after the client has given up the one that it waits for. -/
def withdrawn (s : Standing) : List Attempt :=
  match s.pending with
  | none => s.attempts
  | some i => s.attempts.modify i Attempt.abort

/-- An attempt that is given up is still there. -/
theorem length_withdrawn {s : Standing} : s.withdrawn.length = s.attempts.length := by
  rw [withdrawn]
  split
  · rfl
  · rw [List.length_modify]

/-- The standing after the session has ended. The room is still the old one. -/
def torn (s : Standing) : Standing :=
  { s with
    machine := s.machine.teardown
    epoch := s.epoch + 1
    link := none
    pending := none
    timer := none
    published := .idle
    attempts := s.withdrawn }

/-- The standing after an attempt has begun. -/
def calling (s : Standing) (a : Attempt) : Standing :=
  { s with
    machine := { s.machine with state := .connecting }
    pending := some s.attempts.length
    published := .connecting
    attempts := s.attempts ++ [a] }

/-- The standing after an attempt has succeeded with the link of the given number. -/
def opened (s : Standing) (link : Nat) : Standing :=
  { s with
    machine := { s.machine with state := .open, attempts := 0 }
    link := some link
    pending := none
    published := .open }

/-- The standing after an attempt has failed or the link was lost, with the time of the next
attempt. -/
def waiting (s : Standing) (due : Nat) : Standing :=
  { s with
    machine := {
      s.machine with
      state := .reconnecting s.machine.attempts
      attempts := nextAttempt s.machine.attempts }
    link := none
    pending := none
    timer := some due
    published := .reconnecting s.machine.attempts }

end Standing

/-- Something done to a link leaves its origin as it was. -/
theorem map_origin_modify (links : List Link) (i : Nat) {f : Link → Link}
    (h : ∀ l, (f l).origin = l.origin) :
    (links.modify i f).map Link.origin = links.map Link.origin := by
  apply List.ext_getElem?
  intro j
  rw [List.getElem?_map, List.getElem?_map, List.getElem?_modify]
  -- Only the link that is changed is looked at.
  by_cases hij : i = j
  · cases links[j]? <;> simp [hij, h]
  · simp [hij]

private theorem map_origin_set {links : List Link} {i : Nat} {l l' : Link} (hl : links[i]? = some l)
    (h : l'.origin = l.origin) : (links.set i l').map Link.origin = links.map Link.origin := by
  obtain ⟨hi, rfl⟩ := List.getElem?_eq_some_iff.1 hl
  rw [List.map_set, h, ← List.getElem_map Link.origin (h := by simpa using hi),
    List.set_getElem_self]

namespace Client

variable (c : Client)

def standing : Standing where
  profile := c.profile
  machine := c.machine
  room := c.room
  epoch := c.epoch
  link := c.link
  pending := c.pending
  timer := c.timer
  published := c.published
  stopped := c.stopped
  attempts := c.attempts
  outcomes := c.outcomes
  origins := c.links.map Link.origin

private theorem standing_publish :
    c.publish.standing = { c.standing with published := c.standing.machine.state } := rfl

/-! ## Talking -/

private theorem standing_withOutbox {α : Type} (done : Outbox × Disk × α) :
    (c.withOutbox done).standing = c.standing := rfl

/-- A frame that is taken changes no link so that it would stand elsewhere. -/
theorem standing_transmit (f : Wire.Frame) : (c.transmit f).1.standing = c.standing := by
  rw [transmit]
  split
  · rfl
  · next i _ =>
    rw [Network.transmit]
    split
    · rfl
    · next l hl =>
      split
      -- The link remembers that a frame was taken, but not by its origin.
      · have same : (c.links.set i l.accept).map Link.origin = c.links.map Link.origin :=
          map_origin_set hl rfl
        simp only [standing, same]
      · rfl

private theorem standing_transmitAll (es : List QueueEntry) :
    (c.transmitAll es).1.standing = c.standing := by
  induction es generalizing c with
  | nil => rfl
  | cons e es ih =>
    have sent := c.standing_transmit e.payload.frame
    rw [transmitAll]
    split
    · next h => rw [ih, ← sent, h]
    · next h => rw [← sent, h]

private theorem standing_dropOthers : c.dropOthers.standing = c.standing := by
  rw [dropOthers]
  split <;> rfl

private theorem standing_transmitOrRequeue (es : List QueueEntry) :
    (c.transmitOrRequeue es).standing = c.standing := by
  have sent := c.standing_transmitAll es
  rw [transmitOrRequeue]
  split
  · next h => rw [← sent, h]
  · next h => rw [standing_withOutbox, ← sent, h]

/-- To flush the outbox is only to talk. -/
theorem standing_flushQueue : c.flushQueue.standing = c.standing := by
  rw [flushQueue]
  split
  · rfl
  · dsimp only
    split
    · rfl
    · rw [standing_transmitOrRequeue, standing_dropOthers, standing_withOutbox]

private theorem standing_enqueue (p : Payload) : (c.enqueue p).standing = c.standing := rfl

/-- So is to send a payload. -/
theorem standing_send (p : Payload) : (c.send p).standing = c.standing := by
  have sent := c.standing_transmit p.frame
  rw [send]
  split
  · split
    · next h => rw [← sent, h]
    · next h => rw [standing_enqueue, ← sent, h]
  · rfl

/-- So is to send a signal. -/
theorem standing_sendTyping (on : Bool) : (c.sendTyping on).standing = c.standing := by
  rw [sendTyping]
  split
  · rfl
  · split
    · exact c.standing_transmit _
    · rfl

/-- To listen changes what is known, and not where the client stands. -/
theorem standing_handleText (s : String) : (c.handleText s).standing = c.standing := by
  rw [handleText]
  split <;> rfl

/-- Whatever happens to a link but for its origin. -/
theorem standing_onLink (i : Nat) {f : Link → Link} (h : ∀ l, (f l).origin = l.origin) :
    { c with toNetwork := c.toNetwork.onLink i f : Client }.standing = c.standing := by
  simp only [standing, Network.onLink, map_origin_modify c.links i h]

/-- A text that arrives changes nothing in the standing. -/
theorem standing_push (i : Nat) (text : String) :
    (c.step (.push i text)).standing = c.standing :=
  c.standing_onLink i (f := fun l => if l.listening then l.push text else l) fun l => by
    split <;> rfl

/-- A server that reads no more changes nothing in the standing. -/
theorem standing_deafen (i : Nat) : (c.step (.deafen i)).standing = c.standing :=
  c.standing_onLink i (f := Link.deafen) fun _ => rfl

/-- A server that hangs up changes nothing in the standing. The client has to find it first. -/
theorem standing_hangUp (i : Nat) : (c.step (.hangUp i)).standing = c.standing :=
  c.standing_onLink i (f := Link.hangUp) fun _ => rfl

/-! ## What changes the course -/

/-- A link that is closed keeps its origin. -/
theorem standing_dropOutcome (o : Outcome) :
    { c with toNetwork := c.toNetwork.dropOutcome o : Client }.standing = c.standing := by
  rw [Network.dropOutcome]
  split
  · rfl
  · exact c.standing_onLink _ fun _ => rfl

theorem standing_dropOutcomes :
    { c with toNetwork := c.toNetwork.dropOutcomes : Client }.standing =
      { c.standing with outcomes := [] } := by
  -- One outcome after the other is let go while the list itself still stands.
  have kept (n : Network) (os : List Outcome) :
      { c with toNetwork := os.foldl Network.dropOutcome n : Client }.standing =
        { c with toNetwork := n : Client }.standing := by
    induction os generalizing n with
    | nil => rfl
    | cons o os ih =>
      rw [List.foldl_cons, ih]
      exact standing_dropOutcome { c with toNetwork := n } o
  exact congrArg (fun s : Standing => { s with outcomes := [] }) (kept c.toNetwork c.outcomes)

/-- With the session everything that belongs to it ends. -/
theorem standing_teardown : c.teardown.standing = c.standing.torn := by
  -- Giving up the attempt and closing the link touch different parts of the network.
  have attempts : c.withdraw.attempts = c.standing.withdrawn := by
    unfold withdraw Standing.withdrawn
    cases c.link <;> cases h : c.pending <;> simp [standing, h, Network.abort, Network.onLink]
  have outcomes : c.withdraw.outcomes = c.outcomes := by
    rw [withdraw]
    cases c.link <;> cases c.pending <;> rfl
  have origins : c.withdraw.links.map Link.origin = c.links.map Link.origin := by
    rw [withdraw]
    cases c.link with
    | none => cases c.pending <;> rfl
    | some i => cases c.pending <;> exact map_origin_modify c.links i fun _ => rfl
  rw [teardown]
  rw [standing_publish]
  simp only [standing, attempts, outcomes, origins]
  rfl

/-- A client that leaves its room for none is torn from it and has no room. -/
theorem standing_select_none (h : c.stays none = false) :
    (c.select none).standing = { c.standing.torn with room := none } := by
  rw [select]
  rw [h, ← standing_teardown]
  rfl

/-- An attempt begins for the room when the machine wants one. -/
theorem standing_connect {room : RoomId} (h : c.room = some room) :
    ({ c with machine := { c.machine with state := .connecting }
        : Client }.connect).publish.standing = c.standing.calling (c.attempt room) := by
  simp only [connect, publish, standing, Standing.calling, h]
  rfl

/-- A client that moves to another room is torn from the old one and calls the new one at once. -/
theorem standing_select_some {room : RoomId} (h : c.stays (some room) = false) :
    (c.select (some room)).standing =
      { c.standing.torn with room := some room }.calling
        { c.attempt room with epoch := c.epoch + 1 } := by
  rw [select]
  rw [h, ← standing_teardown]
  exact standing_connect { c.teardown with room := some room } rfl

/-- A client that stops is torn from its room and looks at no more outcomes. -/
theorem standing_shutdown :
    c.shutdown.standing = { c.standing.torn with stopped := true, outcomes := [] } := by
  have dropped := c.teardown.standing_dropOutcomes
  rw [standing_teardown] at dropped
  exact congrArg (fun s : Standing => { s with stopped := true }) dropped

/-- An outcome of an earlier session makes no difference. -/
theorem standing_handleOutcome_old {o : Outcome} (h : o.epoch ≠ c.epoch) :
    (c.handleOutcome o).standing = c.standing := by
  rw [handleOutcome]
  rw [if_neg h]
  exact c.standing_dropOutcome o

/-- The outcome that a connecting client waits for brings its link into use. -/
theorem standing_handleOutcome_opened {o : Outcome} {i : Nat} (h : o.epoch = c.epoch)
    (hi : o.link = some i) (hm : c.machine.state = .connecting) :
    (c.handleOutcome o).standing = c.standing.opened i := by
  rw [handleOutcome]
  rw [if_pos h, hi]
  simp only [announce, Machine.opened, hm, execute]
  rw [standing_publish, standing_flushQueue]
  rfl

/-- Without a link it makes the client wait for the next attempt. -/
theorem standing_handleOutcome_refused {o : Outcome} (h : o.epoch = c.epoch)
    (hi : o.link = none) (hm : c.machine.state = .connecting) (hl : c.link = none) :
    (c.handleOutcome o).standing =
      c.standing.waiting (c.now + c.machine.backoff.delay c.machine.attempts) := by
  rw [handleOutcome]
  rw [if_pos h, hi]
  simp only [announce, Machine.closed, hm, execute, publish, standing, Standing.waiting, hl]

/-- A client that has lost its link waits for the next attempt. -/
theorem standing_handleLinkClosed (hm : c.machine.state = .open) (hp : c.pending = none) :
    c.handleLinkClosed.standing =
      c.standing.waiting (c.now + c.machine.backoff.delay c.machine.attempts) := by
  rw [handleLinkClosed]
  simp only [proceed, Machine.closed, hm, execute, publish, standing, Standing.waiting, hp]

/-- When the wait is over the room is called again. -/
theorem standing_handleTimer {room : RoomId} {n : UInt32} (hm : c.machine.state = .reconnecting n)
    (hr : c.room = some room) :
    c.handleTimer.standing = { c.standing with timer := none }.calling (c.attempt room) := by
  rw [handleTimer]
  simp only [proceed, Machine.timerElapsed, hm, execute]
  exact standing_connect { c with timer := none } hr

/-- A server settles an attempt, which leaves its outcome and perhaps a link. -/
theorem standing_settleLate {i : Nat} {a : Attempt} (ha : c.attempts[i]? = some a)
    (hs : a.status ≠ .settled) (h : Handshake) :
    ∃ link origins, { c with toNetwork := c.toNetwork.settleLate i h : Client }.standing =
      { c.standing with
        attempts := c.attempts.set i { a with status := .settled }
        outcomes := c.outcomes ++ [⟨a.epoch, link⟩]
        origins := c.standing.origins ++ origins } ∧
      ((link = none ∧ origins = []) ∨
        (link = some c.standing.origins.length ∧ origins = [a.origin])) := by
  rw [Network.settleLate]
  simp only [ha, if_neg hs]
  cases h with
  | accepted accepts =>
    refine ⟨some c.links.length, [a.origin], ?_, .inr ⟨?_, rfl⟩⟩
    · simp only [standing, Network.conclude, List.map_append, List.map_cons, List.map_nil]
      rfl
    · simp [standing]
  | refused =>
    refine ⟨none, [], ?_, .inl ⟨rfl, rfl⟩⟩
    simp [standing, Network.conclude]

end Client

end ChatClient
