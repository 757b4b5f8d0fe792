import ChatClient.Proofs.Session.Course
import Mathlib.Tactic.Common

/-!
# What a client says

Frames leave the client in three ways: a payload that is sent at once, a signal about typing, and
the payloads that waited when a link opens. All of them go to the link in use, in their order, until
its server takes no more. Whatever else happens leaves both the frames and the outbox as they are.

## Main definitions

* `Client.canSend`: the link in use takes frames
* `Client.Quiet`: nothing was said between two moments
* `Client.SaysOnLink`: what was said between two moments was said over the link in use

## Main results

* `transmitAll_spec`: of a list of entries the first ones are taken, and the rest only comes back
  from a link that takes no more
* `step_quiet`: a step is quiet unless a payload or a signal is sent or an outcome is looked at
* `flushQueue_of_ok`, `flushQueue_of_error`: what waits when a link opens is sent, or stays where it
  is
* `step_says`: what is said is said over the link in use
-/

namespace ChatClient.Client

variable (c : Client)

/-- The link in use takes frames. -/
def canSend : Bool := c.currentLink?.any Link.reads

/-- A client that can send has a link. -/
theorem link_of_canSend (h : c.canSend = true) : ∃ i, c.link = some i := by
  cases held : c.link with
  | none => simp [canSend, currentLink?, held] at h
  | some i => exact ⟨i, rfl⟩

/-- Whether it can is for the server of the link to say. -/
theorem canSend_eq {c : Client} {i : Nat} {l : Link} (held : c.link = some i)
    (hl : c.links[i]? = some l) : c.canSend = l.reads := by
  simp [canSend, currentLink?, held, hl]

/-- What cannot be sent leaves everything as it is. -/
theorem transmit_of_not_canSend (f : Wire.Frame) (h : c.canSend = false) :
    c.transmit f = (c, false) := by
  rw [transmit]
  cases held : c.link with
  | none => rfl
  | some i =>
    simp only [Network.transmit]
    cases hl : c.links[i]? with
    | none => rfl
    | some l =>
      rw [canSend_eq held hl] at h
      simp [h]

/-- What can be sent is taken by the link in use. -/
theorem transmit_of_canSend (f : Wire.Frame) {i : Nat} (held : c.link = some i)
    (h : c.canSend = true) : ∃ links,
      c.transmit f = ({ c with links := links, accepted := c.accepted ++ [(i, f)] }, true) := by
  obtain ⟨l, hl, reads⟩ : ∃ l, c.links[i]? = some l ∧ l.reads = true := by
    cases hl : c.links[i]? with
    | none => simp [canSend, currentLink?, held, hl] at h
    | some l => exact ⟨l, rfl, by rw [← canSend_eq held hl, h]⟩
  refine ⟨c.links.set i l.accept, ?_⟩
  simp [transmit, held, Network.transmit, hl, reads]

/-- The first entries are taken, and those that are not come back in their order, from a link that
takes no more. -/
theorem transmitAll_spec {i : Nat} (held : c.link = some i) (es : List QueueEntry) :
    ∃ sent left links,
      es = sent ++ left ∧
      c.transmitAll es = ({ c with
        links := links
        accepted := c.accepted ++ sent.map fun e => (i, e.payload.frame) }, left) ∧
      (left = [] ∨ (c.transmitAll es).1.canSend = false) := by
  induction es generalizing c with
  | nil => exact ⟨[], [], c.links, rfl, by simp [transmitAll], .inl rfl⟩
  | cons e es ih =>
    cases reads : c.canSend with
    | false =>
      have stuck : c.transmitAll (e :: es) = (c, e :: es) := by
        simp [transmitAll, c.transmit_of_not_canSend _ reads]
      exact ⟨[], e :: es, c.links, rfl, by simp [stuck], .inr (by rw [stuck]; exact reads)⟩
    | true =>
      -- The first entry is taken, and the rest goes on from there over the same link.
      obtain ⟨links, taken⟩ := c.transmit_of_canSend e.payload.frame held reads
      have next : c.transmitAll (e :: es) = transmitAll { c with
          links := links
          accepted := c.accepted ++ [(i, e.payload.frame)] } es := by
        simp [transmitAll, taken]
      obtain ⟨sent, left, links', split, after, rest⟩ := ih { c with
        links := links
        accepted := c.accepted ++ [(i, e.payload.frame)] } held
      refine ⟨e :: sent, left, links', by rw [split]; rfl, ?_, ?_⟩
      · rw [next, after]
        simp
      · rw [next]
        exact rest

/-! ## Quiet steps -/

/-- Nothing was said, nothing was put into the outbox, and no link has come into use. -/
structure Quiet (c c' : Client) : Prop where
  accepted : c'.accepted = c.accepted
  outbox : c'.outbox = c.outbox
  link : c'.link = none ∨ (c'.link = c.link ∧ c'.room = c.room)

variable {c}

theorem Quiet.refl (c : Client) : Quiet c c := ⟨rfl, rfl, .inr ⟨rfl, rfl⟩⟩

/-- Silence after silence is silence. -/
theorem Quiet.trans {c' c'' : Client} (h : Quiet c c') (h' : Quiet c' c'') : Quiet c c'' where
  accepted := h'.accepted.trans h.accepted
  outbox := h'.outbox.trans h.outbox
  link := by
    rcases h'.link with gone | ⟨link, room⟩
    · exact .inl gone
    · rw [link, room]
      exact h.link

/-- What happens to the network without a word from the client. -/
theorem quiet_network {n : Network} (accepted : n.accepted = c.accepted) :
    Quiet c { c with toNetwork := n } :=
  ⟨accepted, rfl, .inr ⟨rfl, rfl⟩⟩

variable (c)

private theorem quiet_execute {action : Option ConnectionAction} (h : action ≠ some .flushQueue) :
    Quiet c (c.execute action) := by
  unfold execute
  split
  · exact .refl c
  · rw [connect]
    split
    · exact .refl c
    · exact ⟨rfl, rfl, .inr ⟨rfl, rfl⟩⟩
  · contradiction
  · exact ⟨rfl, rfl, .inr ⟨rfl, rfl⟩⟩

/-- Only a flush makes the client say something. -/
theorem quiet_proceed (transition : Machine → Machine × Option ConnectionAction)
    (h : (transition c.machine).2 ≠ some .flushQueue) : Quiet c (c.proceed transition) :=
  have done := quiet_execute { c with machine := (transition c.machine).1 } h
  ⟨done.accepted, done.outbox, done.link⟩

private theorem quiet_announce (transition : Machine → Machine × Option ConnectionAction)
    (h : (transition c.machine).2 ≠ some .flushQueue) : Quiet c (c.announce transition) :=
  have done := quiet_execute { c with machine := (transition c.machine).1 : Client }.publish h
  ⟨done.accepted, done.outbox, done.link⟩

private theorem quiet_teardown : Quiet c c.teardown := by
  refine ⟨?_, rfl, .inl rfl⟩
  change c.withdraw.accepted = c.accepted
  rw [withdraw]
  cases c.pending <;> cases c.link <;> rfl

private theorem quiet_select (room : Option RoomId) : Quiet c (c.select room) := by
  rw [select]
  split
  · exact .refl c
  · have torn := c.quiet_teardown
    have moved : Quiet c { c.teardown with room := room } := ⟨torn.accepted, torn.outbox, .inl rfl⟩
    cases room with
    | none => exact ⟨moved.accepted, moved.outbox, .inl rfl⟩
    | some room =>
      -- A machine that starts asks for an attempt at most.
      have begun := moved.trans (quiet_proceed _ Machine.start (by
        rw [Machine.start]
        split <;> simp))
      exact ⟨begun.accepted, begun.outbox, begun.link⟩

private theorem quiet_dropOutcome (o : Outcome) :
    Quiet c { c with toNetwork := c.toNetwork.dropOutcome o } := by
  apply quiet_network
  rw [Network.dropOutcome]
  split <;> rfl

/-- To let go of outcomes takes back no frame. -/
theorem accepted_dropOutcomes (n : Network) : n.dropOutcomes.accepted = n.accepted := by
  have dropped (os : List Outcome) (m : Network) :
      (os.foldl Network.dropOutcome m).accepted = m.accepted := by
    induction os generalizing m with
    | nil => rfl
    | cons o os ih =>
      rw [List.foldl_cons, ih]
      rw [Network.dropOutcome]
      split <;> rfl
  exact dropped n.outcomes n

private theorem quiet_shutdown : Quiet c c.shutdown := by
  have torn := c.quiet_teardown
  exact ⟨(accepted_dropOutcomes _).trans torn.accepted, torn.outbox, .inl rfl⟩

private theorem quiet_handleText (s : String) : Quiet c (c.handleText s) := by
  rw [handleText]
  split
  · exact ⟨rfl, rfl, .inr ⟨rfl, rfl⟩⟩
  · exact .refl c

private theorem quiet_handleLinkClosed : Quiet c c.handleLinkClosed := by
  have lost : Quiet c { c with link := none } := ⟨rfl, rfl, .inl rfl⟩
  have done := lost.trans (quiet_proceed _ Machine.closed (by
    rw [Machine.closed]
    split <;> simp))
  exact ⟨done.accepted, done.outbox, done.link⟩

private theorem quiet_handleTimer : Quiet c c.handleTimer := by
  have off : Quiet c { c with timer := none } := ⟨rfl, rfl, .inr ⟨rfl, rfl⟩⟩
  have done := off.trans (quiet_proceed _ Machine.timerElapsed (by
    rw [Machine.timerElapsed]
    split <;> simp))
  exact ⟨done.accepted, done.outbox, done.link⟩

private theorem quiet_listen : Quiet c (c.listen?.getD c) := by
  rw [listen?]
  split
  · next r _ =>
    have taken : Quiet c { c with toNetwork := c.toNetwork.onLink r.link Link.take } :=
      quiet_network rfl
    exact taken.trans (quiet_handleText _ r.text)
  · split
    · split
      · exact c.quiet_handleLinkClosed
      · exact .refl c
    · exact .refl c

private theorem quiet_timer : Quiet c (c.timer?.getD c) := by
  rw [timer?]
  split
  · exact .refl c
  · split
    · exact c.quiet_handleTimer
    · exact .refl c

private theorem quiet_settle (i : Nat) (h : Handshake) : Quiet c (c.step (.settle i h)) := by
  have settled : (c.toNetwork.settleLate i h).accepted = c.accepted := by
    rw [Network.settleLate]
    split
    · split
      · rfl
      · unfold Network.conclude
        cases h <;> rfl
    · rfl
  apply quiet_network
  split
  · exact (accepted_dropOutcomes _).trans settled
  · exact settled

/-- What a client can say something by. -/
def speaks : Happening → Bool
  | .turn (.command (.send _)) => true
  | .turn (.command (.typing _)) => true
  | .turn .outcome => true
  | _ => false

/-- Unless something is sent or an outcome is looked at, nothing is said. -/
theorem step_quiet {h : Happening} (silent : speaks h = false) : Quiet c (c.step h) := by
  cases h with
  | settle i h => exact c.quiet_settle i h
  | push i text => exact quiet_network rfl
  | deafen i => exact quiet_network rfl
  | hangUp i => exact quiet_network rfl
  | pass ms => exact ⟨rfl, rfl, .inr ⟨rfl, rfl⟩⟩
  | clock time => exact ⟨rfl, rfl, .inr ⟨rfl, rfl⟩⟩
  | disk d => exact ⟨rfl, rfl, .inr ⟨rfl, rfl⟩⟩
  | turn t =>
    cases running : c.stopped with
    | true =>
      rw [step_of_stopped running]
      exact .refl c
    | false =>
      rw [step_of_running running]
      cases t with
      | outcome => simp [speaks] at silent
      | listen => exact c.quiet_listen
      | timer => exact c.quiet_timer
      | command command =>
        cases command with
        | select room => exact c.quiet_select room
        | send p => simp [speaks] at silent
        | typing on => simp [speaks] at silent
        | shutdown => exact c.quiet_shutdown

/-! ## Steps that say something -/

/-- A payload is taken by the link in use, or it waits because the client is not open or the link
takes no frames. -/
theorem send_cases (p : Payload) :
    (∃ i links, c.machine.state = .open ∧ c.link = some i ∧ c.canSend = true ∧
      c.send p = { c with links := links, accepted := c.accepted ++ [(i, p.frame)] }) ∨
    ((c.machine.state ≠ .open ∨ c.canSend = false) ∧ c.send p = c.enqueue p) := by
  by_cases isOpen : c.machine.state = .open
  · cases reads : c.canSend with
    | false =>
      refine .inr ⟨.inr rfl, ?_⟩
      simp [send, c.transmit_of_not_canSend p.frame reads]
    | true =>
      obtain ⟨i, held⟩ := c.link_of_canSend reads
      obtain ⟨links, taken⟩ := c.transmit_of_canSend p.frame held reads
      refine .inl ⟨i, links, isOpen, held, rfl, ?_⟩
      simp [send, isOpen, ConnectionState.isOpen, taken]
  · exact .inr ⟨.inl isOpen, by simp [send, ConnectionState.isOpen, isOpen]⟩

/-- A payload is taken by the link in use, or waits for the room of the session. -/
theorem send_spec (p : Payload) (open_iff : c.machine.state = .open ↔ c.link.isSome = true) :
    (∃ i links, c.link = some i ∧ c.canSend = true ∧
      c.send p = { c with links := links, accepted := c.accepted ++ [(i, p.frame)] }) ∨
    (c.canSend = false ∧ c.send p = c.enqueue p) := by
  rcases c.send_cases p with ⟨i, links, -, sent⟩ | ⟨cannot, queued⟩
  · exact .inl ⟨i, links, sent⟩
  -- A link that takes frames is held, so that the client is open.
  · refine .inr ⟨?_, queued⟩
    rcases cannot with closed | deaf
    · cases reads : c.canSend with
      | false => rfl
      | true =>
        obtain ⟨i, held⟩ := c.link_of_canSend reads
        exact absurd (open_iff.2 (by simp [held])) closed
    · exact deaf

/-- A signal is taken by the link in use, or lost. -/
theorem sendTyping_spec (on : Bool) :
    (∃ i links room, c.link = some i ∧ c.canSend = true ∧ c.room = some room ∧
      c.sendTyping on = { c with
        links := links
        accepted := c.accepted ++ [(i, typingFrame c.profile.user room on)] }) ∨
    c.sendTyping on = c := by
  rw [sendTyping]
  split
  · exact .inr rfl
  · next room active =>
    split
    · cases reads : c.canSend with
      | false => exact .inr (by rw [c.transmit_of_not_canSend _ reads])
      | true =>
        obtain ⟨i, held⟩ := c.link_of_canSend reads
        obtain ⟨links, taken⟩ :=
          c.transmit_of_canSend (typingFrame c.profile.user room on) held reads
        exact .inl ⟨i, links, room, held, rfl, active, by rw [taken]⟩
    · exact .inr rfl

/-- The client after an attempt has succeeded, when it is about to send what waits. -/
def opening (outcomes : List Outcome) (i : Nat) : Client :=
  { c with
    outcomes := outcomes
    pending := none
    link := some i
    machine := { c.machine with state := .open, attempts := 0 } : Client }.publish

/-- A link of the session opens, and what waits is sent. -/
theorem outcome_opens {o : Outcome} {os : List Outcome} {i : Nat} (queued : c.outcomes = o :: os)
    (current : o.epoch = c.epoch) (link : o.link = some i)
    (connecting : c.machine.state = .connecting) :
    c.outcome?.getD c = (c.opening os i).flushQueue.publish := by
  simp [outcome?, queued, handle, handleOutcome, current, link, announce,
    Machine.opened, connecting, execute, opening]

/-- To look at an outcome is quiet unless it is a link of the session. If the machine connects it
opens, and what waits is sent. Otherwise the link comes into use and nothing else happens. -/
theorem outcome_cases :
    Quiet c (c.outcome?.getD c) ∨ ∃ o os i,
      c.outcomes = o :: os ∧ o.epoch = c.epoch ∧ o.link = some i ∧
        ((c.machine.state = .connecting ∧
            c.outcome?.getD c = (c.opening os i).flushQueue.publish) ∨
          (c.machine.state ≠ .connecting ∧
            c.outcome?.getD c = { c with
              outcomes := os, pending := none, link := some i : Client }.publish.publish)) := by
  cases queued : c.outcomes with
  | nil =>
    rw [outcome?, queued]
    exact .inl (.refl c)
  | cons o os =>
    have shorter : Quiet c { c with outcomes := os } := ⟨rfl, rfl, .inr ⟨rfl, rfl⟩⟩
    have after : c.outcome?.getD c = { c with outcomes := os }.handleOutcome o := by
      rw [outcome?, queued]
      rfl
    rw [handleOutcome] at after
    split at after
    · next current =>
      split at after
      · next i link =>
        refine .inr ⟨o, os, i, rfl, current, link, ?_⟩
        by_cases connecting : c.machine.state = .connecting
        · exact .inl ⟨connecting, c.outcome_opens queued current link connecting⟩
        · refine .inr ⟨connecting, ?_⟩
          rw [after]
          simp [announce, Machine.opened_of_ne connecting, execute]
      -- A failure asks for another attempt, later.
      · rw [after]
        refine .inl (shorter.trans ?_)
        have announced :=
          quiet_announce { c with outcomes := os, pending := none } Machine.closed (by
          rw [Machine.closed]
          split <;> simp)
        exact ⟨announced.accepted, announced.outbox, announced.link⟩
    · rw [after]
      exact .inl (shorter.trans (quiet_dropOutcome _ o))

/-- To look at an outcome is quiet unless a link opens, and then what waits is sent. -/
theorem outcome_quiet_or_opens (s : c.standing.Sound) :
    Quiet c (c.outcome?.getD c) ∨ ∃ o os i,
      c.outcomes = o :: os ∧ o.epoch = c.epoch ∧ o.link = some i ∧
        c.outcome?.getD c = (c.opening os i).flushQueue.publish := by
  rcases c.outcome_cases with quiet | ⟨o, os, i, queued, current, link, opens | stays⟩
  · exact .inl quiet
  · exact .inr ⟨o, os, i, queued, current, link, opens.2⟩
  · exact absurd (s.connecting_of_outcome queued current) stays.1

section Flush

variable {c} {room : RoomId} (active : c.room = some room)
include active

/-- What waits for the room stays where it is if it cannot be taken out of the outbox. -/
theorem flushQueue_of_error {d : Disk} {e : FileError}
    (failed : (c.outbox.flush c.disk fun e => e.room == room) = (c.outbox, d, .error e)) :
    c.flushQueue = { c with disk := d } := by
  simp only [flushQueue, active, failed, withOutbox]
  rw [← active]

/-- What waits for the room is out of the outbox while what waits for others is dropped. -/
theorem flushQueue_of_ok {q : Outbox} {d : Disk} {entries : List QueueEntry}
    (flushed : (c.outbox.flush c.disk fun e => e.room == room) = (q, d, .ok entries)) :
    c.flushQueue = transmitOrRequeue (dropOthers { c with outbox := q, disk := d }) entries := by
  simp only [flushQueue, active, flushed, withOutbox]

end Flush

/-! ## Where it is said -/

/-- What waits is sent over the link in use. -/
theorem exists_flushQueue_accepted {i : Nat} (held : c.link = some i) :
    ∃ frames : List Wire.Frame,
      c.flushQueue.accepted = c.accepted ++ frames.map fun f => (i, f) := by
  rw [flushQueue.eq_def]
  split
  · exact ⟨[], by simp⟩
  · next room _ =>
    dsimp only
    split
    · exact ⟨[], by simp [withOutbox]⟩
    · next entries _ =>
      let kept := (c.withOutbox (c.outbox.flush c.disk fun e => e.room == room)).dropOthers
      have same : kept.link = c.link ∧ kept.accepted = c.accepted := by
        change (dropOthers _).link = _ ∧ (dropOthers _).accepted = _
        rw [dropOthers.eq_def]
        split <;> exact ⟨rfl, rfl⟩
      -- A part of the entries is taken. What goes back to the outbox says nothing.
      obtain ⟨sent, left, links, -, taken, -⟩ := kept.transmitAll_spec (same.1.trans held) entries
      refine ⟨sent.map fun e => e.payload.frame, ?_⟩
      have accepted : (kept.transmitAll entries).1.accepted =
          c.accepted ++ (sent.map fun e => e.payload.frame).map fun f => (i, f) := by
        rw [taken, List.map_map, ← same.2]
        rfl
      change (kept.transmitOrRequeue entries).accepted = _
      rw [transmitOrRequeue]
      split <;> next h =>
        rw [h] at accepted
        exact accepted

/-- All that the later client has said since is said over the link it uses. -/
def SaysOnLink (c c' : Client) : Prop :=
  ∃ new, c'.accepted = c.accepted ++ new ∧ ∀ p ∈ new, c'.link = some p.1

private theorem saysOnLink_of_silent {c c' : Client} (accepted : c'.accepted = c.accepted) :
    SaysOnLink c c' :=
  ⟨[], by rw [accepted, List.append_nil], by simp⟩

private theorem says_send (p : Payload) : SaysOnLink c (c.send p) := by
  rcases c.send_cases p with ⟨i, links, -, held, -, sent⟩ | ⟨-, queued⟩
  · rw [sent]
    exact ⟨[(i, p.frame)], rfl, by simpa using held⟩
  · rw [queued]
    exact saysOnLink_of_silent rfl

private theorem says_typing (on : Bool) : SaysOnLink c (c.sendTyping on) := by
  rcases c.sendTyping_spec on with ⟨i, links, room, held, -, -, sent⟩ | lost
  · rw [sent]
    exact ⟨[_], rfl, by simpa using held⟩
  · rw [lost]
    exact saysOnLink_of_silent rfl

/-- What waits is said over a link that has just come into use. -/
private theorem says_outcome : SaysOnLink c (c.outcome?.getD c) := by
  rcases c.outcome_cases with quiet | ⟨o, os, i, -, -, -, ⟨-, opens⟩ | ⟨-, stays⟩⟩
  · exact saysOnLink_of_silent quiet.accepted
  · obtain ⟨frames, accepted⟩ := (c.opening os i).exists_flushQueue_accepted rfl
    have held : (c.opening os i).flushQueue.link = some i :=
      congrArg Standing.link (c.opening os i).standing_flushQueue
    rw [opens]
    refine ⟨frames.map fun f => (i, f), accepted, fun p hp => ?_⟩
    obtain ⟨f, -, rfl⟩ := List.mem_map.1 hp
    exact held
  · rw [stays]
    exact saysOnLink_of_silent rfl

/-- Whatever is said in a step is said over the link in use. -/
theorem step_says (h : Happening) : SaysOnLink c (c.step h) := by
  cases silent : speaks h with
  | false => exact saysOnLink_of_silent (c.step_quiet silent).accepted
  | true =>
    cases running : c.stopped with
    | true =>
      cases h with
      | turn t =>
        rw [step_of_stopped running]
        exact saysOnLink_of_silent rfl
      | _ => simp [speaks] at silent
    | false =>
      cases h with
      | turn t =>
        rw [step_of_running running]
        cases t with
        | command command =>
          cases command with
          | send p => exact c.says_send p
          | typing on => exact c.says_typing on
          | _ => simp [speaks] at silent
        | outcome => exact c.says_outcome
        | _ => simp [speaks] at silent
      | _ => simp [speaks] at silent

end ChatClient.Client
