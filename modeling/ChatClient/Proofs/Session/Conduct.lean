import ChatClient.Session.Run
import Mathlib.Tactic.Common

/-!
# What a client does with its network

A client hands frames to its links, starts attempts and looks at outcomes. It also takes texts from
links and closes them, but both only at few places. What one network has in common with the next,
as far as the former goes, is shown here for all such relations at once.

## Main definitions

* `Network.Conduct`: a relation that survives whatever a client does, texts and closing apart

## Main results

* `Conduct.execute`, `Conduct.proceed`, `Conduct.announce`: it survives what the machine asks for
* `Conduct.send`, `Conduct.sendTyping`, `Conduct.timer`, `Conduct.outcome`: and what follows from a
  command, from a wait that is over and from an outcome of the session
-/

namespace ChatClient.Network

/-- What an earlier and a later network have in common, whatever a client does meanwhile, except
that it takes no texts from links and closes none. Attempts and outcomes play no part in it. -/
structure Conduct (R : Network → Network → Prop) : Prop where
  same : ∀ {n n' : Network}, n'.links = n.links → n'.accepted = n.accepted → R n n'
  trans : ∀ {n n' n'' : Network}, R n n' → R n' n'' → R n n''
  sent : ∀ (n : Network) (i : Nat) (f : Wire.Frame), R n (n.transmit i f).1

namespace Conduct

variable {R : Network → Network → Prop} (conduct : Conduct R)
include conduct

theorem refl (n : Network) : R n n := conduct.same rfl rfl

/-! ## Frames -/

/-- A frame is handed to the link in use, if there is one. -/
theorem transmit (c : Client) (f : Wire.Frame) : R c.toNetwork (c.transmit f).1.toNetwork := by
  rw [Client.transmit]
  split
  · exact conduct.refl _
  · exact conduct.sent c.toNetwork _ f

/-- The frames of entries are handed over one after the other, up to the first that is refused. -/
theorem transmitAll (c : Client) (es : List QueueEntry) :
    R c.toNetwork (c.transmitAll es).1.toNetwork := by
  induction es generalizing c with
  | nil => exact conduct.refl _
  | cons e es ih =>
    have sent := conduct.transmit c e.payload.frame
    rw [Client.transmitAll]
    split
    · next h =>
      rw [h] at sent
      exact conduct.trans sent (ih _)
    · next h =>
      rw [h] at sent
      exact sent

/-- Entries that are not handed over go back to the outbox, which plays no part in it. -/
theorem transmitOrRequeue (c : Client) (es : List QueueEntry) :
    R c.toNetwork (c.transmitOrRequeue es).toNetwork := by
  have sent := conduct.transmitAll c es
  rw [Client.transmitOrRequeue]
  split <;> next h =>
    rw [h] at sent
    exact sent

/-- The outbox plays no part in it. Only the frames that are handed over do. -/
theorem flushQueue (c : Client) : R c.toNetwork c.flushQueue.toNetwork := by
  rw [Client.flushQueue]
  split
  · exact conduct.refl _
  · next room _ =>
    dsimp only
    split
    · exact conduct.refl _
    · next entries _ =>
      have kept : (c.withOutbox
          (c.outbox.flush c.disk fun e => e.room == room)).dropOthers.toNetwork = c.toNetwork := by
        rw [Client.dropOthers]
        split <;> rfl
      rw [← kept]
      exact conduct.transmitOrRequeue _ entries

/-- A payload is handed over or put into the outbox. -/
theorem send (c : Client) (p : Payload) : R c.toNetwork (c.send p).toNetwork := by
  have sent := conduct.transmit c p.frame
  rw [Client.send]
  split
  · split <;> next h =>
      rw [h] at sent
      exact sent
  · exact conduct.refl _

/-- A typing signal is handed over or forgotten. -/
theorem sendTyping (c : Client) (on : Bool) : R c.toNetwork (c.sendTyping on).toNetwork := by
  rw [Client.sendTyping]
  split
  · exact conduct.refl _
  · split
    · exact conduct.transmit c _
    · exact conduct.refl _

/-! ## What the machine asks for -/

/-- The machine asks for an attempt, a flush, a timer or nothing. -/
theorem execute (c : Client) (action : Option ConnectionAction) :
    R c.toNetwork (c.execute action).toNetwork := by
  unfold Client.execute
  split
  · exact conduct.refl _
  · rw [Client.connect]
    split
    · exact conduct.refl _
    · exact conduct.same rfl rfl
  · exact conduct.flushQueue c
  · exact conduct.refl _

/-- The machine moves on and what it asks for is done. -/
theorem proceed (c : Client) (transition : Machine → Machine × Option ConnectionAction) :
    R c.toNetwork (c.proceed transition).toNetwork :=
  conduct.execute { c with machine := (transition c.machine).1 } _

/-- The new state of the machine is published before what it asks for is done. -/
theorem announce (c : Client) (transition : Machine → Machine × Option ConnectionAction) :
    R c.toNetwork (c.announce transition).toNetwork :=
  conduct.execute { c with machine := (transition c.machine).1 : Client }.publish _

/-- If there is a room an attempt begins, which touches no link. -/
theorem begin (c : Client) : R c.toNetwork c.begin.toNetwork := by
  rw [Client.begin]
  split
  · exact conduct.proceed c _
  · exact conduct.refl _

/-! ## Turns that take no text and close no link -/

/-- An outcome of the session is looked at. -/
theorem outcome (c : Client) {o : Outcome} (current : o.epoch = c.epoch) :
    R c.toNetwork (c.handleOutcome o).toNetwork := by
  rw [Client.handleOutcome, if_pos current]
  split
  · next i _ => exact conduct.announce { c with pending := none, link := some i } _
  · exact conduct.announce { c with pending := none } _

/-- A link whose end is found is forgotten and not closed. -/
theorem linkClosed (c : Client) : R c.toNetwork c.handleLinkClosed.toNetwork :=
  conduct.proceed { c with link := none } _

/-- A timer begins another attempt at most. -/
theorem timer (c : Client) : R c.toNetwork (c.timer?.getD c).toNetwork := by
  rw [Client.timer?]
  split
  · exact conduct.refl _
  · split
    · exact conduct.proceed { c with timer := none } _
    · exact conduct.refl _

end Conduct

end ChatClient.Network
