import ChatClient.Connection.Endpoint
import ChatClient.Wire.Frame

/-!
# Attempts, links and outcomes

What happens between the client and its servers is kept as a record. An attempt to connect runs
until it is settled by the server or given up by the client. An attempt that the server accepts
opens a link; either way the client learns of it by an outcome, which may wait for a while before it
is looked at. On a link the server takes frames, as long as it does, and pushes texts, which the
client takes one by one.

## Main definitions

* `Attempt`, `Link`, `Outcome`, `Handshake`
* `Network`, `Network.settle`, `Network.transmit`
-/

namespace ChatClient

/-- What has become of an attempt. -/
inductive AttemptStatus
  | running | settled
  /-- Given up by the client. -/
  | aborted
  deriving DecidableEq, Repr

/-- An attempt to connect. -/
structure Attempt where
  startedAt : Nat
  endpoint : Endpoint
  /-- The session of the client that the attempt is made for. -/
  epoch : UInt64
  status : AttemptStatus := .running
  deriving DecidableEq

/-- The attempt after the client has given it up, if it still ran. -/
def Attempt.abort (a : Attempt) : Attempt :=
  if a.status = .running then { a with status := .aborted } else a

/-- A connection that was opened. -/
structure Link where
  /-- The room whose address was asked for. -/
  room : RoomId
  /-- The session of the client that the link was opened for. -/
  epoch : UInt64
  /-- How many more frames the server takes; any number if nothing is said. -/
  accepts : Option Nat := none
  /-- The texts that the server has pushed. -/
  pushed : List String := []
  /-- How many of these the client has taken. -/
  taken : Nat := 0
  /-- The server has ended the connection. -/
  ended : Bool := false
  /-- The client has closed the connection. -/
  closed : Bool := false
  deriving DecidableEq

namespace Link

/-- The server still takes frames. -/
def reads (l : Link) : Bool := l.accepts != some 0

/-- The link after the server has taken a frame. -/
def accept (l : Link) : Link := { l with accepts := l.accepts.map (· - 1) }

/-- The next text that the client has not taken yet. -/
def next? (l : Link) : Option String := l.pushed[l.taken]?

/-- The link after the client has taken one more text. -/
def take (l : Link) : Link := { l with taken := l.taken + 1 }

/-- The client still takes texts. -/
def listening (l : Link) : Bool := !l.ended && !l.closed

/-- The server pushes a text. -/
def push (l : Link) (text : String) : Link := { l with pushed := l.pushed ++ [text] }

/-- The server takes no more frames. -/
def deafen (l : Link) : Link := { l with accepts := some 0 }

/-- The server pushes no more texts. It may still take frames. -/
def hangUp (l : Link) : Link := { l with ended := true }

/-- The server ends the connection. -/
def finish (l : Link) : Link := l.deafen.hangUp

/-- The client closes the connection. -/
def close (l : Link) : Link := { l with closed := true }

end Link

/-- How an attempt ended: with the link of the given number, or with none. -/
structure Outcome where
  epoch : UInt64
  link : Option Nat
  deriving DecidableEq

/-- What the server says to an attempt. -/
inductive Handshake
  /-- A link opens on which the server takes so many frames. -/
  | accepted (accepts : Option Nat)
  | refused
  deriving DecidableEq

/-- All attempts and links so far, in the order in which they came into being. -/
structure Network where
  attempts : List Attempt := []
  links : List Link := []
  /-- The outcomes that have not been looked at. -/
  outcomes : List Outcome := []
  /-- The frames that servers have taken, in the order in which they were, each with the number of
  its link. -/
  accepted : List (Nat × Wire.Frame) := []

namespace Network

/-- The attempt `a`, which has the given number, ends as the server says, and the client is going to
learn of it. -/
def conclude (n : Network) (i : Nat) (a : Attempt) (h : Handshake) : Network :=
  let attempts := n.attempts.set i { a with status := .settled }
  match h with
  | .accepted accepts =>
    { n with
      attempts
      links := n.links ++ [{ room := a.endpoint.room, epoch := a.epoch, accepts }]
      outcomes := n.outcomes ++ [⟨a.epoch, some n.links.length⟩] }
  | .refused => { n with attempts, outcomes := n.outcomes ++ [⟨a.epoch, none⟩] }

/-- The server settles the attempt with the given number. An attempt that does not run cannot be
settled. -/
def settle (n : Network) (i : Nat) (h : Handshake) : Network :=
  match n.attempts[i]? with
  | some a => if a.status = .running then n.conclude i a h else n
  | none => n

/-- The server settles the attempt with the given number, be it that the client has given it up
meanwhile. An attempt that is given up at the moment at which the server settles it still has its
outcome. -/
def settleLate (n : Network) (i : Nat) (h : Handshake) : Network :=
  match n.attempts[i]? with
  | some a => if a.status = .settled then n else n.conclude i a h
  | none => n

/-- The client gives up the attempt with the given number, if it still runs. -/
def abort (n : Network) (i : Nat) : Network :=
  { n with attempts := n.attempts.modify i Attempt.abort }

/-- Something happens to the link with the given number. -/
def onLink (n : Network) (i : Nat) (f : Link → Link) : Network :=
  { n with links := n.links.modify i f }

/-- The client lets go of an outcome without looking at it, which closes its link. -/
def dropOutcome (n : Network) (o : Outcome) : Network :=
  match o.link with
  | none => n
  | some i => n.onLink i Link.close

/-- The client lets go of all outcomes that have not been looked at. -/
def dropOutcomes (n : Network) : Network :=
  { n.outcomes.foldl dropOutcome n with outcomes := [] }

/-- A frame is handed to the link with the given number. Says whether the server takes it. -/
def transmit (n : Network) (i : Nat) (f : Wire.Frame) : Network × Bool :=
  match n.links[i]? with
  | none => (n, false)
  | some l =>
    if l.reads then
      ({ n with links := n.links.set i l.accept, accepted := n.accepted ++ [(i, f)] }, true)
    else (n, false)

end Network

end ChatClient
