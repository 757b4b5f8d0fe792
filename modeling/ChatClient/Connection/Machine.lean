import ChatClient.Connection.Backoff

/-!
# The states of a connection

The connection of a room is attempted, open, or lost and waiting for the next attempt. The machine
counts the failures since the connection was last open and says after every transition what is to be
done next; it does nothing itself.

## Main definitions

* `ConnectionState`, `ConnectionAction`
* `Machine`, with the transitions `start`, `opened`, `closed`, `timerElapsed` and `teardown`
* `ordinal`: the number by which users know an attempt
-/

namespace ChatClient

/-- Where a connection stands. -/
inductive ConnectionState
  /-- No connection is wanted. -/
  | idle
  | connecting
  | open
  /-- Waiting to make the attempt with the given number. -/
  | reconnecting (attempt : UInt32)
  deriving DecidableEq, Repr

def ConnectionState.isOpen (s : ConnectionState) : Bool := s == .open

/-- What is to be done after a transition. -/
inductive ConnectionAction
  | connect
  /-- Send what waits for the room. -/
  | flushQueue
  /-- Make the attempt with the given number after a delay in milliseconds. -/
  | scheduleReconnect (attempt : UInt32) (delay : Nat)
  deriving DecidableEq, Repr

/-- A sum does not fit its numbers. The computation breaks down there. -/
structure Overflow
  deriving DecidableEq, Repr

/-- The number by which users know an attempt, as they count from one. Nothing keeps the sum from
leaving its numbers. -/
def ordinal (attempt : UInt32) : Except Overflow UInt32 :=
  if attempt.toNat + 1 < UInt32.size then .ok (attempt + 1) else .error {}

/-- One more, unless there is no larger number. -/
def nextAttempt (n : UInt32) : UInt32 :=
  if n.toNat + 1 < UInt32.size then n + 1 else n

/-- The state of a connection with the number of failures since it was last open. -/
structure Machine where
  state : ConnectionState := .idle
  attempts : UInt32 := 0
  backoff : Backoff
  deriving DecidableEq, Repr

namespace Machine

/-- A connection becomes wanted. -/
def start (m : Machine) : Machine × Option ConnectionAction :=
  match m.state with
  | .idle => ({ m with state := .connecting }, some .connect)
  | _ => (m, none)

/-- An attempt has succeeded. -/
def opened (m : Machine) : Machine × Option ConnectionAction :=
  match m.state with
  | .connecting => ({ m with state := .open, attempts := 0 }, some .flushQueue)
  | _ => (m, none)

theorem opened_of_ne {m : Machine} (h : m.state ≠ .connecting) : m.opened = (m, none) := by
  rw [opened]
  split
  · contradiction
  · rfl

/-- The connection was lost, or an attempt has failed. -/
def closed (m : Machine) : Machine × Option ConnectionAction :=
  match m.state with
  | .connecting | .open =>
    ({ m with state := .reconnecting m.attempts, attempts := nextAttempt m.attempts },
      some (.scheduleReconnect m.attempts (m.backoff.delay m.attempts)))
  | _ => (m, none)

/-- The time for the next attempt has come. -/
def timerElapsed (m : Machine) : Machine × Option ConnectionAction :=
  match m.state with
  | .reconnecting _ => ({ m with state := .connecting }, some .connect)
  | _ => (m, none)

/-- The connection is no longer wanted. -/
def teardown (m : Machine) : Machine :=
  { m with state := .idle, attempts := 0 }

end Machine

end ChatClient
