/-!
# Announcing that the user is typing

The first keystroke is announced, the following ones are not. When no keystroke has come for a
while, or when the message is sent, the end of the typing is announced. Both ends clear the
deadline, so of the two only the first one is announced.

## Main definitions

* `Debouncer`, with `keystroke`, `poll` and `send`
-/

namespace ChatClient

/-- What is announced. -/
inductive TypingSignal
  | start | stop
  deriving DecidableEq, Repr

def TypingSignal.isTyping (s : TypingSignal) : Bool := s == .start

/-- Whether typing has been announced, and when its end is due. Times are in milliseconds. -/
structure Debouncer where
  /-- How long after the last keystroke the typing counts as ended. -/
  idle : Nat := 2000
  announced : Bool := false
  deadline : Option Nat := none
  deriving DecidableEq, Repr

namespace Debouncer

/-- A key is hit. -/
def keystroke (d : Debouncer) (now : Nat) : Debouncer × Option TypingSignal :=
  ({ d with announced := true, deadline := some (now + d.idle) },
    if d.announced then none else some .start)

/-- The deadline has come. -/
def isDue (d : Debouncer) (now : Nat) : Bool :=
  match d.deadline with
  | some deadline => deadline ≤ now
  | none => false

/-- Time has passed. -/
def poll (d : Debouncer) (now : Nat) : Debouncer × Option TypingSignal :=
  if d.isDue now then ({ d with announced := false, deadline := none }, some .stop) else (d, none)

/-- The message is sent, or given up. -/
def send (d : Debouncer) : Debouncer × Option TypingSignal :=
  ({ d with announced := false, deadline := none }, if d.announced then some .stop else none)

end Debouncer

end ChatClient
