/-!
# Waiting between attempts

After every failure the client waits twice as long as before, up to a limit. The doubling is done in
numbers of bounded width. Where these do not suffice the limit is waited for.

## Main definitions

* `Backoff.factor?`, `Backoff.multiple?`: the doubling, as far as the numbers go
* `Backoff.delay`: the wait before an attempt

## Main results

* `Backoff.delay_le`: the limit is kept
-/

namespace ChatClient

/-- How long to wait between attempts, in milliseconds. -/
structure Backoff where
  base : Nat := 1000
  limit : Nat := 30000
  deriving DecidableEq, Repr

/-- How many bits a factor has. -/
def Backoff.doublings : Nat := 32

/-- The power of two by which the wait before an attempt is longer, if it fits into a factor. -/
def Backoff.factor? (attempt : UInt32) : Option Nat :=
  if attempt.toNat < doublings then some (1 <<< attempt.toNat) else none

/-- No wait is as long as this, since its whole seconds are a number of 64 bits. -/
def Backoff.tooLong : Nat := UInt64.size * 1000

/-- A multiple of a wait, unless it would be too long. -/
def Backoff.multiple? (wait factor : Nat) : Option Nat :=
  if wait * factor < tooLong then some (wait * factor) else none

/-- The wait before the attempt with the given number, the first one having number 0. -/
def Backoff.delay (b : Backoff) (attempt : UInt32) : Nat :=
  match (factor? attempt).bind (multiple? b.base) with
  | some wait => min wait b.limit
  | none => b.limit

theorem Backoff.delay_le (b : Backoff) (attempt : UInt32) : b.delay attempt ≤ b.limit := by
  unfold delay
  split
  · exact Nat.min_le_right _ _
  · exact Nat.le_refl _

end ChatClient
