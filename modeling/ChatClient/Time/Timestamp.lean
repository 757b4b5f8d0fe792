import ChatClient.Text.Digit

/-!
# Timestamps and their display

A timestamp is a count of seconds from the Unix epoch together with a fraction in nanoseconds. The
fraction reaches past one second inside a leap second, which has no number of its own: it continues
the second before it. On display such a fraction makes the shown second one larger, so that the
leap second of a minute appears as 60.

## Main definitions

* `Timestamp`: seconds and nanoseconds
* `Timestamp.ofMillis`: the time of a clock that counts milliseconds
* `Timestamp.clockText`: `HH:MM:SS` as seen at an offset from UTC
-/

namespace ChatClient

/-- A point in time: `secs` whole seconds from the Unix epoch, rounded down, and `nanos` further
nanoseconds, which are a full second or more only inside a leap second. -/
structure Timestamp where
  secs : Int
  nanos : Nat
  deriving DecidableEq, Repr

namespace Timestamp

def epoch : Timestamp := ⟨0, 0⟩

/-- The nanoseconds of a second, which is where a leap second starts. -/
def nanosPerSecond : Nat := 1000000000

/-- The first and the last millisecond whose date has a place in the calendar. -/
def firstMillis : Int := -8334601228800000
def lastMillis : Int := 8210266876799999

/-- The time a number of milliseconds after the epoch; a number outside the calendar counts as the
epoch itself. -/
def ofMillis (millis : Int) : Timestamp :=
  if firstMillis ≤ millis ∧ millis ≤ lastMillis then
    ⟨millis.fdiv 1000, (millis.fmod 1000).toNat * 1000000⟩
  else epoch

example : ofMillis (-999) = ⟨-1, 1000000⟩ := by decide

/-- The second of the day at an offset of `offset` seconds east of UTC. -/
def secondOfDay (t : Timestamp) (offset : Int) : Nat :=
  ((t.secs + offset).fmod 86400).toNat

/-- One inside a leap second, zero outside. -/
def leap (t : Timestamp) : Nat :=
  t.nanos / nanosPerSecond

/-- The wall clock at the offset, as `HH:MM:SS`. -/
def clockText (t : Timestamp) (offset : Int) : String :=
  let s := t.secondOfDay offset
  Text.twoDigits (s / 3600) ++ ":" ++ Text.twoDigits (s / 60 % 60) ++ ":" ++
    Text.twoDigits (s % 60 + t.leap)

example : clockText ⟨1483228799, 1500000000⟩ 3600 = "00:59:60" := by decide
example : clockText ⟨-1, 0⟩ (-1) = "23:59:58" := by decide

theorem secondOfDay_lt (t : Timestamp) (offset : Int) : t.secondOfDay offset < 86400 := by
  have h := Int.fmod_lt_of_pos (t.secs + offset) (show (0 : Int) < 86400 by decide)
  have h' := Int.fmod_nonneg_of_pos (t.secs + offset) (show (0 : Int) < 86400 by decide)
  unfold secondOfDay
  omega

end Timestamp

end ChatClient
