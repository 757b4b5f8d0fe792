import ChatClient.Time.Calendar
import ChatClient.Time.Timestamp

/-!
# Reading times in the form of RFC 3339

A time is written `YYYY-MM-DD`, a separator (`T`, `t` or one space), `HH:MM:SS`, optionally a point
and a fraction of any length, and a zone: `Z`, `z`, or a sign with `hh:mm`. Nothing may stand before
or after it. The minus of a zone may also be the character U+2212. The second may be 60 in any
minute; such a leap second is kept as a fraction beyond the second 59. Digits of the fraction past
the ninth are dropped.

## Main definitions

* `Rfc3339.Fields`: the numbers that a text in this form spells
* `Rfc3339.fields?`: the numbers of a text
* `Rfc3339.Fields.timestamp`: the point in time that the numbers name
* `Rfc3339.read?`: both together
-/

namespace ChatClient.Rfc3339

/-- The numbers of a time in this form. The zone is counted in minutes east of UTC. -/
structure Fields where
  date : Time.Date
  hour : Nat
  minute : Nat
  second : Nat
  nanos : Nat
  zone : Int
  deriving DecidableEq, Repr

/-- The number spelled by exactly `count` digits, appended to the digits read so far. -/
def number? : (count : Nat) → (soFar : Nat) → List Char → Option (Nat × List Char)
  | 0, n, cs => some (n, cs)
  | _ + 1, _, [] => none
  | count + 1, n, c :: cs =>
    if Text.isDigit c then number? count (10 * n + Text.digitValue c) cs else none

/-- A number of two digits that is at most `limit`. -/
def bounded? (limit : Nat) (cs : List Char) : Option (Nat × List Char) := do
  let (n, rest) ← number? 2 0 cs
  if n ≤ limit then some (n, rest) else none

/-- The rest of a text that starts with a character of the given class. -/
def skip? (p : Char → Bool) : List Char → Option (List Char)
  | [] => none
  | c :: cs => if p c then some cs else none

/-- The first nine digits as nanoseconds; missing digits count as zero. -/
def nanosOf (digits : List Char) : Nat :=
  Text.decimal ((digits ++ List.replicate 9 '0').take 9)

/-- The fraction, if a point starts one; a point needs at least one digit after it. -/
def fraction? : List Char → Option (Nat × List Char)
  | '.' :: cs =>
    match cs.takeWhile Text.isDigit with
    | [] => none
    | digits => some (nanosOf digits, cs.dropWhile Text.isDigit)
  | cs => some (0, cs)

/-- The zone in minutes east of UTC. -/
def zone? : List Char → Option (Int × List Char)
  | [] => none
  | c :: cs =>
    if c = 'Z' ∨ c = 'z' then some (0, cs)
    else if c = '+' ∨ c = '-' ∨ c = '\u2212' then do
      let (hours, cs) ← bounded? 23 cs
      let cs ← skip? (· == ':') cs
      let (minutes, cs) ← bounded? 59 cs
      let east : Int := 60 * hours + minutes
      some (if c = '+' then east else -east, cs)
    else none

/-- The numbers that the text spells, if it is in the form and names a day of the calendar. -/
def fields? (cs : List Char) : Option Fields := do
  let (year, cs) ← number? 4 0 cs
  let cs ← skip? (· == '-') cs
  let (month, cs) ← bounded? 12 cs
  let cs ← skip? (· == '-') cs
  let (day, cs) ← bounded? 31 cs
  let cs ← skip? (fun c => c == 'T' || c == 't' || c == ' ') cs
  let (hour, cs) ← bounded? 23 cs
  let cs ← skip? (· == ':') cs
  let (minute, cs) ← bounded? 59 cs
  let cs ← skip? (· == ':') cs
  let (second, cs) ← bounded? 60 cs
  let (nanos, cs) ← fraction? cs
  let (zone, cs) ← zone? cs
  let date : Time.Date := ⟨year, month, day⟩
  -- That the day exists is found out only after all the rest has been read.
  if cs = [] ∧ date.Valid then some ⟨date, hour, minute, second, nanos, zone⟩ else none

/-- The point in time named by the numbers. Second 60 is second 59 and a fraction of one second
more. -/
def Fields.timestamp (f : Fields) : Timestamp :=
  let clock : Int := 3600 * f.hour + 60 * f.minute + min f.second 59
  ⟨86400 * f.date.daysSinceEpoch + clock - 60 * f.zone,
    f.nanos + if f.second = 60 then Timestamp.nanosPerSecond else 0⟩

/-- The point in time that a text names, if it is in the form of RFC 3339. -/
def read? (s : String) : Option Timestamp :=
  (fields? s.toList).map Fields.timestamp

end ChatClient.Rfc3339
