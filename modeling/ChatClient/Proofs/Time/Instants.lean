import ChatClient.Proofs.Time.Spelling
import Mathlib.Algebra.Order.Floor.Semifield
import Mathlib.Data.Rat.Floor
import Mathlib.Tactic.FieldSimp

/-!
# What a time tells

A time that is written down tells what a clock shows where it is written, and so what clocks show
elsewhere. A clock that stands one minute further east is one minute ahead, and a minute after the
last one of a day comes the first one of the next day. So two spellings tell of the same instant if
the clock of the one shows as many minutes later as it stands further east, and the same second and
fraction of it.

Reading turns this into a number of seconds. Minutes are numbered one after another, and the zone is
taken off. A leap second has no number of its own, so that it is kept apart from the second before
it by its nanoseconds. Of the fraction all beyond the nanoseconds is lost, and nothing else.

## Main definitions

* `Time.Minute`, `Minute.next`, `Minute.later`: minutes of the calendar and the clock, one after
  another
* `Spelling.part`: the fraction as a number
* `Spelling.SameSecond`, `Spelling.SameInstant`: two spellings tell of the same
* `Spelling.shifted`: what a clock shows that is set differently

## Main results

* `Minute.number_later`, `Minute.eq_of_number`: minutes and their numbers
* `nanosOf_digits`: the nanoseconds are the fraction without all that is beyond them
* `timestamp_eq_iff`: which spellings tell of the same, down to the nanosecond
* `clockText_timestamp`: what clocks show anywhere
* `read_keeps_time`: all of this for the texts
-/

namespace ChatClient.Time

/-! ## One minute after another -/

/-- A minute of the calendar and the clock. -/
structure Minute where
  date : Date
  hour : Nat
  minute : Nat

namespace Minute

/-- The clock can show it. -/
structure Valid (m : Minute) : Prop where
  date : m.date.Valid
  hour : m.hour < 24
  minute : m.minute < 60

/-- The minute after it. -/
def next (m : Minute) : Minute :=
  if m.minute < 59 then { m with minute := m.minute + 1 }
  else if m.hour < 23 then ⟨m.date, m.hour + 1, 0⟩
  else ⟨m.date.next, 0, 0⟩

/-- The minute `n` minutes after it. -/
def later (m : Minute) (n : Nat) : Minute := Nat.iterate next n m

/-- The minutes since the epoch. -/
def number (m : Minute) : Int := 1440 * m.date.daysSinceEpoch + 60 * m.hour + m.minute

variable {m m' : Minute}

/-- The minute after a minute of the calendar is one as well. -/
theorem Valid.next (valid : m.Valid) : m.next.Valid := by
  obtain ⟨date, hour, minute⟩ := valid
  unfold Minute.next
  split
  · next before => exact ⟨date, hour, Nat.succ_lt_succ before⟩
  · split
    · next before => exact ⟨date, Nat.succ_lt_succ before, Nat.zero_lt_succ _⟩
    · exact ⟨date.next, Nat.zero_lt_succ _, Nat.zero_lt_succ _⟩

private theorem Valid.number_next (valid : m.Valid) : m.next.number = m.number + 1 := by
  obtain ⟨date, hour, minute⟩ := valid
  have day := date.daysSinceEpoch_next
  unfold Minute.next number
  split
  · simp only
    omega
  · split
    · simp only
      omega
    · simp only [day]
      omega

/-- So are all later ones. -/
theorem Valid.later (valid : m.Valid) (n : Nat) : (m.later n).Valid := by
  induction n generalizing m with
  | zero => exact valid
  | succ n ih => exact ih valid.next

/-- Minutes are counted one by one. -/
theorem Valid.number_later (valid : m.Valid) (n : Nat) : (m.later n).number = m.number + n := by
  induction n generalizing m with
  | zero => simp [Minute.later]
  | succ n ih =>
    have step : (m.next.later n).number = m.next.number + n := ih valid.next
    rw [Minute.later, Function.iterate_succ_apply, ← Minute.later, step, valid.number_next]
    omega

/-- A minute is known by its number. -/
theorem eq_of_number (valid : m.Valid) (valid' : m'.Valid) (same : m.number = m'.number) :
    m = m' := by
  obtain ⟨date, hour, minute⟩ := valid
  obtain ⟨date', hour', minute'⟩ := valid'
  unfold number at same
  have day : m.date = m'.date := Date.eq_of_daysSinceEpoch date date' (by omega)
  rcases m with ⟨d, hh, mm⟩
  rcases m' with ⟨d', hh', mm'⟩
  simp only at day same hour hour' minute minute'
  subst day
  obtain rfl : hh = hh' := by omega
  obtain rfl : mm = mm' := by omega
  rfl

end Minute

end ChatClient.Time

namespace ChatClient.Rfc3339

open Text

/-! ## Fractions -/

/-- The number with the given digits after the point. -/
def fractionOf : List (Fin 10) → ℚ
  | [] => 0
  | d :: ds => (d.val + fractionOf ds) / 10

private theorem fractionOf_eq (ds : List (Fin 10)) :
    fractionOf ds = (decimal (digitChars ds) : ℚ) / 10 ^ ds.length := by
  induction ds with
  | nil => simp [fractionOf]
  | cons d ds ih =>
    rw [fractionOf, ih, digitChars_cons, decimal_cons, digitValue_digitChar d.isLt,
      length_digitChars, List.length_cons]
    push_cast
    field_simp
    ring

/-- Nine digits are kept, and missing ones are zeros. -/
theorem nanosOf_eq {ds : List Char} (digits : ∀ c ∈ ds, isDigit c = true) :
    nanosOf ds = 10 ^ 9 * decimal ds / 10 ^ ds.length := by
  unfold nanosOf
  rcases Nat.le_total ds.length 9 with short | long
  · obtain ⟨missing, nine⟩ := Nat.exists_eq_add_of_le short
    have taken : (ds ++ List.replicate 9 '0').take 9 = ds ++ List.replicate missing '0' := by
      rw [List.take_append, List.take_of_length_le short, List.take_replicate]
      congr 2
      omega
    rw [taken, decimal_append, decimal_zeros, List.length_replicate,
      Nat.add_zero, nine, Nat.pow_add, Nat.mul_assoc,
        Nat.mul_div_cancel_left _ (Nat.pow_pos (by decide)), Nat.mul_comm]
  -- More than nine digits are cut off, which rounds down.
  · obtain ⟨surplus, all⟩ := Nat.exists_eq_add_of_le long
    have taken : (ds ++ List.replicate 9 '0').take 9 = ds.take 9 :=
      List.take_append_of_le_length long
    have beyond : decimal (ds.drop 9) < 10 ^ surplus := by
      have few : decimal (ds.drop 9) < 10 ^ (ds.drop 9).length :=
        decimal_lt fun c mem => digits c (List.mem_of_mem_drop mem)
      rwa [List.length_drop, all, Nat.add_sub_cancel_left] at few
    have whole : decimal ds = decimal (ds.take 9) * 10 ^ surplus + decimal (ds.drop 9) := by
      rw [← List.take_append_drop 9 ds, decimal_append, List.take_append_drop,
        List.length_drop, all, Nat.add_sub_cancel_left]
    rw [taken, all, Nat.pow_add, Nat.mul_div_mul_left _ _ (Nat.pow_pos (by decide)), whole,
      Nat.mul_comm, Nat.mul_add_div (Nat.pow_pos (by decide)),
        Nat.div_eq_of_lt beyond, Nat.add_zero]

/-- The digits of a fraction that go beyond nanoseconds are cut off. -/
theorem nanosOf_digits (ds : List (Fin 10)) :
    nanosOf (digitChars ds) = ⌊10 ^ 9 * fractionOf ds⌋₊ := by
  rw [nanosOf_eq (isDigit_of_mem_digitChars ds), fractionOf_eq,
    ← Nat.floor_div_eq_div (K := ℚ), length_digitChars, Nat.cast_mul, Nat.cast_pow, Nat.cast_pow,
      Nat.cast_ofNat, mul_div_assoc]

namespace Spelling

variable (v w : Spelling)

/-- The fraction of the second. -/
def part : ℚ := fractionOf w.fraction

/-- What the calendar and the clock show, down to the minute. -/
def time : Time.Minute := ⟨w.date, w.hour, w.minute⟩

private theorem valid_time : w.time.Valid := ⟨w.valid, w.hour.isLt, w.minute.isLt⟩

private theorem nanos_eq : w.fields.nanos = ⌊10 ^ 9 * w.part⌋₊ := nanosOf_digits w.fraction

private theorem part_lt_one : w.part < 1 := by
  have few : decimal (digitChars w.fraction) < 10 ^ (digitChars w.fraction).length :=
    decimal_lt (isDigit_of_mem_digitChars w.fraction)
  rw [length_digitChars] at few
  rw [part, fractionOf_eq, div_lt_one (by positivity)]
  exact_mod_cast few

private theorem nanos_lt : w.fields.nanos < Timestamp.nanosPerSecond := by
  rw [nanos_eq, Nat.floor_lt' (by decide)]
  have small := w.part_lt_one
  norm_num [Timestamp.nanosPerSecond]
  linarith

private theorem secs_timestamp :
    w.fields.timestamp.secs = 60 * (w.time.number - w.zone.ahead) + min w.second.val 59 := by
  simp only [Fields.timestamp, fields, time, Time.Minute.number]
  omega

private theorem nanos_timestamp :
    w.fields.timestamp.nanos =
      w.fields.nanos + if w.second.val = 60 then Timestamp.nanosPerSecond else 0 := rfl

/-! ## The same instant -/

/-- The clock of the one is as many minutes ahead of that of the other as its zone is, and both show
the same second. -/
structure SameSecond : Prop where
  minute : ∃ n : Nat, (w.zone.ahead = v.zone.ahead + n ∧ w.time = v.time.later n) ∨
    (v.zone.ahead = w.zone.ahead + n ∧ v.time = w.time.later n)
  second : v.second = w.second

/-- Both spellings tell of the same instant. -/
structure SameInstant : Prop extends SameSecond v w where
  part : v.part = w.part

variable {v w}

/-- Clocks are as many minutes apart as their zones if they show the same minute of UTC. -/
theorem exists_later_iff :
    (∃ n : Nat, (w.zone.ahead = v.zone.ahead + n ∧ w.time = v.time.later n) ∨
        (v.zone.ahead = w.zone.ahead + n ∧ v.time = w.time.later n)) ↔
      v.time.number - v.zone.ahead = w.time.number - w.zone.ahead := by
  constructor
  · rintro ⟨n, ⟨ahead, later⟩ | ⟨ahead, later⟩⟩
    · rw [later, v.valid_time.number_later]
      omega
    · rw [later, w.valid_time.number_later]
      omega
  · intro same
    -- The clock that is ahead shows the later minute, and a minute is known by its number.
    rcases Int.le_total v.zone.ahead w.zone.ahead with le | le
    · obtain ⟨n, ahead⟩ := Int.le.dest le
      refine ⟨n, .inl ⟨ahead.symm, ?_⟩⟩
      apply Time.Minute.eq_of_number w.valid_time (v.valid_time.later n)
      rw [v.valid_time.number_later]
      omega
    · obtain ⟨n, ahead⟩ := Int.le.dest le
      refine ⟨n, .inr ⟨ahead.symm, ?_⟩⟩
      apply Time.Minute.eq_of_number v.valid_time (w.valid_time.later n)
      rw [w.valid_time.number_later]
      omega

/-- Two spellings name the same point in time exactly if they tell of the same second and of
fractions of it that do not differ in their nanoseconds. -/
theorem timestamp_eq_iff :
    v.fields.timestamp = w.fields.timestamp ↔
      SameSecond v w ∧ ⌊10 ^ 9 * v.part⌋₊ = ⌊10 ^ 9 * w.part⌋₊ := by
  have secs := v.secs_timestamp
  have secs' := w.secs_timestamp
  have nanos := v.nanos_timestamp
  have nanos' := w.nanos_timestamp
  have few := v.nanos_lt
  have few' := w.nanos_lt
  rw [← nanos_eq, ← nanos_eq]
  constructor
  · intro same
    -- A leap second is told from the second before it by its nanoseconds, which others do not
    -- reach.
    rw [same] at secs nanos
    have second : v.second.val = w.second.val := by split at nanos <;> split at nanos' <;> omega
    refine ⟨⟨exists_later_iff.2 (by omega), Fin.ext second⟩, ?_⟩
    rw [second] at nanos
    omega
  · rintro ⟨⟨minute, second⟩, part⟩
    have minute := exists_later_iff.1 minute
    rw [second] at secs nanos
    have same_secs : v.fields.timestamp.secs = w.fields.timestamp.secs := by omega
    have same_nanos : v.fields.timestamp.nanos = w.fields.timestamp.nanos := by omega
    generalize v.fields.timestamp = t at same_secs same_nanos ⊢
    generalize w.fields.timestamp = t' at same_secs same_nanos ⊢
    rcases t with ⟨secs, nanos⟩
    rcases t' with ⟨secs', nanos'⟩
    rw [show secs = secs' from same_secs, show nanos = nanos' from same_nanos]

/-! ## What clocks show -/

/-- What a clock shows that is so many minutes ahead of the one of the spelling. -/
def shifted (w : Spelling) (minutes : Int) : String :=
  let m := ((60 * w.hour.val + w.minute.val + minutes) % 1440).toNat
  String.ofList (padded 2 (m / 60) ++ ':' :: padded 2 (m % 60) ++ ':' :: padded 2 w.second)

private theorem shifted_zero (w : Spelling) : w.shifted 0 = String.ofList w.clock := by
  have hour := w.hour.isLt
  have minute := w.minute.isLt
  have same :
      ((60 * w.hour.val + w.minute.val + 0 : Int) % 1440).toNat =
        60 * w.hour.val + w.minute.val := by
    omega
  have hour' : (60 * w.hour.val + w.minute.val) / 60 = w.hour.val := by omega
  have minute' : (60 * w.hour.val + w.minute.val) % 60 = w.minute.val := by omega
  rw [shifted, same, hour', minute', clock]

/-- Wherever a clock stands, it shows what the spelling shows, shifted by the difference of the
zones. -/
theorem clockText_timestamp (w : Spelling) (offset : Int) :
    w.fields.timestamp.clockText (60 * offset) = w.shifted (offset - w.zone.ahead) := by
  have secs := w.secs_timestamp
  have nanos := w.nanos_timestamp
  have few := w.nanos_lt
  have second := w.second.isLt
  generalize w.fields.timestamp = t at secs nanos ⊢
  simp only [Time.Minute.number, time] at secs
  rw [Timestamp.clockText, Timestamp.leap, nanos]
  have day : t.secondOfDay (60 * offset) =
      60 * ((60 * w.hour.val + w.minute.val + (offset - w.zone.ahead)) % 1440).toNat +
        min w.second.val 59 := by
    rw [Timestamp.secondOfDay, Int.fmod_eq_emod_of_nonneg _ (by decide), secs]
    omega
  -- A sixtieth second is the last one of its minute, with more than a second of nanoseconds.
  have leap : (w.fields.nanos + if w.second.val = 60 then Timestamp.nanosPerSecond else 0) /
      Timestamp.nanosPerSecond = w.second.val - min w.second.val 59 := by
    unfold Timestamp.nanosPerSecond at few ⊢
    split <;> omega
  rw [leap, day, shifted]
  generalize ((60 * w.hour.val + w.minute.val + (offset - w.zone.ahead)) % 1440).toNat = m
  have hour : (60 * m + min w.second.val 59) / 3600 = m / 60 := by omega
  have minute : (60 * m + min w.second.val 59) / 60 % 60 = m % 60 := by omega
  have second : (60 * m + min w.second.val 59) % 60 +
    (w.second.val - min w.second.val 59) = w.second.val := by
    omega
  have colon : ":" = String.ofList [':'] := rfl
  simp only [hour, minute, second, twoDigits_eq, colon, ← String.ofList_append]
  simp

end Spelling

/-- Every text of a time can be read, and is shown again where it was written, with the second 60 in
a leap second. Elsewhere it is shown shifted by the difference of the zones, round the clock. Two
texts that tell of the same instant are read as the same point in time, and two are read so only if
they differ in nothing but in what is beyond the nanoseconds. No other texts can be read. -/
theorem read_keeps_time :
    (∀ w : Spelling, ∃ t, read? w.text = some t ∧
        t.clockText (60 * w.zone.ahead) = String.ofList w.clock ∧
        ∀ offset : Int, t.clockText (60 * offset) = w.shifted (offset - w.zone.ahead)) ∧
      (∀ v w : Spelling, v.SameInstant w → read? v.text = read? w.text) ∧
      (∀ v w : Spelling, read? v.text = read? w.text ↔
        v.SameSecond w ∧ ⌊10 ^ 9 * v.part⌋₊ = ⌊10 ^ 9 * w.part⌋₊) ∧
      ∀ s t, read? s = some t → ∃ w : Spelling, s = w.text := by
  -- A text is read part by part, and nothing else is read.
  have reads (w : Spelling) : read? w.text = some w.fields.timestamp := by
    rw [read?, Spelling.text, String.toList_ofList, w.fields?_chars, Option.map_some]
  have same (v w : Spelling) : read? v.text = read? w.text ↔
      v.SameSecond w ∧ ⌊10 ^ 9 * v.part⌋₊ = ⌊10 ^ 9 * w.part⌋₊ := by
    rw [reads, reads, Option.some_inj, Spelling.timestamp_eq_iff]
  refine ⟨fun w => ?_, fun v w instant => ?_, same, fun s t accepted => ?_⟩
  · refine ⟨_, reads w, ?_, w.clockText_timestamp⟩
    rw [w.clockText_timestamp, Int.sub_self, w.shifted_zero]
  · rw [same, instant.part]
    exact ⟨instant.toSameSecond, rfl⟩
  · obtain ⟨f, fields, -⟩ := Option.map_eq_some_iff.1 accepted
    obtain ⟨w, chars, -⟩ := exists_spelling fields
    exact ⟨w, by rw [Spelling.text, ← chars, String.ofList_toList]⟩

end ChatClient.Rfc3339

namespace ChatClient

/-! ### A detour

The last minute of the year 2016 had a second more, at midnight in one place and in the morning in
another. -/

namespace Detour

def midnight : Rfc3339.Spelling where
  date := ⟨2016, 12, 31⟩
  valid := by decide
  year_lt := by decide
  separator := .upper
  hour := 23
  minute := 59
  second := 60
  fraction := [5]
  zone := .zulu true

def morning : Rfc3339.Spelling where
  date := ⟨2017, 1, 1⟩
  valid := by decide
  year_lt := by decide
  separator := .lower
  hour := 8
  minute := 59
  second := 60
  fraction := [5, 0]
  zone := .east 9 0

end Detour

theorem read_keeps_time_detour :
    Detour.midnight.text = "2016-12-31T23:59:60.5Z" ∧
      Detour.morning.text = "2017-01-01t08:59:60.50+09:00" ∧
      Detour.midnight.SameInstant Detour.morning ∧
      Rfc3339.read? Detour.midnight.text = Rfc3339.read? Detour.morning.text ∧
      ∃ t, Rfc3339.read? Detour.morning.text = some t ∧
        t.clockText (60 * 540) = "08:59:60" ∧
        t.clockText (60 * (-90)) = "22:29:60" := by
  have instant : Detour.midnight.SameInstant Detour.morning := {
    minute := Rfc3339.Spelling.exists_later_iff.2 (by decide)
    second := rfl
    part := by
      norm_num [Rfc3339.Spelling.part, Rfc3339.fractionOf, Detour.midnight, Detour.morning] }
  obtain ⟨reads, same, -, -⟩ := Rfc3339.read_keeps_time
  obtain ⟨t, reads, here, there⟩ := reads Detour.morning
  exact ⟨rfl, rfl, instant, same _ _ instant, t, reads, here, there (-90)⟩

end ChatClient
