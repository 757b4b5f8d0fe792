import ChatClient.Proofs.Text.Digits
import ChatClient.Proofs.Time.Days
import ChatClient.Time.Rfc3339
import Mathlib.Data.List.TakeWhile

/-!
# Times as they are written

Whoever writes down a time in the form of RFC 3339 decides on a day of the calendar, on the hour,
the minute and the second, on as many digits of a fraction as wanted, and on a zone. All that is
left are the ways to write the separator and the zone. Such a spelling has its text, the text is
read back as what was decided on, and every text that can be read is that of a spelling.

Both directions go along the text from left to right. Each part is read from what is written for it,
whatever follows, with the one proviso that no digit follows a fraction. In return, what a part of
the reader accepts is what would be written for the part.

## Main definitions

* `Zone`, `Spelling`: what is decided on
* `Spelling.text`: what is written
* `Spelling.fields`: the numbers in it

## Main results

* `fields?_chars`: a spelling is read back from its text
* `exists_spelling`: what can be read is the text of a spelling
-/

namespace ChatClient.Rfc3339

open Text

/-! ## What is written -/

/-- What stands between the date and the time of day. -/
inductive Separator
  | upper | lower | blank

def Separator.char : Separator → Char
  | .upper => 'T'
  | .lower => 't'
  | .blank => ' '

/-- A zone as it is written. -/
inductive Zone
  /-- No difference from UTC. -/
  | zulu (capital : Bool)
  | east (hours : Fin 24) (minutes : Fin 60)
  /-- The minus may be the one on the keyboard. -/
  | west (hyphen : Bool) (hours : Fin 24) (minutes : Fin 60)

namespace Zone

/-- The minutes that clocks are ahead of UTC. -/
def ahead : Zone → Int
  | .zulu _ => 0
  | .east hours minutes => 60 * hours.val + minutes.val
  | .west _ hours minutes => -(60 * hours.val + minutes.val)

def chars : Zone → List Char
  | .zulu capital => [if capital then 'Z' else 'z']
  | .east hours minutes => '+' :: padded 2 hours ++ ':' :: padded 2 minutes
  | .west hyphen hours minutes =>
    (if hyphen then '-' else '\u2212') :: padded 2 hours ++ ':' :: padded 2 minutes

end Zone

/-- Digits as characters. -/
def digitChars (ds : List (Fin 10)) : List Char := ds.map fun d : Fin 10 => Nat.digitChar d

@[simp] theorem digitChars_nil : digitChars [] = [] := rfl

/-- Digits are written one by one. -/
theorem digitChars_cons (d : Fin 10) (ds : List (Fin 10)) :
    digitChars (d :: ds) = Nat.digitChar d :: digitChars ds := rfl

/-- What is written for digits are digits. -/
theorem isDigit_of_mem_digitChars (ds : List (Fin 10)) : ∀ c ∈ digitChars ds, isDigit c = true := by
  intro c mem
  obtain ⟨d, -, rfl⟩ := List.mem_map.1 mem
  exact isDigit_digitChar d.isLt

@[simp] theorem length_digitChars (ds : List (Fin 10)) : (digitChars ds).length = ds.length :=
  List.length_map _

/-- The characters of a fraction; without digits there is no point. -/
def pointed : List Char → List Char
  | [] => []
  | digits => '.' :: digits

/-- A time as somebody decides to write it. -/
structure Spelling where
  date : Time.Date
  valid : date.Valid
  year_lt : date.year < 10000
  separator : Separator
  hour : Fin 24
  minute : Fin 60
  /-- A second with the number 60 is a leap second. -/
  second : Fin 61
  /-- The digits after the point. -/
  fraction : List (Fin 10)
  zone : Zone

namespace Spelling

/-- The hour, the minute and the second. -/
def clock (w : Spelling) : List Char :=
  padded 2 w.hour ++ ':' :: padded 2 w.minute ++ ':' :: padded 2 w.second

def chars (w : Spelling) : List Char :=
  padded 4 w.date.year ++ '-' :: padded 2 w.date.month ++ '-' :: padded 2 w.date.day ++
    w.separator.char :: w.clock ++ pointed (digitChars w.fraction) ++ w.zone.chars

/-- What is written. -/
def text (w : Spelling) : String := String.ofList w.chars

/-- The numbers in it. -/
def fields (w : Spelling) : Fields :=
  ⟨w.date, w.hour, w.minute, w.second, nanosOf (digitChars w.fraction), w.zone.ahead⟩

end Spelling

/-! ## It is read -/

section Reading

variable {n limit : Nat} (rest : List Char)

private theorem number?_padded {count : Nat} (small : n < 10 ^ count) (soFar : Nat) :
    number? count soFar (padded count n ++ rest) = some (10 ^ count * soFar + n, rest) := by
  induction count generalizing n soFar with
  | zero =>
    have zero : n = 0 := by simpa using small
    simp [number?, padded, zero]
  | succ count ih =>
    have front : n / 10 ^ count < 10 := Nat.div_lt_of_lt_mul (by rwa [← Nat.pow_succ])
    have back : n % 10 ^ count < 10 ^ count := Nat.mod_lt _ (Nat.pow_pos (by decide))
    have whole := Nat.div_add_mod n (10 ^ count)
    rw [padded, List.cons_append, number?, if_pos (isDigit_digitChar front),
      digitValue_digitChar front, ih back, Nat.pow_succ, Nat.mul_add, Nat.add_assoc,
        whole, Nat.mul_assoc]

private theorem bounded?_padded (le : n ≤ limit) (small : n < 100) :
    bounded? limit (padded 2 n ++ rest) = some (n, rest) := by
  rw [bounded?, number?_padded rest small]
  simp [le]

private theorem skip?_cons {p : Char → Bool} {c : Char} (passes : p c = true) :
    skip? p (c :: rest) = some rest := by
  rw [skip?, if_pos passes]

/-- The end of a text and the front of a zone end the digits of a fraction, and neither starts
one. -/
theorem Zone.ends (z : Zone) : ∃ c cs, z.chars = c :: cs ∧ isDigit c = false ∧ c ≠ '.' := by
  cases z with
  | zulu capital => cases capital <;> exact ⟨_, _, rfl, by decide, by decide⟩
  | east hours minutes => exact ⟨_, _, rfl, by decide, by decide⟩
  | west hyphen hours minutes => cases hyphen <;> exact ⟨_, _, rfl, by decide, by decide⟩

private theorem fraction?_pointed (ds : List (Fin 10)) (z : Zone) :
    fraction? (pointed (digitChars ds) ++ z.chars) = some (nanosOf (digitChars ds), z.chars) := by
  have digits := isDigit_of_mem_digitChars ds
  obtain ⟨c, cs, front, stop, point⟩ := z.ends
  generalize digitChars ds = ds at digits ⊢
  cases ds with
  | nil =>
    rw [pointed, List.nil_append, front, fraction?]
    · rfl
    · rintro rest ⟨⟩
      exact point rfl
  | cons d ds =>
    have ends : EndsDigits z.chars := by simpa [EndsDigits, front] using stop
    rw [pointed, List.cons_append, fraction?, takeWhile_digits digits ends,
      dropWhile_digits digits ends]
    simp

private theorem zone?_chars (z : Zone) : zone? z.chars = some (z.ahead, []) := by
  have two (h : Fin 24) (m : Fin 60) (sign : Char)
      (signs : sign = '+' ∨ sign = '-' ∨ sign = '\u2212') (other : ¬ (sign = 'Z' ∨ sign = 'z')) :
      zone? (sign :: padded 2 h ++ ':' :: padded 2 m) =
        some (if sign = '+' then (60 * h.val + m.val : Int) else -(60 * h.val + m.val), []) := by
    have minutes : bounded? 59 (padded 2 m ++ []) = some (m.val, []) :=
      bounded?_padded [] (by omega) (by omega)
    rw [List.append_nil] at minutes
    rw [List.cons_append, zone?, if_neg other, if_pos signs,
      bounded?_padded _ (by omega) (by omega)]
    simp [skip?, minutes]
  cases z with
  | zulu capital => cases capital <;> rfl
  | east hours minutes => exact two hours minutes '+' (by decide) (by decide)
  | west hyphen hours minutes =>
    cases hyphen
    · exact two hours minutes '\u2212' (by decide) (by decide)
    · exact two hours minutes '-' (by decide) (by decide)

end Reading

namespace Spelling

private theorem chars_eq (w : Spelling) :
    w.chars = padded 4 w.date.year ++
      '-' :: (padded 2 w.date.month ++ '-' :: (padded 2 w.date.day ++
      w.separator.char :: (padded 2 w.hour ++ ':' :: (padded 2 w.minute ++ ':' ::
        (padded 2 w.second ++ (pointed (digitChars w.fraction) ++ w.zone.chars)))))) := by
  simp only [chars, clock, List.append_assoc, List.cons_append]

/-- A spelling is read back from its text. -/
theorem fields?_chars (w : Spelling) : fields? w.chars = some w.fields := by
  obtain ⟨-, month_le, -, day_le⟩ := w.valid
  have day_le' := day_le.trans (Time.monthLength_le _ _)
  have hour_le : w.hour.val ≤ 23 := by omega
  have minute_le : w.minute.val ≤ 59 := by omega
  have second_le : w.second.val ≤ 60 := by omega
  have small : w.date.year < 10 ^ 4 := w.year_lt
  have year (rest : List Char) :
      number? 4 0 (padded 4 w.date.year ++ rest) = some (w.date.year, rest) := by
    simpa using number?_padded rest small 0
  have separates :
      (w.separator.char == 'T' || w.separator.char == 't' || w.separator.char == ' ') = true := by
    cases w.separator <;> decide
  rw [chars_eq]
  -- One part after the other is read from the front of what is left.
  refine Option.bind_eq_some_iff.2 ⟨_, year _, ?_⟩
  refine Option.bind_eq_some_iff.2 ⟨_, skip?_cons _ rfl, ?_⟩
  refine Option.bind_eq_some_iff.2 ⟨_, bounded?_padded _ month_le (by omega), ?_⟩
  refine Option.bind_eq_some_iff.2 ⟨_, skip?_cons _ rfl, ?_⟩
  refine Option.bind_eq_some_iff.2 ⟨_, bounded?_padded _ day_le' (by omega), ?_⟩
  refine Option.bind_eq_some_iff.2 ⟨_, skip?_cons _ separates, ?_⟩
  refine Option.bind_eq_some_iff.2 ⟨_, bounded?_padded _ hour_le (by omega), ?_⟩
  refine Option.bind_eq_some_iff.2 ⟨_, skip?_cons _ rfl, ?_⟩
  refine Option.bind_eq_some_iff.2 ⟨_, bounded?_padded _ minute_le (by omega), ?_⟩
  refine Option.bind_eq_some_iff.2 ⟨_, skip?_cons _ rfl, ?_⟩
  refine Option.bind_eq_some_iff.2 ⟨_, bounded?_padded _ second_le (by omega), ?_⟩
  refine Option.bind_eq_some_iff.2 ⟨_, fraction?_pointed _ _, ?_⟩
  refine Option.bind_eq_some_iff.2 ⟨_, zone?_chars _, ?_⟩
  exact if_pos ⟨rfl, w.valid⟩

end Spelling

/-! ## Nothing else is read -/

section Accepting

variable {limit n : Nat} {cs rest : List Char}

private theorem number?_eq_some {count soFar : Nat}
    (reads : number? count soFar cs = some (n, rest)) :
    ∃ m < 10 ^ count, n = 10 ^ count * soFar + m ∧ cs = padded count m ++ rest := by
  induction count generalizing soFar cs with
  | zero =>
    obtain ⟨rfl, rfl⟩ : soFar = n ∧ cs = rest := by simpa [number?] using reads
    exact ⟨0, by simp, by simp, rfl⟩
  | succ count ih =>
    cases cs with
    | nil => cases reads
    | cons c cs =>
      rw [number?] at reads
      split at reads
      · next digit =>
        obtain ⟨m, small, rfl, rfl⟩ := ih reads
        have front := digitValue_lt digit
        have tens : 0 < 10 ^ count := Nat.pow_pos (by decide)
        -- The first digit is the one with the greatest weight.
        refine ⟨10 ^ count * digitValue c + m, ?_, by ring, ?_⟩
        · calc 10 ^ count * digitValue c + m < 10 ^ count * digitValue c + 10 ^ count := by omega
            _ = 10 ^ count * (digitValue c + 1) := rfl
            _ ≤ 10 ^ (count + 1) := by rw [Nat.pow_succ]; exact Nat.mul_le_mul_left _ front
        · rw [padded, Nat.mul_add_div tens, Nat.div_eq_of_lt small, Nat.add_zero,
            digitChar_digitValue digit, Nat.mul_add_mod, Nat.mod_eq_of_lt small, List.cons_append]
      · cases reads

private theorem bounded?_eq_some (reads : bounded? limit cs = some (n, rest)) :
    n ≤ limit ∧ n < 100 ∧ cs = padded 2 n ++ rest := by
  obtain ⟨⟨m, rest'⟩, number, bound⟩ := Option.bind_eq_some_iff.1 reads
  obtain ⟨k, small, rfl, rfl⟩ := number?_eq_some number
  simp only at bound
  split at bound
  · next le =>
    obtain ⟨rfl, rfl⟩ : 10 ^ 2 * 0 + k = n ∧ rest' = rest := by simpa using bound
    exact ⟨le, by omega, by simp⟩
  · cases bound

private theorem skip?_eq_some {p : Char → Bool} (reads : skip? p cs = some rest) :
    ∃ c, p c = true ∧ cs = c :: rest := by
  cases cs with
  | nil => cases reads
  | cons c cs =>
    rw [skip?] at reads
    split at reads
    · next passes =>
      obtain rfl := Option.some.inj reads
      exact ⟨c, passes, rfl⟩
    · cases reads

private theorem skip?_beq_eq_some {c : Char} (reads : skip? (· == c) cs = some rest) :
    cs = c :: rest := by
  obtain ⟨_, same, rfl⟩ := skip?_eq_some reads
  rw [eq_of_beq same]

private theorem separator_of_skip?
    (reads : skip? (fun c => c == 'T' || c == 't' || c == ' ') cs = some rest) :
    ∃ separator : Separator, cs = separator.char :: rest := by
  obtain ⟨c, separates, rfl⟩ := skip?_eq_some reads
  obtain (rfl | rfl) | rfl : (c = 'T' ∨ c = 't') ∨ c = ' ' := by simpa using separates
  · exact ⟨.upper, rfl⟩
  · exact ⟨.lower, rfl⟩
  · exact ⟨.blank, rfl⟩

private theorem exists_digitChars (digits : ∀ c ∈ cs, isDigit c = true) :
    ∃ ds, cs = digitChars ds := by
  induction cs with
  | nil => exact ⟨[], rfl⟩
  | cons c cs ih =>
    obtain ⟨digit, digits⟩ := List.forall_mem_cons.1 digits
    obtain ⟨ds, rfl⟩ := ih digits
    refine ⟨⟨digitValue c, digitValue_lt digit⟩ :: ds, ?_⟩
    rw [digitChars_cons, digitChar_digitValue digit]

private theorem fraction?_eq_some (reads : fraction? cs = some (n, rest)) :
    ∃ ds, n = nanosOf (digitChars ds) ∧ cs = pointed (digitChars ds) ++ rest := by
  unfold fraction? at reads
  split at reads
  · next cs =>
    have digits : ∀ c ∈ cs.takeWhile isDigit, isDigit c = true := fun _ => List.mem_takeWhile_imp
    obtain ⟨ds, taken⟩ := exists_digitChars digits
    split at reads
    · cases reads
    · next some_ =>
      obtain ⟨rfl, rfl⟩ : nanosOf (cs.takeWhile isDigit) = n ∧ cs.dropWhile isDigit = rest := by
        simpa using reads
      have point : pointed (cs.takeWhile isDigit) = '.' :: cs.takeWhile isDigit := by
        rw [pointed]
        exact some_
      refine ⟨ds, by rw [taken], ?_⟩
      rw [← taken, point, List.cons_append, List.takeWhile_append_dropWhile]
  · obtain ⟨rfl, rfl⟩ : 0 = n ∧ cs = rest := by simpa using reads
    exact ⟨[], rfl, rfl⟩

private theorem zone?_eq_some {ahead : Int} (reads : zone? cs = some (ahead, rest)) :
    ∃ z : Zone, ahead = z.ahead ∧ cs = z.chars ++ rest := by
  cases cs with
  | nil => cases reads
  | cons c cs =>
    rw [zone?] at reads
    split at reads
    · next zulu =>
      obtain ⟨rfl, rfl⟩ : 0 = ahead ∧ cs = rest := by simpa using reads
      rcases zulu with rfl | rfl
      · exact ⟨.zulu true, rfl, rfl⟩
      · exact ⟨.zulu false, rfl, rfl⟩
    · split at reads
      · next sign =>
        -- Hours, a colon, minutes, each read as in its own lemma.
        simp only [Option.bind_eq_bind, Option.bind_eq_some_iff, Prod.exists, Option.some.injEq,
          Prod.mk.injEq] at reads
        obtain ⟨h, _, hours, _, colon, m, _, minutes, rfl, rfl⟩ := reads
        obtain ⟨h_le, -, rfl⟩ := bounded?_eq_some hours
        obtain rfl := skip?_beq_eq_some colon
        obtain ⟨m_le, -, rfl⟩ := bounded?_eq_some minutes
        have h_lt : h < 24 := by omega
        have m_lt : m < 60 := by omega
        rcases sign with rfl | rfl | rfl
        · exact ⟨.east ⟨h, h_lt⟩ ⟨m, m_lt⟩, rfl, by simp [Zone.chars]⟩
        · exact ⟨.west true ⟨h, h_lt⟩ ⟨m, m_lt⟩, rfl, by simp [Zone.chars]⟩
        · exact ⟨.west false ⟨h, h_lt⟩ ⟨m, m_lt⟩, rfl, by simp [Zone.chars]⟩
      · cases reads

end Accepting

/-- What can be read is the text of a spelling. -/
theorem exists_spelling {cs : List Char} {f : Fields} (reads : fields? cs = some f) :
    ∃ w : Spelling, cs = w.chars ∧ f = w.fields := by
  obtain ⟨⟨y, _⟩, year, reads⟩ := Option.bind_eq_some_iff.1 reads
  obtain ⟨_, hyphen, reads⟩ := Option.bind_eq_some_iff.1 reads
  obtain ⟨⟨m, _⟩, month, reads⟩ := Option.bind_eq_some_iff.1 reads
  obtain ⟨_, hyphen', reads⟩ := Option.bind_eq_some_iff.1 reads
  obtain ⟨⟨d, _⟩, day, reads⟩ := Option.bind_eq_some_iff.1 reads
  obtain ⟨_, separates, reads⟩ := Option.bind_eq_some_iff.1 reads
  obtain ⟨⟨hh, _⟩, hour, reads⟩ := Option.bind_eq_some_iff.1 reads
  obtain ⟨_, colon, reads⟩ := Option.bind_eq_some_iff.1 reads
  obtain ⟨⟨mm, _⟩, minute, reads⟩ := Option.bind_eq_some_iff.1 reads
  obtain ⟨_, colon', reads⟩ := Option.bind_eq_some_iff.1 reads
  obtain ⟨⟨ss, _⟩, second, reads⟩ := Option.bind_eq_some_iff.1 reads
  obtain ⟨⟨nanos, _⟩, fraction, reads⟩ := Option.bind_eq_some_iff.1 reads
  obtain ⟨⟨ahead, _⟩, zone, reads⟩ := Option.bind_eq_some_iff.1 reads
  obtain ⟨⟨rfl, valid⟩, rfl⟩ := (Option.ite_none_right_eq_some.1 reads).imp_right Option.some.inj
  -- Each part was read from what would be written for it.
  obtain ⟨y, y_lt, rfl, rfl⟩ := number?_eq_some year
  obtain rfl := skip?_beq_eq_some hyphen
  obtain ⟨-, -, rfl⟩ := bounded?_eq_some month
  obtain rfl := skip?_beq_eq_some hyphen'
  obtain ⟨-, -, rfl⟩ := bounded?_eq_some day
  obtain ⟨separator, rfl⟩ := separator_of_skip? separates
  obtain ⟨hh_le, -, rfl⟩ := bounded?_eq_some hour
  obtain rfl := skip?_beq_eq_some colon
  obtain ⟨mm_le, -, rfl⟩ := bounded?_eq_some minute
  obtain rfl := skip?_beq_eq_some colon'
  obtain ⟨ss_le, -, rfl⟩ := bounded?_eq_some second
  obtain ⟨ds, rfl, rfl⟩ := fraction?_eq_some fraction
  obtain ⟨z, rfl, rfl⟩ := zone?_eq_some zone
  have year_lt : 10 ^ 4 * 0 + y < 10000 := by omega
  let w : Spelling := {
    date := ⟨10 ^ 4 * 0 + y, m, d⟩, valid, year_lt, separator, hour := ⟨hh, by omega⟩
    minute := ⟨mm, by omega⟩, second := ⟨ss, by omega⟩, fraction := ds, zone := z }
  exact ⟨w, by simp [w, Spelling.chars_eq], rfl⟩

end ChatClient.Rfc3339
