import ChatClient.Proofs.Connection.Calls
import ChatClient.Session.Client
import ChatClient.Terminal.Display

/-!
# The numbers of retries

A connection that is lost is attempted again, and each time the user is told with which number, on
the screen and in the log. The machine counts from zero and both count from one, so that both add
one to the number that they are given.

The machine never counts beyond its last number, which it then gives to every further retry. Those
who add one to it do not know that it is the last one, and break down.

## Main definitions

* `Display.retryLine`, `Client.retryNote`: what tells of a retry with a number
* `Machine.failing`: the calls of a connection that never opens

## Main results

* `waits_trace`: the number that the machine waits with is told by the retries so far
* `after_failing`: every number is come to, the last one included
* `told_iff`: for how many retries the numbers are told
-/

namespace ChatClient

/-- The line on the screen that tells of a retry. -/
def Display.retryLine (room : RoomId) (n : Nat) : String :=
  "\n* [" ++ room.text ++ "] " ++ ("connection lost, retry #" ++ toString n ++ " scheduled") ++ "\n"

/-- The line in the log that tells of a retry. -/
def Client.retryNote (delay n : Nat) : String :=
  "Reconnecting in " ++ toString delay ++ " ms (attempt " ++ toString n ++ ")"

private theorem ordinal_of_lt {attempt : UInt32} (fits : attempt.toNat + 1 < 2 ^ 32) :
    ∃ number, ordinal attempt = .ok number ∧ number.toNat = attempt.toNat + 1 := by
  refine ⟨attempt + 1, if_pos fits, ?_⟩
  rw [UInt32.toNat_add, UInt32.toNat_one, Nat.mod_eq_of_lt fits]

private theorem ordinal_of_le {attempt : UInt32} (last : 2 ^ 32 ≤ attempt.toNat + 1) :
    ordinal attempt = .error {} :=
  if_neg (Nat.not_lt.2 last)

/-- The screen tells of a retry by its ordinal number, and breaks down if there is none. -/
theorem Display.connection_reconnecting (attempt : UInt32) (room : RoomId) :
    connection (.reconnecting attempt) room =
      (ordinal attempt).map fun number => retryLine room number.toNat := by
  rw [connection, status]
  cases ordinal attempt <;> rfl

/-- So does the log. -/
theorem Client.note?_scheduleReconnect (attempt : UInt32) (delay : Nat) :
    note? (.scheduleReconnect attempt delay) =
      (ordinal attempt).map fun number => some (retryNote delay number.toNat) := by
  rw [note?]
  cases ordinal attempt <;> rfl

namespace Machine

/-! ## What the machine waits with -/

variable {m : Machine} {past : List Response}

private theorem waits_answer (counted : m.attempts = attemptNumber (retries past))
    (waits : ∀ attempt, m.state = .reconnecting attempt →
      ∃ k, retries past = k + 1 ∧ attempt = attemptNumber k) (c : Call) :
    ∀ attempt, (m.answer c).1.state = .reconnecting attempt →
      ∃ k, retries (past ++ [m.respond c]) = k + 1 ∧ attempt = attemptNumber k := by
  rw [retries_concat, respond]
  have answers := m.answer_answers c
  generalize (m.answer c).1 = m' at answers ⊢
  generalize (m.answer c).2 = action at answers ⊢
  intro attempt reconnecting
  cases answers with
  | ignore c other =>
    rw [m.renews_of_ignored other]
    exact waits attempt reconnecting
  | closed busy =>
    -- This retry counts from now on, and its number is that of those before it.
    obtain rfl : m.attempts = attempt := by simpa [failed] using reconnecting
    exact ⟨retries past, rfl, counted⟩
  | _ => simp [teardown] at reconnecting

/-- A machine that waits has asked for a retry, and waits with the number of those before it. -/
theorem waits_trace (b : Backoff) (cs : List Call) :
    ∀ attempt, (after { backoff := b } cs).state = .reconnecting attempt →
      ∃ k, retries (trace { backoff := b } cs) = k + 1 ∧ attempt = attemptNumber k := by
  induction cs using List.reverseRecOn with
  | nil => simp
  | append_singleton cs c ih =>
    rw [after_append, trace_append]
    exact waits_answer (attempts_trace b cs) ih c

/-! ## Which numbers are come to -/

/-- A connection is attempted, fails, and fails again as often as this. -/
def failing : Nat → List Call
  | 0 => [.start, .closed]
  | n + 1 => failing n ++ [.timerElapsed, .closed]

/-- A machine that only fails counts its failures, as far as there are numbers for them. -/
theorem after_failing (b : Backoff) (n : Nat) :
    after { backoff := b } (failing n) =
      { state := .reconnecting (attemptNumber n),
        attempts := attemptNumber (n + 1), backoff := b } := by
  induction n with
  | zero => rfl
  | succ n ih =>
    rw [failing, after_append, ih, ← nextAttempt_attemptNumber (n + 1)]
    rfl

private theorem retries_failing (b : Backoff) (n : Nat) :
    retries (trace { backoff := b } (failing n)) = n + 1 := by
  induction n with
  | zero => rfl
  | succ n ih =>
    have split : trace { backoff := b } (failing (n + 1)) =
        trace { backoff := b } (failing n) ++
          [(after { backoff := b } (failing n)).respond .timerElapsed] ++
          [(after { backoff := b } (failing n ++ [.timerElapsed])).respond .closed] := by
      rw [failing, trace_append, after_append, List.append_assoc]
      rfl
    rw [split, retries_concat, retries_concat, ih, after_append, after_failing]
    rfl

/-! ## What is told -/

/-- Whatever calls have led to the wait for a retry: as long as there were fewer than `2 ^ 32` of
them since the connection was last open, the screen and the log tell the number of the attempt,
counted from one. Afterwards there is no such number, and both break down. -/
theorem told_iff (b : Backoff) (cs : List Call) (attempt : UInt32)
    (waits : (after { backoff := b } cs).state = .reconnecting attempt) (room : RoomId)
    (delay : Nat) :
    attempt.toNat = min (retries (trace { backoff := b } cs) - 1) (2 ^ 32 - 1) ∧
      (Display.connection (.reconnecting attempt) room =
          .ok (Display.retryLine room (attempt.toNat + 1)) ↔
        retries (trace { backoff := b } cs) < 2 ^ 32) ∧
      (Client.note? (.scheduleReconnect attempt delay) =
          .ok (some (Client.retryNote delay (attempt.toNat + 1))) ↔
        retries (trace { backoff := b } cs) < 2 ^ 32) ∧
      (2 ^ 32 ≤ retries (trace { backoff := b } cs) →
        Display.connection (.reconnecting attempt) room = .error {} ∧
          Client.note? (.scheduleReconnect attempt delay) = .error {}) := by
  obtain ⟨k, asked, rfl⟩ := waits_trace b cs attempt waits
  have number : (attemptNumber k).toNat = min k (2 ^ 32 - 1) := toNat_attemptNumber k
  rw [asked, Display.connection_reconnecting, Client.note?_scheduleReconnect]
  refine ⟨by omega, ?_⟩
  -- The number shown is one more than the one kept, which may have reached its greatest value.
  by_cases few : k + 1 < 2 ^ 32
  · have fits : (attemptNumber k).toNat + 1 < 2 ^ 32 := by omega
    obtain ⟨told, is_told, next⟩ := ordinal_of_lt fits
    rw [is_told, ← next]
    exact ⟨⟨fun _ => few, fun _ => rfl⟩, ⟨fun _ => few, fun _ => rfl⟩, fun many => by omega⟩
  · rw [ordinal_of_le (by omega)]
    exact ⟨⟨nofun, fun fewer => by omega⟩, ⟨nofun, fun fewer => by omega⟩, fun _ => ⟨rfl, rfl⟩⟩

end Machine

/-! ### A detour

The server of a room is gone for good, and nobody closes the client. -/

namespace Detour

def pantry : RoomId := ⟨"pantry", by decide⟩

end Detour

theorem told_iff_detour :
    (Machine.after { backoff := {} } (Machine.failing 4294967294)).state =
        .reconnecting 4294967294 ∧
      Display.connection (.reconnecting 4294967294) Detour.pantry =
        .ok (Display.retryLine Detour.pantry 4294967295) := by
  have waits : (Machine.after { backoff := {} } (Machine.failing 4294967294)).state =
      .reconnecting 4294967294 := by
    rw [Machine.after_failing]
    rfl
  obtain ⟨-, shown, -⟩ :=
    Machine.told_iff {} (Machine.failing 4294967294) _ waits Detour.pantry 30000
  refine ⟨waits, shown.2 ?_⟩
  rw [Machine.retries_failing]
  decide

/-- One failure more, and neither the screen nor the log can tell of the next retry. -/
theorem breaks_down_detour :
    (Machine.after { backoff := {} } (Machine.failing 4294967295)).state =
        .reconnecting 4294967295 ∧
      Display.connection (.reconnecting 4294967295) Detour.pantry = .error {} ∧
      Client.note? (.scheduleReconnect 4294967295 30000) = .error {} := by
  have waits : (Machine.after { backoff := {} } (Machine.failing 4294967295)).state =
      .reconnecting 4294967295 := by
    rw [Machine.after_failing]
    rfl
  exact ⟨waits, by decide, by decide⟩

end ChatClient
