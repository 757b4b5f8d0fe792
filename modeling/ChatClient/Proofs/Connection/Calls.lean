import ChatClient.Connection.Machine
import ChatClient.Proofs.Connection.Doubling
import Mathlib.Data.List.Induction

/-!
# The machine under any calls

Whoever holds the machine may call it in any order. A call can be late, it can come twice, and it
can come when no connection is wanted. One that does not fit the state changes nothing and asks for
nothing, so that the calls that count can be told by the actions that they return.

The machine counts the failures, and nobody sees the count. It can be told from outside all the
same: it is the number of retries that were asked for since a connection was last opened or given
up. In between it only grows, and so do the waits.

## Main definitions

* `Machine.Call`, `Machine.answer`: the calls, and what the machine does then
* `Machine.trace`: a run of the machine, call by call
* `Machine.Answers`: all that the machine can do when it is called
* `retries`: how many retries were asked for since the last one that succeeded or was given up

## Main results

* `answer_answers`: every call is answered in one of these ways
* `attempts_trace`: the hidden count is the number of retries
* `delays_trace`: the waits between two renewals
* `trace_regular`: what holds of every run
-/

namespace ChatClient

/-- The number that `n` failures give to the next one. There is a largest number. -/
def attemptNumber (n : Nat) : UInt32 := UInt32.ofNat (min n (UInt32.size - 1))

/-- The number of an attempt is right as long as there are numbers. -/
theorem toNat_attemptNumber (n : Nat) : (attemptNumber n).toNat = min n (UInt32.size - 1) :=
  UInt32.toNat_ofNat_of_lt' (Nat.lt_of_le_of_lt (Nat.min_le_right _ _) (by decide))

/-- The next attempt has the next number, or the last one that there is. -/
theorem nextAttempt_attemptNumber (n : Nat) :
    nextAttempt (attemptNumber n) = attemptNumber (n + 1) := by
  apply UInt32.toNat_inj.1
  have number := toNat_attemptNumber n
  rw [nextAttempt, toNat_attemptNumber (n + 1)]
  split
  · next more =>
    rw [UInt32.toNat_add]
    simp only [number, UInt32.size, UInt32.reduceToNat] at more ⊢
    omega
  · next last =>
    simp only [number, UInt32.size] at last ⊢
    omega

private theorem le_nextAttempt (n : UInt32) : n ≤ nextAttempt n := by
  rw [UInt32.le_iff_toNat_le, nextAttempt]
  split
  · next more =>
    rw [UInt32.toNat_add]
    simp only [UInt32.size, UInt32.reduceToNat] at more ⊢
    omega
  · exact Nat.le_refl _

/-- A count of what has happened since the count was last begun anew. -/
theorem countP_since_concat {α : Type} (renews counts : α → Bool) (as : List α) (a : α) :
    ((as ++ [a]).reverse.takeWhile fun a => !renews a).countP counts =
      if renews a then 0
      else (as.reverse.takeWhile fun a => !renews a).countP counts + (counts a).toNat := by
  rw [List.reverse_append, List.reverse_singleton, List.singleton_append]
  cases renewed : renews a with
  | true => simp [renewed]
  | false => cases counted : counts a <;> simp [renewed, counted]

namespace Machine

/-! ## One call -/

/-- What the machine can be told. -/
inductive Call
  | start | opened | closed | timerElapsed | teardown
  deriving DecidableEq, Repr

variable (m : Machine)

/-- The machine after a call, with the action that it asks for. -/
def answer : Call → Machine × Option ConnectionAction
  | .start => m.start
  | .opened => m.opened
  | .closed => m.closed
  | .timerElapsed => m.timerElapsed
  | .teardown => (m.teardown, none)

/-- A connection is attempted or open. -/
def busy : Bool := m.state == .connecting || m.state == .open

/-- The machine after a failure. -/
def failed : Machine :=
  { m with state := .reconnecting m.attempts, attempts := nextAttempt m.attempts }

/-- A machine that connects or is open counts the failure and asks for another attempt. -/
theorem closed_of_busy {m : Machine} (h : m.busy = true) :
    m.closed = (m.failed, some (.scheduleReconnect m.attempts (m.backoff.delay m.attempts))) := by
  unfold closed
  split
  · rfl
  · rfl
  · simp_all [busy]

/-- Any other machine takes no notice of it. -/
theorem closed_of_not_busy {m : Machine} (h : m.busy = false) : m.closed = (m, none) := by
  unfold closed
  split <;> simp_all [busy]

/-- All that the machine can do when it is called: the call with the action that it returns and the
machine afterwards. -/
inductive Answers (m : Machine) : Call → Option ConnectionAction → Machine → Prop
  /-- The call does not fit. -/
  | ignore (c : Call) (other : c ≠ .teardown) : Answers m c none m
  | start (idle : m.state = .idle) :
      Answers m .start (some .connect) { m with state := .connecting }
  | opened (connecting : m.state = .connecting) :
      Answers m .opened (some .flushQueue) { m with state := .open, attempts := 0 }
  | closed (busy : m.busy = true) :
      Answers m .closed (some (.scheduleReconnect m.attempts (m.backoff.delay m.attempts))) m.failed
  | timerElapsed (attempt : UInt32) (reconnecting : m.state = .reconnecting attempt) :
      Answers m .timerElapsed (some .connect) { m with state := .connecting }
  | teardown : Answers m .teardown none m.teardown

/-- All that can come of a call is told by `Answers`. -/
theorem answer_answers (c : Call) : m.Answers c (m.answer c).2 (m.answer c).1 := by
  -- Each call is heeded in certain states and ignored in all others.
  cases c with
  | start =>
    rw [answer, Machine.start]
    split
    · next idle => exact .start idle
    · exact .ignore .start (by decide)
  | opened =>
    rw [answer, Machine.opened]
    split
    · next connecting => exact .opened connecting
    · exact .ignore .opened (by decide)
  | closed =>
    cases busy : m.busy with
    | true =>
      rw [answer, closed_of_busy busy]
      exact .closed busy
    | false =>
      rw [answer, closed_of_not_busy busy]
      exact .ignore .closed (by decide)
  | timerElapsed =>
    rw [answer, Machine.timerElapsed]
    split
    · next attempt reconnecting => exact .timerElapsed attempt reconnecting
    · exact .ignore .timerElapsed (by decide)
  | teardown => exact .teardown

/-! ## Runs -/

/-- A call with the action that was returned, and the machine before and after it. -/
structure Response where
  call : Call
  before : Machine
  action : Option ConnectionAction
  after : Machine

/-- What the machine does when it is called. -/
def respond (c : Call) : Response := ⟨c, m, (m.answer c).2, (m.answer c).1⟩

/-- The machine after calls one after the other. -/
def after (cs : List Call) : Machine := cs.foldl (fun m c => (m.answer c).1) m

/-- What the machine does when it is called again and again. -/
def trace : Machine → List Call → List Response
  | _, [] => []
  | m, c :: cs => m.respond c :: trace (m.answer c).1 cs

@[simp] theorem after_nil : m.after [] = m := rfl

@[simp] theorem after_cons (c : Call) (cs : List Call) :
    m.after (c :: cs) = (m.answer c).1.after cs := rfl

@[simp] theorem after_append (cs cs' : List Call) : m.after (cs ++ cs') = (m.after cs).after cs' :=
  List.foldl_append

@[simp] theorem trace_nil : m.trace [] = [] := rfl

@[simp] theorem trace_cons (c : Call) (cs : List Call) :
    m.trace (c :: cs) = m.respond c :: (m.answer c).1.trace cs := rfl

/-- The trace of calls is made up of the traces of its stretches. -/
theorem trace_append (cs cs' : List Call) :
    m.trace (cs ++ cs') = m.trace cs ++ (m.after cs).trace cs' := by
  induction cs generalizing m with
  | nil => rfl
  | cons c cs ih => rw [List.cons_append, trace_cons, ih, trace_cons, after_cons, List.cons_append]

/-- A part of a run is a run of the machine as it stands there. -/
theorem exists_of_trace_eq_append {cs : List Call} {past future : List Response}
    (split : m.trace cs = past ++ future) :
    ∃ cs' cs'', m.trace cs' = past ∧ (m.after cs').trace cs'' = future := by
  -- The past is taken off call by call, and the machine varies with it.
  induction past generalizing m cs with
  | nil => exact ⟨[], cs, rfl, split⟩
  | cons r past ih =>
    cases cs with
    | nil => contradiction
    | cons c cs =>
      rw [trace_cons, List.cons_append, List.cons.injEq] at split
      obtain ⟨rfl, split⟩ := split
      obtain ⟨cs', cs'', rfl, rfl⟩ := ih _ split
      exact ⟨c :: cs', cs'', rfl, rfl⟩

/-- The first call of a run with those that follow it. -/
theorem exists_of_trace_eq_cons {cs : List Call} {r : Response} {future : List Response}
    (split : m.trace cs = r :: future) :
    ∃ c cs', m.respond c = r ∧ (m.answer c).1.trace cs' = future := by
  cases cs with
  | nil => contradiction
  | cons c cs =>
    rw [trace_cons, List.cons.injEq] at split
    exact ⟨c, cs, split.1, split.2⟩

private theorem exists_of_mem_trace {cs : List Call} {r : Response} (mem : r ∈ m.trace cs) :
    ∃ cs' c, (m.after cs').respond c = r := by
  induction cs generalizing m with
  | nil => contradiction
  | cons c cs ih =>
    rcases List.mem_cons.1 mem with rfl | later
    · exact ⟨[], c, rfl⟩
    · obtain ⟨cs', c', same⟩ := ih _ later
      exact ⟨c :: cs', c', same⟩

/-! ## What one call may do -/

private theorem isSome_action_respond_iff {c : Call} (other : c ≠ .teardown) :
    (m.respond c).action.isSome = true ↔ (m.respond c).after.state ≠ m.state := by
  have answers := m.answer_answers c
  rw [respond]
  generalize (m.answer c).1 = m' at answers ⊢
  generalize (m.answer c).2 = action at answers ⊢
  cases answers with
  | ignore => simp
  | start idle => simp [idle]
  | opened connecting => simp [connecting]
  | closed busy =>
    -- A machine that waits is not busy, so that it has not waited before.
    have waits : m.failed.state ≠ m.state := by
      intro same
      simp [Machine.busy, ← same, failed] at busy
    simpa using waits
  | timerElapsed attempt reconnecting => simp [reconnecting]
  | teardown => contradiction

private theorem after_respond_of_ignored {c : Call} (other : c ≠ .teardown)
    (ignored : (m.respond c).action = none) : (m.respond c).after = m := by
  have answers := m.answer_answers c
  rw [respond] at ignored ⊢
  generalize (m.answer c).1 = m' at answers ⊢
  generalize (m.answer c).2 = action at answers ignored
  cases answers with
  | ignore => rfl
  | teardown => contradiction
  | _ => simp at ignored

/-- A retry is asked for with the count so far and with the wait that belongs to it. -/
theorem eq_of_action_respond {c : Call} {attempt : UInt32} {delay : Nat}
    (asked : (m.respond c).action = some (.scheduleReconnect attempt delay)) :
    attempt = m.attempts ∧ delay = m.backoff.delay m.attempts ∧
      (m.respond c).after.state = .reconnecting m.attempts := by
  have answers := m.answer_answers c
  rw [respond] at asked ⊢
  generalize (m.answer c).1 = m' at answers ⊢
  generalize (m.answer c).2 = action at answers asked
  cases answers with
  | closed busy =>
    obtain ⟨rfl, rfl⟩ : m.attempts = attempt ∧ m.backoff.delay m.attempts = delay := by
      simpa using asked
    exact ⟨rfl, rfl, rfl⟩
  | _ => simp at asked

private theorem respond_of_reconnecting {c : Call} {attempt : UInt32}
    (waits : (m.respond c).after.state = .reconnecting attempt) :
    m.state = .reconnecting attempt ∨
      (m.respond c).action = some (.scheduleReconnect attempt (m.backoff.delay attempt)) := by
  have answers := m.answer_answers c
  rw [respond] at waits ⊢
  generalize (m.answer c).1 = m' at answers waits
  generalize (m.answer c).2 = action at answers ⊢
  cases answers with
  | ignore => exact .inl waits
  | closed busy =>
    obtain rfl : m.attempts = attempt := by simpa [failed] using waits
    exact .inr rfl
  | _ => simp [Machine.teardown] at waits

/-- Only a start wakes a machine that rests. -/
theorem answer_of_idle {m : Machine} (idle : m.state = .idle) {c : Call} (other : c ≠ .start) :
    (m.answer c).2 = none ∧ (m.answer c).1.state = .idle := by
  have answers := m.answer_answers c
  generalize (m.answer c).1 = m' at answers ⊢
  generalize (m.answer c).2 = action at answers ⊢
  cases answers with
  | ignore => exact ⟨rfl, idle⟩
  | start => contradiction
  | opened connecting => simp [idle] at connecting
  | closed busy => simp [Machine.busy, idle] at busy
  | timerElapsed attempt reconnecting => simp [idle] at reconnecting
  | teardown => exact ⟨rfl, rfl⟩

/-! ## What the actions tell -/

namespace Response

variable (r : Response)

/-- The connection was opened or given up. -/
def renews : Bool := r.call == .teardown || (r.call == .opened && r.action.isSome)

/-- The wait before the retry that is asked for. -/
def delay? : Option Nat :=
  match r.action with
  | some (.scheduleReconnect _ delay) => some delay
  | _ => none

/-- A retry is asked for. -/
def schedules : Bool := r.delay?.isSome

end Response

/-- How many retries were asked for since a connection was last opened or given up. -/
def retries (rs : List Response) : Nat :=
  (rs.reverse.takeWhile fun r => !r.renews).countP Response.schedules

/-- The last response ends the row of retries or makes it longer. -/
theorem retries_concat (past : List Response) (r : Response) :
    retries (past ++ [r]) = if r.renews then 0 else retries past + r.schedules.toNat :=
  countP_since_concat Response.renews Response.schedules past r

/-- A call that does not fit is no renewal. A teardown always is. -/
theorem renews_of_ignored {c : Call} (other : c ≠ .teardown) :
    (⟨c, m, none, m⟩ : Response).renews = false := by
  simp [Response.renews, other]

/-- The action of a call leaves the count alone, is a failure more, or begins it anew. -/
theorem attempts_answer {m : Machine} {past : List Response}
    (counted : m.attempts = attemptNumber (retries past)) (c : Call) :
    (m.answer c).1.attempts = attemptNumber (retries (past ++ [m.respond c])) := by
  rw [retries_concat, respond]
  have answers := m.answer_answers c
  generalize (m.answer c).1 = m' at answers ⊢
  generalize (m.answer c).2 = action at answers ⊢
  cases answers with
  | ignore c other =>
    rw [m.renews_of_ignored other]
    exact counted
  | start => exact counted
  | opened => rfl
  | closed =>
    -- The number is used up, and the next failure has the next one.
    change nextAttempt m.attempts = attemptNumber (retries past + 1)
    rw [counted, nextAttempt_attemptNumber]
  | timerElapsed => exact counted
  | teardown => rfl

private theorem backoff_answer (c : Call) : (m.answer c).1.backoff = m.backoff := by
  have answers := m.answer_answers c
  generalize (m.answer c).1 = m' at answers ⊢
  generalize (m.answer c).2 = action at answers
  cases answers <;> rfl

private theorem backoff_after (cs : List Call) : (m.after cs).backoff = m.backoff := by
  induction cs generalizing m with
  | nil => rfl
  | cons c cs ih => rw [after_cons, ih, backoff_answer]

/-- The count that nobody sees is the number of retries that everybody sees. -/
theorem attempts_trace (b : Backoff) (cs : List Call) :
    (after { backoff := b } cs).attempts = attemptNumber (retries (trace { backoff := b } cs)) := by
  -- On the last call, since what came before it is what is counted.
  induction cs using List.reverseRecOn with
  | nil => rfl
  | append_singleton cs c ih =>
    rw [after_append, trace_append]
    exact attempts_answer ih c

/-! ## Between two renewals -/

/-- As long as the count is not begun anew, a call either asks for a retry with the next number or
leaves the count alone. -/
theorem delay?_respond (c : Call) (goesOn : (m.respond c).renews = false) :
    ((m.respond c).delay? = none ∧ (m.answer c).1.attempts = m.attempts) ∨
      ((m.respond c).delay? = some (m.backoff.delay m.attempts) ∧
        (m.answer c).1.attempts = nextAttempt m.attempts) := by
  rw [respond] at goesOn ⊢
  have answers := m.answer_answers c
  generalize (m.answer c).1 = m' at answers goesOn ⊢
  generalize (m.answer c).2 = action at answers goesOn ⊢
  cases answers with
  | ignore => exact .inl ⟨rfl, rfl⟩
  | start => exact .inl ⟨rfl, rfl⟩
  | opened => contradiction
  | closed => exact .inr ⟨rfl, rfl⟩
  | timerElapsed => exact .inl ⟨rfl, rfl⟩
  | teardown => contradiction

/-- The waits that are asked for never get shorter, and never longer than the limit. -/
theorem delays_trace {m : Machine} {cs : List Call} (goesOn : ∀ r ∈ m.trace cs, r.renews = false) :
    ((m.trace cs).filterMap Response.delay?).Pairwise (· ≤ ·) ∧
      ∀ d ∈ (m.trace cs).filterMap Response.delay?,
        m.backoff.delay m.attempts ≤ d ∧ d ≤ m.backoff.limit := by
  induction cs generalizing m with
  | nil => simp
  | cons c cs ih =>
    rw [trace_cons, List.forall_mem_cons] at goesOn
    obtain ⟨later, within⟩ := ih goesOn.2
    rw [backoff_answer] at within
    rcases m.delay?_respond c goesOn.1 with ⟨none_, same⟩ | ⟨first, next⟩
    · rw [same] at within
      rw [trace_cons, List.filterMap_cons_none none_]
      exact ⟨later, within⟩
    · -- The later retries have larger numbers, and so their waits are no shorter.
      have grows : m.backoff.delay m.attempts ≤ m.backoff.delay (nextAttempt m.attempts) :=
        m.backoff.delay_mono (le_nextAttempt m.attempts)
      rw [next] at within
      have longer : ∀ d ∈ ((m.answer c).1.trace cs).filterMap Response.delay?,
          m.backoff.delay m.attempts ≤ d ∧ d ≤ m.backoff.limit := by
        intro d mem
        exact ⟨Nat.le_trans grows (within d mem).1, (within d mem).2⟩
      rw [trace_cons, List.filterMap_cons_some first, List.pairwise_cons, List.forall_mem_cons]
      exact ⟨⟨fun d mem => (longer d mem).1, later⟩,
        ⟨Nat.le_refl _, m.backoff.delay_le m.attempts⟩, longer⟩

/-- A machine that rests goes on resting until it is started. -/
theorem trace_of_idle {m : Machine} (idle : m.state = .idle) {cs : List Call}
    (unstarted : ∀ r ∈ m.trace cs, r.call ≠ .start) :
    ∀ r ∈ m.trace cs, r.action = none ∧ r.after.state = .idle := by
  induction cs generalizing m with
  | nil => simp
  | cons c cs ih =>
    rw [trace_cons, List.forall_mem_cons] at unstarted
    have first := answer_of_idle idle unstarted.1
    rw [trace_cons, List.forall_mem_cons]
    exact ⟨first, ih first.2 unstarted.2⟩

/-! ## Every run -/

/-- What holds of a run of a machine with the given waits. -/
structure Regular (b : Backoff) (rs : List Response) : Prop where
  /-- An action is asked for exactly if the state changes. -/
  action_iff : ∀ r ∈ rs, r.call ≠ .teardown →
    (r.action.isSome = true ↔ r.after.state ≠ r.before.state)
  /-- A call that asks for nothing has changed nothing, hidden or not. -/
  ignored : ∀ r ∈ rs, r.call ≠ .teardown → r.action = none → r.after = r.before
  /-- After a teardown the machine rests. -/
  torn : ∀ r ∈ rs, r.call = .teardown → r.action = none ∧ r.after.state = .idle
  /-- A retry has the number of the retries before it, and the machine waits with that number. -/
  numbered : ∀ past r future attempt delay, rs = past ++ r :: future →
    r.action = some (.scheduleReconnect attempt delay) →
      attempt.toNat = min (retries past) (2 ^ 32 - 1) ∧ delay = b.delay attempt ∧
        r.after.state = .reconnecting attempt
  /-- The machine waits for no retry that it has not asked for. -/
  scheduled : ∀ r ∈ rs, ∀ attempt, r.after.state = .reconnecting attempt →
    r.before.state = .reconnecting attempt ∨
      r.action = some (.scheduleReconnect attempt (b.delay attempt))
  /-- Between two renewals the waits never get shorter, and none is longer than the limit. -/
  slowing : ∀ past between future, rs = past ++ (between ++ future) →
    (∀ r ∈ between, r.renews = false) →
      (between.filterMap Response.delay?).Pairwise (· ≤ ·) ∧
        ∀ d ∈ between.filterMap Response.delay?, d ≤ b.limit
  /-- After a teardown nothing happens until the next start. -/
  resting : ∀ past r rest future, rs = past ++ r :: (rest ++ future) → r.call = .teardown →
    (∀ r' ∈ rest, r'.call ≠ .start) → ∀ r' ∈ rest, r'.action = none ∧ r'.after.state = .idle

/-- Whatever the waits are and in whatever order the machine is called: an action is asked for
exactly if the state changes, retries are numbered by those before them since the last success or
teardown, their waits only grow until then, and after a teardown the machine rests until it is
started. -/
theorem trace_regular (b : Backoff) (cs : List Call) : Regular b (trace { backoff := b } cs) where
  action_iff r mem other := by
    obtain ⟨cs', c, rfl⟩ := exists_of_mem_trace _ mem
    exact isSome_action_respond_iff _ other
  ignored r mem other nothing := by
    obtain ⟨cs', c, rfl⟩ := exists_of_mem_trace _ mem
    exact after_respond_of_ignored _ other nothing
  torn r mem teardown := by
    obtain ⟨cs', c, rfl⟩ := exists_of_mem_trace _ mem
    obtain rfl : c = .teardown := teardown
    exact ⟨rfl, rfl⟩
  numbered past r future attempt delay split asked := by
    -- The retry is asked for by the machine as it stands after the past.
    obtain ⟨cs', cs'', rfl, now⟩ := exists_of_trace_eq_append _ split
    obtain ⟨c, -, rfl, -⟩ := exists_of_trace_eq_cons _ now
    obtain ⟨rfl, rfl, state⟩ := eq_of_action_respond _ asked
    refine ⟨?_, by rw [backoff_after], state⟩
    rw [attempts_trace]
    exact toNat_attemptNumber _
  scheduled r mem attempt waits := by
    obtain ⟨cs', c, rfl⟩ := exists_of_mem_trace _ mem
    have asked := respond_of_reconnecting _ waits
    rwa [backoff_after] at asked
  slowing past between future split goesOn := by
    -- What is in between is a run of its own, of a machine with some number.
    obtain ⟨cs', cs'', rfl, now⟩ := exists_of_trace_eq_append _ split
    obtain ⟨cs₁, cs₂, rfl, -⟩ := exists_of_trace_eq_append _ now
    obtain ⟨longer, within⟩ := delays_trace goesOn
    rw [backoff_after] at within
    exact ⟨longer, fun d mem => (within d mem).2⟩
  resting past r rest future split teardown unstarted := by
    obtain ⟨cs', cs'', rfl, now⟩ := exists_of_trace_eq_append _ split
    obtain ⟨c, cs₁, rfl, later⟩ := exists_of_trace_eq_cons _ now
    obtain ⟨cs₂, cs₃, rfl, -⟩ := exists_of_trace_eq_append _ later
    obtain rfl : c = .teardown := teardown
    exact trace_of_idle rfl unstarted

end Machine

end ChatClient
