import ChatClient.Proofs.Session.Course
import ChatClient.Proofs.Session.Pace
import ChatClient.Proofs.Session.Setting
import Mathlib.Algebra.Ring.Nat
import Mathlib.Data.List.Induction
import Mathlib.Tactic.Common

/-!
# The schedule of attempts

After a failure the client waits before its next attempt, the longer the more often it has failed
since it was last connected. Here this is read off the milestones of a run alone. The number of a
failure is how many failures there were before it, back to where the session began or the connection
was last open, and it decides how long the pause after it is. The machine counts along and forgets
where it has to (`Timed.attempts`), and what the timer is set to belongs to the last milestone
(`Timed.timer`).

The pauses are kept to the millisecond when everything is handled at the time at which it happens.
That is what `Client.runsPromptly` says of a run: no time passes while something waits to be
handled.

## Main definitions

* `failures`: how many failures count
* `OnSchedule`: when attempts are made
* `Client.runsPromptly`

## Main results

* `timed_step`: a step keeps the timer and the counter in step with the milestones
* `run_punctual`: in every prompt run every attempt is made on schedule
-/

namespace ChatClient

namespace Milestone

def isFailure : Milestone → Bool
  | .failure _ => true
  | _ => false

/-- Failures before do not count any more. -/
def renews : Milestone → Bool
  | .left | .opened => true
  | _ => false

end Milestone

/-- How many failures there were since the session began or the connection was last open. -/
def failures (ms : List Milestone) : Nat :=
  (ms.reverse.takeWhile fun m => !m.renews).countP Milestone.isFailure

private theorem failures_snoc (ms : List Milestone) (m : Milestone) :
    failures (ms ++ [m]) = if m.renews then 0 else failures ms + m.isFailure.toNat :=
  countP_since_concat Milestone.renews Milestone.isFailure ms m

@[simp] theorem failures_left (ms : List Milestone) : failures (ms ++ [.left]) = 0 :=
  failures_snoc ms .left

@[simp] theorem failures_opened (ms : List Milestone) : failures (ms ++ [.opened]) = 0 :=
  failures_snoc ms .opened

@[simp] theorem failures_attempt (ms : List Milestone) (time : Nat) :
    failures (ms ++ [.attempt time]) = failures ms :=
  failures_snoc ms (.attempt time)

@[simp] theorem failures_failure (ms : List Milestone) (time : Nat) :
    failures (ms ++ [.failure time]) = failures ms + 1 :=
  failures_snoc ms (.failure time)

/-- Without failures none are counted. -/
theorem failures_append_of_forall {ms : List Milestone} (none_ : failures ms = 0)
    {more : List Milestone} (h : ∀ m ∈ more, m.isFailure = false) : failures (ms ++ more) = 0 := by
  induction more using List.reverseRecOn with
  | nil => simpa using none_
  | append_singleton more m ih =>
    have before := ih fun m' hm' => h m' (List.mem_append_left _ hm')
    have last := h m (by simp)
    rw [← List.append_assoc, failures_snoc, before, last]
    split <;> rfl

/-- An attempt that is made at a time and fails after another one. -/
def failedAttempt (start took : Nat) : List Milestone := [.attempt start, .failure (start + took)]

/-- Attempts that fail one after the other, each with its time and with how long it takes to
fail. -/
def failedAttempts (tries : List (Nat × Nat)) : List Milestone :=
  tries.flatMap fun t => failedAttempt t.1 t.2

private theorem failedAttempts_snoc (tries : List (Nat × Nat)) (t : Nat × Nat) :
    failedAttempts (tries ++ [t]) =
      failedAttempts tries ++ [.attempt t.1, .failure (t.1 + t.2)] := by
  simp [failedAttempts, failedAttempt]

private theorem failures_failedAttempts (past : List Milestone) (tries : List (Nat × Nat)) :
    failures (past ++ .left :: failedAttempts tries) = tries.length := by
  induction tries using List.reverseRecOn with
  | nil => exact failures_left past
  | append_singleton tries t ih =>
    have split : past ++ .left :: failedAttempts (tries ++ [t]) =
        past ++ .left :: failedAttempts tries ++ [.attempt t.1] ++ [.failure (t.1 + t.2)] := by
      simp [failedAttempts_snoc]
    rw [split, failures_failure, failures_attempt, ih, List.length_append, List.length_singleton]

/-- An attempt is due after what has been so far: it is the first one of its session, or the pause
after the failure before it is over. The number of that failure is how many there were before it,
and `pause n` is how long the client waits after a failure with the number `n`. -/
def IsDue (pause : UInt32 → Nat) (past : List Milestone) (time : Nat) : Prop :=
  past.getLast? = some .left ∨
    ∃ earlier failed, past = earlier ++ [.failure failed] ∧
      time = failed + pause (attemptNumber (failures earlier))

/-- When attempts are made, for such pauses. -/
structure OnSchedule (pause : UInt32 → Nat) (ms : List Milestone) : Prop where
  attempt : ∀ past time later, ms = past ++ .attempt time :: later → IsDue pause past time
  /-- The first failure since the connection was open has the number zero. -/
  afterOpening : ∀ past between failed time later,
    ms = past ++ .opened :: between ++ .failure failed :: .attempt time :: later →
      (∀ m ∈ between, m.isFailure = false) → time = failed + pause 0
  /-- When all attempts of a session have failed, the next one is made after as many pauses as there
  were attempts and after the time that these took. -/
  afterRefusals : ∀ past first took tries time later,
    ms = past ++ .left :: failedAttempts ((first, took) :: tries) ++ .attempt time :: later →
      time = first + took + (tries.map Prod.snd).sum +
        ((List.range (tries.length + 1)).map fun n => pause (attemptNumber n)).sum

/-- All else follows from when an attempt is made after a failure. -/
theorem OnSchedule.of_attempt {pause : UInt32 → Nat} {ms : List Milestone}
    (attempt : ∀ past time later, ms = past ++ .attempt time :: later → IsDue pause past time) :
    OnSchedule pause ms := by
  have afterFailure : ∀ earlier failed time later,
      ms = earlier ++ .failure failed :: .attempt time :: later →
        time = failed + pause (attemptNumber (failures earlier)) := by
    intro earlier failed time later split
    rcases attempt (earlier ++ [.failure failed]) time later (by simp [split]) with first | again
    · simp at first
    · obtain ⟨earlier', failed', same, paused⟩ := again
      obtain ⟨rfl, last⟩ := List.append_inj' same rfl
      obtain rfl : failed = failed' := by simpa using last
      exact paused
  refine ⟨attempt, ?_, ?_⟩
  · intro past between failed time later split calm
    have none_ : failures (past ++ .opened :: between) = 0 := by
      have fresh := failures_append_of_forall (failures_opened past) calm
      simpa using fresh
    have paused := afterFailure (past ++ .opened :: between) failed time later (by simp [split])
    rwa [none_] at paused
  -- One failed attempt after the other, from the last one back to the first one.
  · intro past first took tries
    induction tries using List.reverseRecOn with
    | nil =>
      intro time later split
      have paused := afterFailure (past ++ [.left, .attempt first]) (first + took) time later
        (by simp [split, failedAttempts, failedAttempt])
      have none_ : failures (past ++ [.left, .attempt first]) = 0 := by
        have fresh := (failures_attempt (past ++ [.left]) first).trans (failures_left past)
        simpa using fresh
      rw [none_] at paused
      simpa using paused
    | append_singleton tries t ih =>
      intro time later split
      have shape : ms = past ++ .left :: failedAttempts ((first, took) :: tries) ++
          .attempt t.1 :: .failure (t.1 + t.2) :: .attempt time :: later := by
        rw [split, ← List.cons_append, failedAttempts_snoc]
        simp
      have start := ih t.1 (.failure (t.1 + t.2) :: .attempt time :: later) shape
      have paused := afterFailure
        (past ++ .left :: failedAttempts ((first, took) :: tries) ++ [.attempt t.1])
        (t.1 + t.2) time later (by simp [shape])
      rw [failures_attempt, failures_failedAttempts, List.length_cons] at paused
      rw [paused, start, List.length_append, List.length_singleton,
        List.range_succ (n := tries.length + 1)]
      simp only [List.map_append, List.sum_append, List.map_cons, List.map_nil, List.sum_cons,
        List.sum_nil]
      omega

namespace Client

variable (c : Client)

/-! ## Time -/

/-- There is nothing to handle now, and no wait is over before so much time has passed. -/
def restsFor (ms : Nat) : Bool :=
  c.outcomes.isEmpty && c.listen?.isNone && c.timer.all (c.now + ms ≤ ·)

/-- No time passes while something waits to be handled. -/
def runsPromptly : Client → List Happening → Bool
  | _, [] => true
  | c, h :: hs => (passes h == 0 || c.restsFor (passes h)) && runsPromptly (c.step h) hs

/-! ## The timer and the counter -/

/-- The counter and the timer agree with the milestones so far. -/
structure Timed (backoff : Backoff) (ms : List Milestone) (c : Client) : Prop where
  backoff_eq : c.machine.backoff = backoff
  attempts : c.machine.attempts = attemptNumber (failures ms)
  waits : ∀ due, c.timer = some due → ∃ n, c.machine.state = .reconnecting n
  timer : ∀ due, c.timer = some due → c.now ≤ due ∧
    ∃ earlier failed, ms = earlier ++ [.failure failed] ∧
      due = failed + backoff.delay (attemptNumber (failures earlier))

variable {c} {backoff : Backoff} {ms : List Milestone}

private theorem Timed.of_timer_none {c' : Client} (backoff_eq : c'.machine.backoff = backoff)
    (attempts : c'.machine.attempts = attemptNumber (failures ms)) (timer : c'.timer = none) :
    c'.Timed backoff ms where
  backoff_eq
  attempts
  waits due armed := by simp [timer] at armed
  timer due armed := by simp [timer] at armed

/-- No wait is overslept, and where the timer is set no time passes. -/
theorem Timed.of_paces {c' : Client} {new : List Milestone} (t : c.Timed backoff ms)
    (paces : c.Paces c' new) (awake : ∀ due, c.timer = some due → c'.now ≤ due)
    (still : c'.now = c.now ∨ c'.timer = c.timer) : c'.Timed backoff (ms ++ new) := by
  cases paces with
  | keep machine timer =>
    rw [List.append_nil]
    exact ⟨by rw [machine, t.backoff_eq], by rw [machine, t.attempts],
      fun due armed => by rw [machine]; exact t.waits due (timer ▸ armed),
      fun due armed => ⟨awake due (timer ▸ armed), (t.timer due (timer ▸ armed)).2⟩⟩
  | leave machine timer =>
    exact .of_timer_none (by rw [machine]; exact t.backoff_eq)
      (by rw [machine, failures_left]; rfl) timer
  | enter machine timer =>
    have fresh : failures (ms ++ [.left, .attempt c.now]) = 0 := by
      have after := (failures_attempt (ms ++ [.left]) c.now).trans (failures_left ms)
      simpa using after
    exact .of_timer_none (by rw [machine]; exact t.backoff_eq) (by rw [machine, fresh]; rfl) timer
  | succeed connecting machine timer =>
    -- A machine that connects has no timer.
    have unarmed : c.timer = none := by
      cases armed : c.timer with
      | none => rfl
      | some due =>
        obtain ⟨n, waits⟩ := t.waits due armed
        simp [connecting] at waits
    exact .of_timer_none (by rw [machine]; exact t.backoff_eq)
      (by rw [machine, failures_opened]; rfl) (timer.trans unarmed)
  | fail machine timer =>
    refine ⟨by rw [machine]; exact t.backoff_eq, ?_, fun _ _ => ⟨_, by rw [machine]; rfl⟩, ?_⟩
    · rw [machine, failures_failure, ← nextAttempt_attemptNumber, ← t.attempts]
      rfl
    · intro due armed
      obtain rfl : c.now + c.machine.backoff.delay c.machine.attempts = due :=
        Option.some.inj (timer.symm.trans armed)
      refine ⟨?_, ms, c.now, rfl, by rw [t.backoff_eq, t.attempts]⟩
      rcases still with now | same
      · omega
      · exact awake _ (same ▸ armed)
  | retry due armed elapsed machine timer =>
    exact .of_timer_none (by rw [machine]; exact t.backoff_eq)
      (by rw [machine, failures_attempt]; exact t.attempts) timer
  | lapse machine timer =>
    rw [List.append_nil]
    rcases machine with same | connecting
    · exact .of_timer_none (by rw [same, t.backoff_eq]) (by rw [same, t.attempts]) timer
    · exact .of_timer_none (by rw [connecting]; exact t.backoff_eq)
        (by rw [connecting]; exact t.attempts) timer

/-- A step that comes in time keeps the timer right. -/
theorem timed_step (t : c.Timed backoff ms) (h : Happening)
    (prompt : passes h = 0 ∨ c.restsFor (passes h) = true) :
    (c.step h).Timed backoff (ms ++ c.milestones h) := by
  refine t.of_paces (c.step_paces h) ?_ ?_
  · intro due armed
    rw [now_step]
    rcases prompt with still | rests
    · rw [still]
      exact (t.timer due armed).1
    · simp only [restsFor, armed, Option.all_some, Bool.and_eq_true, decide_eq_true_eq] at rests
      exact rests.2
  · cases h with
    | pass ms => exact .inr rfl
    | _ => exact .inl (now_step c _)

/-! ## Along a run -/

/-- An attempt is the first one of its session, or the timer has gone off when it was due. -/
theorem Timed.isDue {c' : Client} {new : List Milestone} (t : c.Timed backoff ms)
    (paces : c.Paces c' new) {past later : List Milestone} {time : Nat}
    (split : new = past ++ .attempt time :: later) : IsDue backoff.delay (ms ++ past) time := by
  cases paces with
  | keep => simp at split
  | leave => simp [List.cons_eq_append_iff] at split
  | enter =>
    rcases past with _ | ⟨m, _ | ⟨m', past⟩⟩ <;> simp at split
    obtain ⟨rfl, -, -⟩ := split
    exact .inl List.getLast?_concat
  | succeed => simp [List.cons_eq_append_iff] at split
  | fail => simp [List.cons_eq_append_iff] at split
  | retry due armed elapsed =>
    rcases past with _ | ⟨m, past⟩ <;> simp at split
    obtain ⟨rfl, -⟩ := split
    obtain ⟨now, earlier, failed, last, paused⟩ := t.timer due armed
    exact .inr ⟨earlier, failed, by rw [List.append_nil, last], by omega⟩
  | lapse => simp at split

private theorem isDue_record (t : c.Timed backoff ms) {hs : List Happening}
    (prompt : c.runsPromptly hs = true) {past later : List Milestone} {time : Nat}
    (split : c.record milestones hs = past ++ .attempt time :: later) :
    IsDue backoff.delay (ms ++ past) time := by
  induction hs generalizing c ms past with
  | nil => simp at split
  | cons h hs ih =>
    simp only [runsPromptly, Bool.and_eq_true, Bool.or_eq_true, beq_iff_eq] at prompt
    rw [record_cons] at split
    -- The attempt is made in the first step or in a later one.
    rcases List.append_eq_append_iff.1 split with ⟨more, here, there⟩ | ⟨more, here, there⟩
    · have due := ih (timed_step t h prompt.1) prompt.2 there
      rwa [here, ← List.append_assoc]
    · cases more with
      | nil =>
        rw [List.nil_append] at there
        rw [List.append_nil] at here
        have split' : (c.step h).record milestones hs = [] ++ .attempt time :: later := there.symm
        have due := ih (timed_step t h prompt.1) prompt.2 split'
        rwa [here, List.append_nil] at due
      | cons m more =>
        obtain ⟨rfl, -⟩ := List.cons.inj there
        exact t.isDue (c.step_paces h) here

private theorem timed_start (profile : Profile) (backoff : Backoff) (outbox : Outbox) (chat : Chat)
    (disk : Disk) (clock : Timestamp) :
    (start profile backoff outbox chat disk clock).Timed backoff [] :=
  .of_timer_none rfl rfl rfl

/-! ## What the machine takes notice of -/

private theorem connecting_of_current (s : c.standing.Sound) (h : c.current?.isSome = true) :
    c.machine.state = .connecting := by
  unfold current? at h
  cases queued : c.outcomes with
  | nil => simp [queued] at h
  | cons o os =>
    have current : o.epoch = c.epoch := by simpa [queued, Option.isSome_filter] using h
    exact s.connecting_of_outcome queued current

/-- A link is only ever found while the machine connects. -/
theorem succeeds_eq (s : c.standing.Sound) (h : Happening) : c.succeeds h = c.findsLink h := by
  cases found : c.findsLink h with
  | false => rw [succeeds, found, Bool.false_and]
  | true =>
    unfold findsLink at found
    split at found
    · rw [Bool.and_eq_true] at found
      have connecting := connecting_of_current s (Option.isSome_of_any found.2)
      simp [succeeds, findsLink, found, connecting]
    · contradiction

/-- A refusal is only found while the machine connects, and the end of a link while it is open. -/
theorem fails_eq (s : c.standing.Sound) (h : Happening) : c.fails h = c.findsFailure h := by
  cases found : c.findsFailure h with
  | false => rw [fails, found, Bool.false_and]
  | true =>
    suffices busy : c.machine.busy = true by rw [fails, found, busy, Bool.and_self]
    unfold findsFailure at found
    -- A refusal, or the end of a link.
    split at found
    · rw [Bool.and_eq_true] at found
      have connecting := connecting_of_current s (Option.isSome_of_any found.2)
      simp [Machine.busy, connecting]
    · simp only [Bool.and_eq_true, findsEnd] at found
      have held : c.link.isSome = true := by
        have link := Option.isSome_of_any found.2.2
        rw [currentLink?] at link
        cases held : c.link with
        | none => simp [held] at link
        | some i => rfl
      have isOpen : c.machine.state = .open := s.open_iff.2 held
      simp [Machine.busy, isOpen]
    · contradiction

/-- How a run keeps to the schedule. -/
structure Punctual (c : Client) (backoff : Backoff) (hs : List Happening) : Prop where
  /-- The pauses are those of the backoff. -/
  onSchedule : OnSchedule backoff.delay (c.record milestones hs)
  /-- With fewer than `2 ^ 64` sessions every link that opens and every failure is a milestone. -/
  complete : c.teardowns hs < 2 ^ 64 → ∀ past h later, hs = past ++ h :: later →
    (c.run past).succeeds h = (c.run past).findsLink h ∧
      (c.run past).fails h = (c.run past).findsFailure h

/-- In every run in which everything is handled at the time at which it happens, however long it is,
every attempt is made on schedule. -/
theorem run_punctual (profile : Profile) (backoff : Backoff) (outbox : Outbox) (chat : Chat)
    (disk : Disk) (clock : Timestamp) (hs : List Happening)
    (prompt : (start profile backoff outbox chat disk clock).runsPromptly hs = true) :
    (start profile backoff outbox chat disk clock).Punctual backoff hs := by
  refine ⟨.of_attempt fun past time later split => ?_, fun bound past h later split => ?_⟩
  · exact isDue_record (timed_start profile backoff outbox chat disk clock) prompt split
  · have sound := sound_run (sound_start profile backoff outbox chat disk clock) past (by
      rw [split, teardowns_append] at bound
      have zero : (start profile backoff outbox chat disk clock).epoch.toNat = 0 := rfl
      omega)
    exact ⟨succeeds_eq sound.1 h, fails_eq sound.1 h⟩

end Client

namespace Detour

/-- The lobby refuses two attempts, then it is connected for a while, and then the link is lost. -/
def pauses : List Happening := [
  .turn (.command (.select (some lobby))), .settle 0 .refused, .turn .outcome, .pass 1000,
  .turn .timer, .settle 1 .refused, .turn .outcome, .pass 700, .pass 1300, .turn .timer,
  .settle 2 (.accepted none), .turn .outcome, .pass 500, .hangUp 0, .turn .listen, .pass 1000,
  .turn .timer]

end Detour

theorem run_punctual_detour :
    Detour.client.runsPromptly Detour.pauses = true ∧
      Detour.client.teardowns Detour.pauses < 2 ^ 64 ∧
      OnSchedule ({} : Backoff).delay [.left, .attempt 0, .failure 0, .attempt 1000, .failure 1000,
        .attempt 3000, .opened, .failure 3500, .attempt 4500] := by
  have prompt : Detour.client.runsPromptly Detour.pauses = true := by decide
  have punctual := Client.run_punctual Detour.profile {} {} .empty {} .epoch Detour.pauses prompt
  exact ⟨prompt, by decide, punctual.onSchedule⟩

end ChatClient
