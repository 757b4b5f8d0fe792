import ChatClient.Proofs.Connection.Calls
import ChatClient.Proofs.Session.Standing
import Mathlib.Tactic.Common

/-!
# The pace of a connection

A connection goes from one milestone to the next: an attempt is made, it succeeds or fails, the link
is lost, the session is left. Between two milestones neither the machine nor the timer changes,
whatever is said or heard.

Nothing here is about the invariants of a client. What a step does to the machine and the timer is
decided by where the client stands, so that all this holds in every run, however long.

## Main definitions

* `Milestone`, `Client.milestones`
* `Client.Paces`: all that can become of the machine and the timer in a step, with its milestones

## Main results

* `step_paces`: every step paces
-/

namespace ChatClient

/-- What marks the course of a connection, with the time where it matters. -/
inductive Milestone
  /-- The session has ended. -/
  | left
  | attempt (time : Nat)
  | opened
  /-- An attempt has failed, or the link was lost. -/
  | failure (time : Nat)
  deriving DecidableEq

namespace Client

variable (c : Client)

/-- The oldest outcome, if it is of this session. -/
def current? : Option Outcome :=
  c.outcomes.head?.filter fun o => o.epoch == c.epoch

/-- The client has taken all texts from its link, and the link has ended. -/
def findsEnd : Bool :=
  c.reading?.isNone && c.currentLink?.any Link.ended

/-- The attempt of the session is found to have opened a link. -/
def findsLink : Happening → Bool
  | .turn .outcome => !c.stopped && c.current?.any fun o => o.link.isSome
  | _ => false

/-- The attempt of the session is found to have been refused, or its link to have ended. -/
def findsFailure : Happening → Bool
  | .turn .outcome => !c.stopped && c.current?.any fun o => o.link.isNone
  | .turn .listen => !c.stopped && c.findsEnd
  | _ => false

/-- The attempt of the session succeeds. The machine only takes notice while it connects, which it
does whenever a link is found unless two sessions have the same number (`succeeds_eq`). -/
def succeeds (h : Happening) : Bool := c.findsLink h && c.machine.state == .connecting

/-- The attempt of the session fails, or the connection is lost. Here too the machine has to take
notice (`fails_eq`). -/
def fails (h : Happening) : Bool := c.findsFailure h && c.machine.busy

/-- The attempts that are started when this happens. -/
def begun (h : Happening) : List Attempt :=
  (c.step h).attempts.drop c.attempts.length

/-- The milestones that are reached when this happens. -/
def milestones (h : Happening) : List Milestone :=
  (if c.leaves h then [.left] else []) ++ (if c.succeeds h then [.opened] else []) ++
    (if c.fails h then [.failure c.now] else []) ++ (c.begun h).map fun a => .attempt a.startedAt

/-- All that can become of the machine and the timer in a step, with the milestones of the step. -/
inductive Paces (c c' : Client) : List Milestone → Prop
  | keep (machine : c'.machine = c.machine) (timer : c'.timer = c.timer) : Paces c c' []
  | leave (machine : c'.machine = c.machine.teardown) (timer : c'.timer = none) : Paces c c' [.left]
  | enter (machine : c'.machine = { c.machine.teardown with state := .connecting })
      (timer : c'.timer = none) : Paces c c' [.left, .attempt c.now]
  | succeed (connecting : c.machine.state = .connecting)
      (machine : c'.machine = { c.machine with state := .open, attempts := 0 })
      (timer : c'.timer = c.timer) : Paces c c' [.opened]
  | fail (machine : c'.machine = c.machine.failed)
      (timer : c'.timer = some (c.now + c.machine.backoff.delay c.machine.attempts)) :
      Paces c c' [.failure c.now]
  | retry (due : Nat) (armed : c.timer = some due) (elapsed : due ≤ c.now)
      (machine : c'.machine = { c.machine with state := .connecting }) (timer : c'.timer = none) :
      Paces c c' [.attempt c.now]
  /-- The timer goes off and no attempt is made, for want of a room or because none is due. -/
  | lapse (machine : c'.machine = c.machine ∨ c'.machine = { c.machine with state := .connecting })
      (timer : c'.timer = none) : Paces c c' []

private theorem begun_eq_nil {h : Happening}
    (same : (c.step h).attempts.length = c.attempts.length) :
    c.begun h = [] :=
  List.drop_eq_nil_of_le (Nat.le_of_eq same)

private theorem begun_eq_singleton {h : Happening} {as : List Attempt} {a : Attempt}
    (attempts : (c.step h).attempts = as ++ [a]) (same : as.length = c.attempts.length) :
    c.begun h = [a] := by
  rw [begun, attempts, ← same, List.drop_left]

/-- A step without milestones. -/
theorem milestones_eq_nil {h : Happening} (leaves : c.leaves h = false)
    (succeeds : c.succeeds h = false) (fails : c.fails h = false)
    (same : (c.step h).attempts.length = c.attempts.length) :
    c.milestones h = [] := by
  simp [milestones, leaves, succeeds, fails, c.begun_eq_nil same]

/-! ## Steps that only talk -/

variable {c}

/-- A step that leaves the standing as it is. -/
theorem paces_of_standing_eq {h : Happening} (leaves : c.leaves h = false)
    (succeeds : c.succeeds h = false) (fails : c.fails h = false)
    (same : (c.step h).standing = c.standing) : c.Paces (c.step h) (c.milestones h) := by
  rw [c.milestones_eq_nil leaves succeeds fails (congrArg (fun s => s.attempts.length) same)]
  exact .keep (congrArg Standing.machine same) (congrArg Standing.timer same)

private theorem length_attempts_settle (i : Nat) (h : Handshake) :
    (c.step (.settle i h)).attempts.length = c.attempts.length := by
  have settled : (c.toNetwork.settleLate i h).attempts.length = c.attempts.length := by
    rw [Network.settleLate]
    split
    · split
      · rfl
      · cases h <;> exact List.length_set ..
    · rfl
  have dropped (n : Network) : n.dropOutcomes.attempts = n.attempts :=
    congrArg Standing.attempts (standing_dropOutcomes { c with toNetwork := n })
  change (if c.stopped then _ else _ : Network).attempts.length = _
  split
  · rw [dropped]
    exact settled
  · exact settled

private theorem paces_settle (i : Nat) (h : Handshake) :
    c.Paces (c.step (.settle i h)) (c.milestones (.settle i h)) := by
  rw [c.milestones_eq_nil rfl rfl rfl (length_attempts_settle i h)]
  exact .keep rfl rfl

/-! ## Commands -/

section Running

variable (running : c.stopped = false)
include running

private theorem paces_select (room : Option RoomId) :
    c.Paces (c.step (.turn (.command (.select room))))
      (c.milestones (.turn (.command (.select room)))) := by
  have after : c.step (.turn (.command (.select room))) = c.select room := step_of_running running _
  have leaves : c.leaves (.turn (.command (.select room))) = !c.stays room := by
    simp [Client.leaves, running]
  -- A room that is selected again changes nothing. Otherwise the session ends, and another begins
  -- if there is a room.
  cases stays : c.stays room with
  | true =>
    have same : c.select room = c := by rw [select, if_pos stays]
    exact paces_of_standing_eq (by rw [leaves, stays]; rfl) rfl rfl (by rw [after, same])
  | false =>
    rw [stays] at leaves
    cases room with
    | none =>
      have standing := c.standing_select_none stays
      rw [← after] at standing
      have length :
          (c.step (.turn (.command (.select none)))).attempts.length = c.attempts.length :=
        (congrArg (fun s => s.attempts.length) standing).trans Standing.length_withdrawn
      have marks : c.milestones (.turn (.command (.select none))) = [.left] := by
        simp [milestones, leaves, succeeds, findsLink, fails, findsFailure, c.begun_eq_nil length]
      rw [marks]
      exact .leave (congrArg Standing.machine standing) (congrArg Standing.timer standing)
    | some room =>
      have standing := c.standing_select_some stays
      rw [← after] at standing
      have begun :=
        c.begun_eq_singleton (congrArg Standing.attempts standing) Standing.length_withdrawn
      have marks :
          c.milestones (.turn (.command (.select (some room)))) = [.left, .attempt c.now] := by
        simp [milestones, leaves, succeeds, findsLink, fails, findsFailure, begun, attempt]
      rw [marks]
      exact .enter (congrArg Standing.machine standing) (congrArg Standing.timer standing)

private theorem paces_shutdown :
    c.Paces (c.step (.turn (.command .shutdown))) (c.milestones (.turn (.command .shutdown))) := by
  have after : c.step (.turn (.command .shutdown)) = c.shutdown := step_of_running running _
  have standing := c.standing_shutdown
  rw [← after] at standing
  have leaves : c.leaves (.turn (.command .shutdown)) = true := by simp [Client.leaves, running]
  have length : (c.step (.turn (.command .shutdown))).attempts.length = c.attempts.length :=
    (congrArg (fun s => s.attempts.length) standing).trans Standing.length_withdrawn
  have marks : c.milestones (.turn (.command .shutdown)) = [.left] := by
    simp [milestones, leaves, succeeds, findsLink, fails, findsFailure, c.begun_eq_nil length]
  rw [marks]
  exact .leave (congrArg Standing.machine standing) (congrArg Standing.timer standing)

end Running

/-! ## Outcomes -/

/-- A failure that finds the machine busy. -/
theorem paces_failure {h : Happening} (leaves : c.leaves h = false)
    (succeeds : c.succeeds h = false) (fails : c.fails h = true)
    (machine : (c.step h).machine = c.machine.failed)
    (timer : (c.step h).timer = some (c.now + c.machine.backoff.delay c.machine.attempts))
    (attempts : (c.step h).attempts = c.attempts) : c.Paces (c.step h) (c.milestones h) := by
  have marks : c.milestones h = [.failure c.now] := by
    simp [milestones, leaves, succeeds, fails, c.begun_eq_nil (congrArg List.length attempts)]
  rw [marks]
  exact .fail machine timer

section Outcomes

variable (running : c.stopped = false) {o : Outcome} {os : List Outcome}
  (queued : c.outcomes = o :: os)
include running queued

/-- The oldest outcome is the one that is looked at. -/
theorem step_outcome_eq :
    c.step (.turn .outcome) = { c with outcomes := os }.handleOutcome o := by
  have after : c.step (.turn .outcome) = c.outcome?.getD c := step_of_running running _
  rw [after, outcome?, queued]
  rfl

private theorem paces_accepted (epoch : o.epoch = c.epoch) {i : Nat} (link : o.link = some i) :
    c.Paces (c.step (.turn .outcome)) (c.milestones (.turn .outcome)) := by
  have handled := step_outcome_eq running queued
  have current : c.current? = some o := by simp [current?, queued, epoch]
  have fails : c.fails (.turn .outcome) = false := by simp [fails, findsFailure, current, link]
  by_cases connecting : c.machine.state = .connecting
  · have standing := standing_handleOutcome_opened { c with outcomes := os } epoch link connecting
    rw [← handled] at standing
    have same : (c.step (.turn .outcome)).attempts = c.attempts :=
      congrArg Standing.attempts standing
    have marks : c.milestones (.turn .outcome) = [.opened] := by
      simp [milestones, Client.leaves, succeeds, findsLink, fails, running,
        connecting, current, link, c.begun_eq_nil (congrArg List.length same)]
    rw [marks]
    exact .succeed connecting (congrArg Standing.machine standing)
      (congrArg Standing.timer standing)
  -- The link comes into use, and the machine takes no notice.
  · have succeeds : c.succeeds (.turn .outcome) = false := by simp [succeeds, findsLink, connecting]
    rw [handleOutcome, if_pos epoch, link] at handled
    simp only [announce, Machine.opened_of_ne connecting, execute] at handled
    rw [c.milestones_eq_nil rfl succeeds fails (by rw [handled]; rfl)]
    exact .keep (by rw [handled]; rfl) (by rw [handled]; rfl)

private theorem paces_refused (epoch : o.epoch = c.epoch) (link : o.link = none) :
    c.Paces (c.step (.turn .outcome)) (c.milestones (.turn .outcome)) := by
  have handled := step_outcome_eq running queued
  rw [handleOutcome, if_pos epoch, link] at handled
  have current : c.current? = some o := by simp [current?, queued, epoch]
  have succeeds : c.succeeds (.turn .outcome) = false := by
    simp [succeeds, findsLink, current, link]
  cases busy : c.machine.busy with
  | true =>
    have fails : c.fails (.turn .outcome) = true := by
      simp [fails, findsFailure, running, busy, current, link]
    simp only [announce, Machine.closed_of_busy busy, execute] at handled
    exact paces_failure rfl succeeds fails (by rw [handled]; rfl) (by rw [handled]; rfl)
      (by rw [handled]; rfl)
  | false =>
    have fails : c.fails (.turn .outcome) = false := by simp [fails, findsFailure, busy]
    simp only [announce, Machine.closed_of_not_busy busy, execute] at handled
    rw [c.milestones_eq_nil rfl succeeds fails (by rw [handled]; rfl)]
    exact .keep (by rw [handled]; rfl) (by rw [handled]; rfl)

private theorem paces_stale (epoch : o.epoch ≠ c.epoch) :
    c.Paces (c.step (.turn .outcome)) (c.milestones (.turn .outcome)) := by
  have standing := standing_handleOutcome_old { c with outcomes := os } epoch
  rw [← step_outcome_eq running queued] at standing
  have nothing : c.current? = none := by simp [current?, queued, epoch]
  rw [c.milestones_eq_nil rfl (by simp [succeeds, findsLink, nothing])
    (by simp [fails, findsFailure, nothing])
    (congrArg (fun s => s.attempts.length) standing)]
  exact .keep (congrArg Standing.machine standing) (congrArg Standing.timer standing)

end Outcomes

private theorem paces_outcome (running : c.stopped = false) :
    c.Paces (c.step (.turn .outcome)) (c.milestones (.turn .outcome)) := by
  cases queued : c.outcomes with
  | nil =>
    have same : c.step (.turn .outcome) = c := by
      have after : c.step (.turn .outcome) = c.outcome?.getD c := step_of_running running _
      rw [after, outcome?, queued]
      rfl
    have nothing : c.current? = none := by rw [current?, queued]; rfl
    exact paces_of_standing_eq rfl (by simp [succeeds, findsLink, nothing])
      (by simp [fails, findsFailure, nothing])
      (by rw [same])
  | cons o os =>
    by_cases epoch : o.epoch = c.epoch
    · cases link : o.link with
      | some i => exact paces_accepted running queued epoch link
      | none => exact paces_refused running queued epoch link
    · exact paces_stale running queued epoch

/-! ## The link and the timer -/

section Running

variable (running : c.stopped = false)
include running

/-- The client takes a text, or it finds the end of its link, or nothing happens. -/
theorem step_listen_cases :
    (c.findsEnd = false ∧ (c.step (.turn .listen)).standing = c.standing) ∨
      (c.findsEnd = true ∧ c.step (.turn .listen) = c.handleLinkClosed) := by
  have after : c.step (.turn .listen) = c.listen?.getD c := step_of_running running _
  rw [listen?] at after
  cases next : c.reading? with
  | some r =>
    refine .inl ⟨by simp [findsEnd, next], ?_⟩
    rw [after, next]
    change (handleText _ r.text).standing = _
    rw [standing_handleText, standing_onLink c r.link (f := Link.take) fun _ => rfl]
  | none =>
    rw [next] at after
    -- Without a text it depends on the link whether there is an end to be found.
    cases held : c.currentLink? with
    | none => exact .inl ⟨by simp [findsEnd, held], by rw [after, held]; rfl⟩
    | some l =>
      rw [held] at after
      cases ended : l.ended with
      | false =>
        refine .inl ⟨by simp [findsEnd, held, ended], ?_⟩
        simp only [ended, Bool.false_eq_true, if_false] at after
        rw [after]
        rfl
      | true =>
        refine .inr ⟨by simp [findsEnd, next, held, ended], ?_⟩
        simp only [ended, if_true] at after
        exact after

private theorem paces_listen : c.Paces (c.step (.turn .listen)) (c.milestones (.turn .listen)) := by
  rcases step_listen_cases running with ⟨goesOn, same⟩ | ⟨ended, lost⟩
  · exact paces_of_standing_eq rfl rfl (by simp [fails, findsFailure, goesOn]) same
  · rw [handleLinkClosed] at lost
    cases busy : c.machine.busy with
    | true =>
      have fails : c.fails (.turn .listen) = true := by
        simp [fails, findsFailure, running, busy, ended]
      simp only [proceed, Machine.closed_of_busy busy, execute] at lost
      exact paces_failure rfl rfl fails (by rw [lost]; rfl) (by rw [lost]; rfl) (by rw [lost]; rfl)
    | false =>
      simp only [proceed, Machine.closed_of_not_busy busy, execute] at lost
      rw [c.milestones_eq_nil rfl rfl (by simp [fails, findsFailure, busy]) (by rw [lost]; rfl)]
      exact .keep (by rw [lost]; rfl) (by rw [lost]; rfl)

end Running

/-- The timer goes off. -/
theorem paces_due {due : Nat} (armed : c.timer = some due) (elapsed : due ≤ c.now)
    (after : c.step (.turn .timer) = c.handleTimer) :
    c.Paces (c.step (.turn .timer)) (c.milestones (.turn .timer)) := by
  by_cases reconnecting : ∃ n, c.machine.state = .reconnecting n
  · obtain ⟨n, reconnecting⟩ := reconnecting
    cases active : c.room with
    | some room =>
      have standing := standing_handleTimer c reconnecting active
      rw [← after] at standing
      have begun := c.begun_eq_singleton (congrArg Standing.attempts standing) rfl
      have marks : c.milestones (.turn .timer) = [.attempt c.now] := by
        simp [milestones, Client.leaves, succeeds, findsLink, fails, findsFailure, begun, attempt]
      rw [marks]
      exact .retry due armed elapsed (congrArg Standing.machine standing)
        (congrArg Standing.timer standing)
    | none =>
      rw [handleTimer] at after
      simp only [proceed, Machine.timerElapsed, reconnecting, execute, connect, active] at after
      rw [c.milestones_eq_nil rfl rfl rfl (by rw [after]; rfl)]
      exact .lapse (.inr (by rw [after]; rfl)) (by rw [after]; rfl)
  -- A timer that the machine has forgotten lapses.
  · have still : c.machine.timerElapsed = (c.machine, none) := by
      rw [Machine.timerElapsed]
      split
      · next n h => exact absurd ⟨n, h⟩ reconnecting
      · rfl
    rw [handleTimer] at after
    simp only [proceed, still, execute] at after
    rw [c.milestones_eq_nil rfl rfl rfl (by rw [after]; rfl)]
    exact .lapse (.inl (by rw [after]; rfl)) (by rw [after]; rfl)

private theorem paces_timer (running : c.stopped = false) :
    c.Paces (c.step (.turn .timer)) (c.milestones (.turn .timer)) := by
  have after : c.step (.turn .timer) = c.timer?.getD c := step_of_running running _
  rw [timer?] at after
  cases armed : c.timer with
  | none => exact paces_of_standing_eq rfl rfl rfl (by rw [after, armed]; rfl)
  | some due =>
    rw [armed] at after
    by_cases elapsed : due ≤ c.now
    · simp only [elapsed, if_true] at after
      exact paces_due armed elapsed after
    · simp only [elapsed, if_false] at after
      exact paces_of_standing_eq rfl rfl rfl (by rw [after]; rfl)

/-! ## Every step -/

private theorem paces_of_stopped (stopped : c.stopped = true) (t : Turn) :
    c.Paces (c.step (.turn t)) (c.milestones (.turn t)) := by
  have noLink : c.findsLink (.turn t) = false := by
    unfold findsLink
    split <;> simp [stopped]
  have noFailure : c.findsFailure (.turn t) = false := by
    unfold findsFailure
    split <;> simp [stopped]
  refine paces_of_standing_eq (leaves_of_stopped stopped t) ?_ ?_ ?_
  · simp [succeeds, noLink]
  · simp [fails, noFailure]
  · rw [step_of_stopped stopped]

/-- What a step does to the machine and the timer is told by its milestones. -/
theorem step_paces (c : Client) (h : Happening) : c.Paces (c.step h) (c.milestones h) := by
  cases h with
  | turn t =>
    cases running : c.stopped with
    | true => exact paces_of_stopped running t
    | false =>
      cases t with
      | outcome => exact paces_outcome running
      | listen => exact paces_listen running
      | timer => exact paces_timer running
      | command command =>
        cases command with
        | select room => exact paces_select running room
        | shutdown => exact paces_shutdown running
        | send p =>
          refine paces_of_standing_eq rfl rfl rfl ?_
          rw [step_of_running running]
          exact c.standing_send p
        | typing on =>
          refine paces_of_standing_eq rfl rfl rfl ?_
          rw [step_of_running running]
          exact c.standing_sendTyping on
  | settle i h => exact paces_settle i h
  | push i text => exact paces_of_standing_eq rfl rfl rfl (c.standing_push i text)
  | deafen i => exact paces_of_standing_eq rfl rfl rfl (c.standing_deafen i)
  | hangUp i => exact paces_of_standing_eq rfl rfl rfl (c.standing_hangUp i)
  | pass | clock | disk => exact paces_of_standing_eq rfl rfl rfl rfl

end Client

end ChatClient
