import ChatClient.Proofs.Session.Standing
import Mathlib.Algebra.Group.Nat.Defs
import Mathlib.Tactic.Common

/-!
# The course of a client

The state of the connection, the link, the timer, the attempt that is waited for and the outcomes
that were not looked at are changed by different events, and outcomes of sessions that were left may
still come in at any time. They agree all the same: which of them exist is decided by the state of
the connection alone.

Two things carry the argument. Attempts, outcomes and links bear the number of their session, and
none of them is ahead of the client, so that a new session starts with nothing of its own
(`Standing.Dated`). And of the current session there is exactly one attempt or outcome on its way
while the client connects, and none otherwise (`Standing.InStep`).

The numbers have 64 bits and come round after `2 ^ 64` sessions. An outcome that has waited for so
long could not be told from a new one, so the results here and in the modules that build on them are
about runs with fewer.

## Main definitions

* `Standing.Dated`, `Standing.InStep`: the invariants
* `Standing.Moves`: all that can become of a standing in one step

## Main results

* `step_moves`: a step of a client is one of these moves
* `sound_run`: the invariants hold along every run with fewer than `2 ^ 64` sessions
* `run_agrees`: the parts of the client agree with the state of its connection
-/

namespace ChatClient

/-- The attempt belongs to the session and has not been settled. -/
def Attempt.isPending (e : UInt64) (a : Attempt) : Bool :=
  a.status != .settled && a.epoch == e

/-- The origin is not ahead of a session, and if it is in it then it is for its room. -/
def Origin.Fits (g : Origin) (epoch : UInt64) (room : Option RoomId) : Prop :=
  g.epoch ≤ epoch ∧ (g.epoch = epoch → room = some g.room)

namespace Standing

/-- How many attempts and outcomes of a session are on their way. -/
def inFlight (s : Standing) (e : UInt64) : Nat :=
  s.attempts.countP (Attempt.isPending e) + s.outcomes.countP (·.epoch == e)

/-- Nothing is ahead of the session, and what belongs to it is for its room. -/
structure Dated (s : Standing) : Prop where
  attempts : ∀ a ∈ s.attempts, a.origin.Fits s.epoch s.room
  origins : ∀ g ∈ s.origins, g.Fits s.epoch s.room
  outcomes_le : ∀ o ∈ s.outcomes, o.epoch ≤ s.epoch
  outcomes_link : ∀ o ∈ s.outcomes, ∀ i, o.link = some i →
    s.origins[i]?.map Origin.epoch = some o.epoch
  link : ∀ i, s.link = some i → s.origins[i]?.map Origin.epoch = some s.epoch

/-- What there is agrees with the state of the connection. -/
structure InStep (s : Standing) : Prop where
  idle_iff : s.machine.state = .idle ↔ s.room = none ∨ s.stopped = true
  connecting_iff : s.machine.state = .connecting ↔ s.pending.isSome = true
  open_iff : s.machine.state = .open ↔ s.link.isSome = true
  reconnecting_iff : (∃ n, s.machine.state = .reconnecting n) ↔ s.timer.isSome = true
  attempts_eq_zero : s.machine.state = .idle ∨ s.machine.state = .open → s.machine.attempts = 0
  inFlight_eq : s.inFlight s.epoch = if s.machine.state = .connecting then 1 else 0
  running : ∀ i a, s.attempts[i]? = some a → a.status = .running →
    s.pending = some i ∧ a.epoch = s.epoch
  outcomes_eq_nil : s.stopped = true → s.outcomes = []
  published_eq : s.published = s.machine.state

structure Sound (s : Standing) : Prop extends Dated s, InStep s

/-- All that can become of a standing when something happens. The flag says whether the session
ends. -/
inductive Moves (s : Standing) : Happening → Bool → Standing → Prop
  | stay (h : Happening) : Moves s h false s
  | part (running : s.stopped = false) :
      Moves s (.turn (.command (.select none))) true { s.torn with room := none }
  | enter (room : RoomId) (a : Attempt) (running : s.stopped = false) (fresh : a.status = .running)
      (epoch : a.epoch = s.epoch + 1) (endpoint : a.endpoint = s.profile.endpoint room) :
      Moves s (.turn (.command (.select (some room)))) true
        ({ s.torn with room := some room }.calling a)
  | stop (running : s.stopped = false) :
      Moves s (.turn (.command .shutdown)) true { s.torn with stopped := true, outcomes := [] }
  | forget (o : Outcome) (os : List Outcome) (oldest : s.outcomes = o :: os)
      (old : o.epoch ≠ s.epoch) : Moves s (.turn .outcome) false { s with outcomes := os }
  | succeed (o : Outcome) (os : List Outcome) (i : Nat) (oldest : s.outcomes = o :: os)
      (current : o.epoch = s.epoch) (link : o.link = some i)
      (connecting : s.machine.state = .connecting) :
      Moves s (.turn .outcome) false ({ s with outcomes := os }.opened i)
  | fail (o : Outcome) (os : List Outcome) (due : Nat) (oldest : s.outcomes = o :: os)
      (current : o.epoch = s.epoch) (link : o.link = none)
      (connecting : s.machine.state = .connecting) :
      Moves s (.turn .outcome) false ({ s with outcomes := os }.waiting due)
  | lose (due : Nat) (open_ : s.machine.state = .open) :
      Moves s (.turn .listen) false (s.waiting due)
  | retry (room : RoomId) (a : Attempt) (n : UInt32)
      (reconnecting : s.machine.state = .reconnecting n) (active : s.room = some room)
      (fresh : a.status = .running) (epoch : a.epoch = s.epoch)
      (endpoint : a.endpoint = s.profile.endpoint room) :
      Moves s (.turn .timer) false ({ s with timer := none }.calling a)
  | settle (i : Nat) (h : Handshake) (a : Attempt) (link : Option Nat) (origins : List Origin)
      (attempt : s.attempts[i]? = some a) (unsettled : a.status ≠ .settled)
      (delivered : (link = none ∧ origins = []) ∨
        (link = some s.origins.length ∧ origins = [a.origin])) :
      Moves s (.settle i h) false { s with
        attempts := s.attempts.set i { a with status := .settled }
        outcomes := if s.stopped then [] else s.outcomes ++ [⟨a.epoch, link⟩]
        origins := s.origins ++ origins }

end Standing

/-! ## The moves keep the invariants -/

/-- A number that is not ahead of the session is behind the next one, unless the numbers come
round. -/
theorem epoch_lt_succ {e f : UInt64} (h : e ≤ f) (bound : f.toNat + 1 < 2 ^ 64) : e < f + 1 := by
  rw [UInt64.le_iff_toNat_le] at h
  rw [UInt64.lt_iff_toNat_lt, UInt64.toNat_add]
  simp only [UInt64.reduceToNat]
  omega

/-- What belongs to a session belongs to none that comes after it. -/
theorem Origin.Fits.later {g : Origin} {e : UInt64} {room : Option RoomId} (fits : g.Fits e room)
    (bound : e.toNat + 1 < 2 ^ 64) (room' : Option RoomId) : g.Fits (e + 1) room' := by
  have lt := epoch_lt_succ fits.1 bound
  exact ⟨UInt64.le_of_lt lt, fun same => absurd same (UInt64.ne_of_lt lt)⟩

namespace Standing

variable {s : Standing}

/-- Giving up an attempt changes neither where it comes from nor whether it was settled. -/
theorem mem_withdrawn {a : Attempt} (h : a ∈ s.withdrawn) :
    ∃ b ∈ s.attempts, a.origin = b.origin := by
  rw [withdrawn] at h
  split at h
  · exact ⟨a, h, rfl⟩
  · next i _ =>
    obtain ⟨j, hj⟩ := List.mem_iff_getElem?.1 h
    rw [List.getElem?_modify] at hj
    obtain ⟨b, hb, rfl⟩ := Option.map_eq_some_iff.1 hj
    refine ⟨b, List.mem_of_getElem? hb, ?_⟩
    split
    · rw [Attempt.abort]
      split <;> rfl
    · rfl

/-- After the attempt that is waited for was given up no attempt runs. -/
theorem InStep.not_running_withdrawn (sound : s.InStep) {a : Attempt} (h : a ∈ s.withdrawn) :
    a.status ≠ .running := by
  intro running
  obtain ⟨j, hj⟩ := List.mem_iff_getElem?.1 h
  rw [withdrawn] at hj
  split at hj
  · next none_ =>
    -- A running attempt would be the one that is waited for, but there is none.
    have pending := (sound.running j a hj running).1
    simp [none_] at pending
  · next i pending =>
    rw [List.getElem?_modify] at hj
    obtain ⟨b, hb, rfl⟩ := Option.map_eq_some_iff.1 hj
    split at running
    -- The attempt that was given up runs no longer, and no other one ran before.
    · rw [Attempt.abort] at running
      split at running
      · simp at running
      · contradiction
    · next ne =>
      have other := (sound.running j b hb running).1
      rw [pending] at other
      exact ne (Option.some.inj other)

private theorem inFlight_eq_zero {e : UInt64} (attempts : ∀ a ∈ s.attempts, a.epoch ≠ e)
    (outcomes : ∀ o ∈ s.outcomes, o.epoch ≠ e) : s.inFlight e = 0 := by
  -- Both sums are counts of what bears the number of the session.
  have h₁ : s.attempts.countP (Attempt.isPending e) = 0 := by
    rw [List.countP_eq_zero]
    intro a ha
    simp [Attempt.isPending, attempts a ha]
  have h₂ : s.outcomes.countP (·.epoch == e) = 0 := by
    rw [List.countP_eq_zero]
    intro o ho
    simp [outcomes o ho]
  rw [inFlight, h₁, h₂]

/-- The next session starts with nothing that is its own, whatever its room. -/
theorem Dated.torn (dated : s.Dated) (bound : s.epoch.toNat + 1 < 2 ^ 64) (room : Option RoomId) :
    Dated { s.torn with room } where
  attempts a ha := by
    obtain ⟨b, hb, same⟩ := mem_withdrawn ha
    rw [same]
    exact (dated.attempts b hb).later bound room
  origins g hg := (dated.origins g hg).later bound room
  outcomes_le o ho := UInt64.le_of_lt (epoch_lt_succ (dated.outcomes_le o ho) bound)
  outcomes_link := dated.outcomes_link
  link i hi := by simp [Standing.torn] at hi

private theorem Dated.inFlight_torn (dated : s.Dated) (bound : s.epoch.toNat + 1 < 2 ^ 64)
    {os : List Outcome} (fewer : ∀ o ∈ os, o ∈ s.outcomes) :
    inFlight { s.torn with outcomes := os } (s.epoch + 1) = 0 := by
  apply inFlight_eq_zero
  · intro a ha
    obtain ⟨b, hb, same⟩ := mem_withdrawn ha
    have epoch : a.epoch = b.epoch := congrArg Origin.epoch same
    rw [epoch]
    exact UInt64.ne_of_lt (epoch_lt_succ (dated.attempts b hb).1 bound)
  · intro o ho
    exact UInt64.ne_of_lt (epoch_lt_succ (dated.outcomes_le o (fewer o ho)) bound)

/-- A new attempt bears the number of the session and is for its room. -/
theorem Dated.calling (dated : s.Dated) {a : Attempt} {room : RoomId} (active : s.room = some room)
    (epoch : a.epoch = s.epoch) (endpoint : a.endpoint.room = room) : (s.calling a).Dated where
  attempts b hb := by
    rcases List.mem_append.1 hb with old | new
    · exact dated.attempts b old
    · rw [List.mem_singleton.1 new]
      exact ⟨by simp [Attempt.origin, epoch, Standing.calling], fun _ => by
        simp [Attempt.origin, endpoint, Standing.calling, active]⟩
  origins := dated.origins
  outcomes_le := dated.outcomes_le
  outcomes_link := dated.outcomes_link
  link := dated.link

/-- An outcome of the channel may be gone. -/
theorem Dated.tail (dated : s.Dated) (os : List Outcome) (fewer : ∀ o ∈ os, o ∈ s.outcomes) :
    Dated { s with outcomes := os } where
  attempts := dated.attempts
  origins := dated.origins
  outcomes_le o ho := dated.outcomes_le o (fewer o ho)
  outcomes_link o ho := dated.outcomes_link o (fewer o ho)
  link := dated.link

/-- A client that waits has nothing that it did not have before. -/
theorem Dated.waiting (dated : s.Dated) (due : Nat) : (s.waiting due).Dated where
  attempts := dated.attempts
  origins := dated.origins
  outcomes_le := dated.outcomes_le
  outcomes_link := dated.outcomes_link
  link i hi := by simp [Standing.waiting] at hi

/-- An outcome bears the number of its attempt, and so does its link. -/
theorem Dated.settled (dated : s.Dated) {i : Nat} {a : Attempt} {link : Option Nat}
    {origins : List Origin} (attempt : s.attempts[i]? = some a)
    (delivered : (link = none ∧ origins = []) ∨
      (link = some s.origins.length ∧ origins = [a.origin])) :
    Dated { s with
      attempts := s.attempts.set i { a with status := .settled }
      outcomes := s.outcomes ++ [⟨a.epoch, link⟩]
      origins := s.origins ++ origins } := by
  have fits : a.origin.Fits s.epoch s.room := dated.attempts a (List.mem_of_getElem? attempt)
  -- Links that there are keep their numbers.
  have kept (j : Nat) (e : UInt64) (h : s.origins[j]?.map Origin.epoch = some e) :
      (s.origins ++ origins)[j]?.map Origin.epoch = some e := by
    obtain ⟨g, hg, same⟩ := Option.map_eq_some_iff.1 h
    rw [List.getElem?_append_left (List.getElem?_eq_some_iff.1 hg).1, hg, Option.map_some, same]
  refine ⟨?_, ?_, ?_, ?_, ?_⟩
  -- Only the status of the attempt changes, and the new link comes from where the attempt was made.
  · intro b hb
    rcases List.mem_or_eq_of_mem_set hb with old | rfl
    · exact dated.attempts b old
    · exact fits
  · intro g hg
    rcases List.mem_append.1 hg with old | new
    · exact dated.origins g old
    · rcases delivered with ⟨-, rfl⟩ | ⟨-, rfl⟩
      · simp at new
      · rw [List.mem_singleton.1 new]
        exact fits
  · intro o ho
    rcases List.mem_append.1 ho with old | new
    · exact dated.outcomes_le o old
    · rw [List.mem_singleton.1 new]
      exact fits.1
  · intro o ho j hj
    rcases List.mem_append.1 ho with old | new
    · exact kept j o.epoch (dated.outcomes_link o old j hj)
    · rw [List.mem_singleton.1 new] at hj ⊢
      rcases delivered with ⟨rfl, -⟩ | ⟨rfl, rfl⟩
      · simp at hj
      · obtain rfl := Option.some.inj hj
        simp [Attempt.origin]
  · intro j hj
    exact kept j s.epoch (dated.link j hj)

private theorem Moves.dated {h : Happening} {ends : Bool} {s' : Standing}
    (moves : s.Moves h ends s') (dated : s.Dated)
    (bound : s.epoch.toNat + ends.toNat < 2 ^ 64) : s'.Dated := by
  cases moves with
  | stay => exact dated
  | part => exact dated.torn bound none
  | enter room a _ _ epoch endpoint =>
    exact (dated.torn bound (some room)).calling rfl epoch (by rw [endpoint]; rfl)
  | stop =>
    have torn := (dated.torn bound s.room).tail [] (by simp)
    exact ⟨torn.attempts, torn.origins, torn.outcomes_le, torn.outcomes_link, torn.link⟩
  | forget o os oldest => exact dated.tail os fun o ho => by simp [oldest, ho]
  | succeed o os i oldest current link =>
    have rest := dated.tail os fun o ho => by simp [oldest, ho]
    -- The link of the outcome bears the number of the outcome, which is that of the session.
    refine ⟨rest.attempts, rest.origins, rest.outcomes_le, rest.outcomes_link, ?_⟩
    intro j hj
    obtain rfl := Option.some.inj hj
    have here := dated.outcomes_link o (by simp [oldest]) i link
    rw [current] at here
    exact here
  | fail o os due oldest =>
    exact (dated.tail os fun o ho => by simp [oldest, ho]).waiting due
  | lose due => exact dated.waiting due
  | retry room a n _ active _ epoch endpoint =>
    have still : Dated { s with timer := none } :=
      ⟨dated.attempts, dated.origins, dated.outcomes_le, dated.outcomes_link, dated.link⟩
    exact still.calling active epoch (by rw [endpoint]; rfl)
  | settle i h a link origins attempt _ delivered =>
    have after := dated.settled attempt delivered
    split
    · exact after.tail [] (by simp)
    · exact after

/-- An attempt begins where there is no link, no timer, and nothing on its way. -/
theorem inStep_calling {a : Attempt} {room : RoomId} (active : s.room = some room)
    (going : s.stopped = false) (link : s.link = none) (timer : s.timer = none)
    (still : ∀ b ∈ s.attempts, b.status ≠ .running) (quiet : s.inFlight s.epoch = 0)
    (fresh : a.status = .running) (epoch : a.epoch = s.epoch) : (s.calling a).InStep where
  idle_iff := by simp [calling, active, going]
  connecting_iff := by simp [calling]
  open_iff := by simp [calling, link]
  reconnecting_iff := by simp [calling, timer]
  attempts_eq_zero := by simp [calling]
  inFlight_eq := by
    have counted : (s.calling a).inFlight s.epoch = s.inFlight s.epoch + 1 := by
      simp only [inFlight, calling, List.countP_append, List.countP_singleton]
      simp [Attempt.isPending, fresh, epoch]
      omega
    change (s.calling a).inFlight s.epoch = 1
    rw [counted, quiet]
  running i b hb running := by
    simp only [calling, List.getElem?_append] at hb ⊢
    split at hb
    · exact absurd running (still b (List.mem_of_getElem? hb))
    · next outside =>
      -- Only the last one runs.
      have last : i - s.attempts.length = 0 := by
        by_contra beyond
        rw [List.getElem?_eq_none (by simp; omega)] at hb
        simp at hb
      rw [last] at hb
      obtain rfl := Option.some.inj hb
      exact ⟨congrArg some (by omega), epoch⟩
  outcomes_eq_nil := by simp [calling, going]
  published_eq := rfl

/-- A link opens where there is a room but no timer, and nothing on its way. -/
theorem inStep_opened (active : s.room ≠ none) (going : s.stopped = false) (timer : s.timer = none)
    (still : ∀ b ∈ s.attempts, b.status ≠ .running) (quiet : s.inFlight s.epoch = 0) (i : Nat) :
    (s.opened i).InStep where
  idle_iff := by simp [opened, active, going]
  connecting_iff := by simp [opened]
  open_iff := by simp [opened]
  reconnecting_iff := by simp [opened, timer]
  attempts_eq_zero _ := rfl
  inFlight_eq := quiet
  running j a ha running := absurd running (still a (List.mem_of_getElem? ha))
  outcomes_eq_nil := by simp [opened, going]
  published_eq := rfl

/-- A wait begins where there is a room, and nothing on its way. -/
theorem inStep_waiting (active : s.room ≠ none) (going : s.stopped = false)
    (still : ∀ b ∈ s.attempts, b.status ≠ .running) (quiet : s.inFlight s.epoch = 0) (due : Nat) :
    (s.waiting due).InStep where
  idle_iff := by simp [waiting, active, going]
  connecting_iff := by simp [waiting]
  open_iff := by simp [waiting]
  reconnecting_iff := by simp [waiting]
  attempts_eq_zero := by simp [waiting]
  inFlight_eq := quiet
  running j a ha running := absurd running (still a (List.mem_of_getElem? ha))
  outcomes_eq_nil := by simp [waiting, going]
  published_eq := rfl

/-! ### What there is, told by the state of the connection -/

/-- A client whose connection is not idle has a room and has not stopped. -/
theorem InStep.going (sound : s.InStep) (busy : s.machine.state ≠ .idle) :
    s.room ≠ none ∧ s.stopped = false := by
  obtain ⟨active, going⟩ := not_or.1 (sound.idle_iff.not.1 busy)
  exact ⟨active, by simpa using going⟩

private theorem InStep.pending_eq_none (sound : s.InStep) (other : s.machine.state ≠ .connecting) :
    s.pending = none := by
  simpa using sound.connecting_iff.not.1 other

/-- Only an open connection has a link. -/
theorem InStep.link_eq_none (sound : s.InStep) (other : s.machine.state ≠ .open) :
    s.link = none := by
  simpa using sound.open_iff.not.1 other

/-- Only a client that waits for its next attempt has a timer. -/
theorem InStep.timer_eq_none (sound : s.InStep) (other : ∀ n, s.machine.state ≠ .reconnecting n) :
    s.timer = none := by
  simpa using sound.reconnecting_iff.not.1 fun ⟨n, waits⟩ => other n waits

private theorem InStep.inFlight_eq_zero (sound : s.InStep) (other : s.machine.state ≠ .connecting) :
    s.inFlight s.epoch = 0 :=
  sound.inFlight_eq.trans (if_neg other)

/-- Without the attempt that is waited for nothing of the session is on its way. -/
theorem InStep.not_running (sound : s.InStep) (quiet : s.pending = none) {a : Attempt}
    (h : a ∈ s.attempts) : a.status ≠ .running := by
  intro running
  obtain ⟨i, hi⟩ := List.mem_iff_getElem?.1 h
  have pending := (sound.running i a hi running).1
  simp [quiet] at pending

/-- When the outcome that is waited for has come, nothing else of the session is on its way. -/
theorem Sound.arrived (sound : s.Sound) {o : Outcome} {os : List Outcome}
    (oldest : s.outcomes = o :: os) (current : o.epoch = s.epoch) :
    inFlight { s with outcomes := os } s.epoch = 0 ∧ ∀ a ∈ s.attempts, a.status ≠ .running := by
  -- The outcome is counted, and there is at most one, so that nothing else is.
  have counted : s.inFlight s.epoch = inFlight { s with outcomes := os } s.epoch + 1 := by
    simp [inFlight, oldest, current]
    omega
  have atMost : s.inFlight s.epoch ≤ 1 := by
    rw [sound.inFlight_eq]
    split <;> omega
  have none_ : inFlight { s with outcomes := os } s.epoch = 0 := by omega
  refine ⟨none_, fun a ha running => ?_⟩
  obtain ⟨i, hi⟩ := List.mem_iff_getElem?.1 ha
  have epoch := (sound.running i a hi running).2
  have uncounted : s.attempts.countP (Attempt.isPending s.epoch) = 0 := by
    simp only [inFlight] at none_
    omega
  rw [List.countP_eq_zero] at uncounted
  exact uncounted a ha (by simp [Attempt.isPending, running, epoch])

/-- An attempt that is settled is on its way as an outcome. -/
theorem inFlight_settled {i : Nat} {a : Attempt} (attempt : s.attempts[i]? = some a)
    (unsettled : a.status ≠ .settled) (link : Option Nat) (e : UInt64) :
    inFlight { s with
      attempts := s.attempts.set i { a with status := .settled }
      outcomes := s.outcomes ++ [⟨a.epoch, link⟩] } e = s.inFlight e := by
  obtain ⟨hi, rfl⟩ := List.getElem?_eq_some_iff.1 attempt
  have before : Attempt.isPending e s.attempts[i] = (s.attempts[i].epoch == e) := by
    simp [Attempt.isPending, unsettled]
  -- What the first count loses the second one gains.
  have counted : (s.attempts[i].epoch == e) = true →
      0 < s.attempts.countP (Attempt.isPending e) := fun current =>
    List.countP_pos_iff.2 ⟨_, List.getElem_mem hi, before.trans current⟩
  simp only [inFlight, List.countP_set hi, List.countP_append, List.countP_singleton, before]
  by_cases current : (s.attempts[i].epoch == e) = true
  · have positive := counted current
    simp only [current, if_true, Attempt.isPending]
    simp
    omega
  · simp [current, Attempt.isPending]

/-- An attempt that is settled goes on as an outcome, so that nothing is lost on the way. -/
theorem InStep.settled (sound : s.InStep) {i : Nat} {a : Attempt} {link : Option Nat}
    (attempt : s.attempts[i]? = some a) (unsettled : a.status ≠ .settled) (origins : List Origin) :
    InStep { s with
      attempts := s.attempts.set i { a with status := .settled }
      outcomes := if s.stopped then [] else s.outcomes ++ [⟨a.epoch, link⟩]
      origins := s.origins ++ origins } := by
  refine ⟨sound.idle_iff, sound.connecting_iff, sound.open_iff, sound.reconnecting_iff,
    sound.attempts_eq_zero, ?_, ?_, fun stopped => if_pos stopped, sound.published_eq⟩
  · have same := (inFlight_settled attempt unsettled link s.epoch).trans sound.inFlight_eq
    cases stopped : s.stopped with
    | false => exact same
    | true =>
      -- Nothing is on its way in a client that has stopped, so that nothing is lost with its
      -- outcomes.
      have idle : s.machine.state = .idle := sound.idle_iff.2 (.inr stopped)
      rw [idle] at same
      simp only [inFlight, idle] at same ⊢
      simp at same ⊢
      exact same.1
  · intro j b hb running
    rw [List.getElem?_set] at hb
    split at hb
    · split at hb
      · obtain rfl := Option.some.inj hb
        simp at running
      · simp at hb
    · exact sound.running j b hb running

/-- An outcome of the session is the one that is waited for. -/
theorem Sound.connecting_of_outcome (sound : s.Sound) {o : Outcome} {os : List Outcome}
    (oldest : s.outcomes = o :: os) (current : o.epoch = s.epoch) :
    s.machine.state = .connecting := by
  by_contra other
  have none_ := sound.inFlight_eq.trans (if_neg other)
  simp [inFlight, oldest, current] at none_

/-- An outcome of an earlier session is not missed. -/
theorem InStep.forget (sound : s.InStep) {o : Outcome} {os : List Outcome}
    (oldest : s.outcomes = o :: os) (old : o.epoch ≠ s.epoch) :
    InStep { s with outcomes := os } := by
  refine ⟨sound.idle_iff, sound.connecting_iff, sound.open_iff, sound.reconnecting_iff,
    sound.attempts_eq_zero, ?_, sound.running, fun stopped => ?_, sound.published_eq⟩
  · have same : inFlight { s with outcomes := os } s.epoch = s.inFlight s.epoch := by
      simp [inFlight, oldest, old]
    exact same.trans sound.inFlight_eq
  · have none_ := sound.outcomes_eq_nil stopped
    rw [oldest] at none_
    contradiction

/-- Where a session ends and none begins, everything is at rest. -/
theorem Sound.inStep_torn (sound : s.Sound) (bound : s.epoch.toNat + 1 < 2 ^ 64)
    {room : Option RoomId} {stopped : Bool} {os : List Outcome}
    (resting : room = none ∨ stopped = true) (fewer : ∀ o ∈ os, o ∈ s.outcomes)
    (dropped : stopped = true → os = []) :
    InStep { s.torn with room := room, stopped := stopped, outcomes := os } where
  idle_iff := by simp [torn, Machine.teardown, resting]
  connecting_iff := by simp [torn, Machine.teardown]
  open_iff := by simp [torn, Machine.teardown]
  reconnecting_iff := by simp [torn, Machine.teardown]
  attempts_eq_zero _ := rfl
  inFlight_eq := sound.inFlight_torn bound fewer
  running i a ha running :=
    absurd running (sound.not_running_withdrawn (List.mem_of_getElem? ha))
  outcomes_eq_nil := dropped
  published_eq := rfl

private theorem Moves.inStep {h : Happening} {ends : Bool} {s' : Standing}
    (moves : s.Moves h ends s') (sound : s.Sound)
    (bound : s.epoch.toNat + ends.toNat < 2 ^ 64) : s'.InStep := by
  cases moves with
  | stay => exact sound.toInStep
  | part running =>
    have going : s.torn.stopped ≠ true := by
      change s.stopped ≠ true
      simp [running]
    exact sound.inStep_torn bound (.inl rfl) (fun _ => id) fun stopped => absurd stopped going
  | enter room a going fresh epoch =>
    exact inStep_calling rfl going rfl rfl (fun b => sound.not_running_withdrawn)
      (sound.inFlight_torn bound fun _ => id) fresh epoch
  | stop => exact sound.inStep_torn bound (.inr rfl) (by simp) fun _ => rfl
  -- An outcome is looked at: one of an earlier session is let go, one of this session means that
  -- its attempt is over.
  | forget o os oldest old => exact sound.toInStep.forget oldest old
  | succeed o os i oldest current link connecting =>
    obtain ⟨none_, still⟩ := sound.arrived oldest current
    obtain ⟨active, going⟩ := sound.going (by simp [connecting])
    have timer := sound.timer_eq_none (by simp [connecting])
    exact inStep_opened (s := { s with outcomes := os }) active going timer still none_ i
  | fail o os due oldest current link connecting =>
    obtain ⟨none_, still⟩ := sound.arrived oldest current
    obtain ⟨active, going⟩ := sound.going (by simp [connecting])
    exact inStep_waiting (s := { s with outcomes := os }) active going still none_ due
  -- No attempt is on its way while a link is open, nor while the client waits to try again.
  | lose due open_ =>
    have other : s.machine.state ≠ .connecting := by simp [open_]
    obtain ⟨active, going⟩ := sound.going (by simp [open_])
    have still (b : Attempt) := sound.not_running (sound.pending_eq_none other) (a := b)
    exact inStep_waiting active going still (sound.inFlight_eq_zero other) due
  | retry room a n reconnecting active fresh epoch =>
    have other : s.machine.state ≠ .connecting := by simp [reconnecting]
    have going := (sound.going (by simp [reconnecting])).2
    have link := sound.link_eq_none (by simp [reconnecting])
    have still (b : Attempt) := sound.not_running (sound.pending_eq_none other) (a := b)
    have quiet := sound.inFlight_eq_zero other
    exact inStep_calling (s := { s with timer := none }) active going link rfl still quiet fresh
      epoch
  | settle i h a link origins attempt unsettled =>
    exact sound.toInStep.settled attempt unsettled origins

/-- Every move keeps the invariants, as long as there are numbers for the sessions. -/
theorem Moves.sound {h : Happening} {ends : Bool} {s' : Standing} (moves : s.Moves h ends s')
    (sound : s.Sound)
    (bound : s.epoch.toNat + ends.toNat < 2 ^ 64) : s'.Sound :=
  ⟨moves.dated sound.toDated bound, moves.inStep sound bound⟩

/-- The number of the session grows by one with every end of a session. -/
theorem Moves.epoch_eq {h : Happening} {ends : Bool} {s' : Standing} (moves : s.Moves h ends s') :
    s'.epoch = s.epoch + if ends then 1 else 0 := by
  cases moves <;> simp [torn, calling, opened, waiting]

theorem Moves.profile_eq {h : Happening} {ends : Bool} {s' : Standing} (moves : s.Moves h ends s') :
    s'.profile = s.profile := by
  cases moves <;> rfl

/-- An open client begins to wait only while it listens to its link. -/
theorem Moves.listens_of_reconnecting {h : Happening} {ends : Bool} {s' : Standing}
    (moves : s.Moves h ends s') (isOpen : s.machine.state = .open) {n : UInt32}
    (waits : s'.machine.state = .reconnecting n) : h = .turn .listen := by
  cases moves with
  | lose => rfl
  | fail _ _ _ _ _ _ connecting =>
    rw [isOpen] at connecting
    contradiction
  | stay =>
    rw [isOpen] at waits
    contradiction
  | forget | settle =>
    change s.machine.state = _ at waits
    rw [isOpen] at waits
    contradiction
  | _ => simp [torn, calling, opened, Machine.teardown] at waits

end Standing

/-! ## Every step is a move -/

namespace Client

open Standing (Moves Sound)

variable {c : Client}

private theorem outcome?_moves (s : c.standing.Sound) :
    c.standing.Moves (.turn .outcome) false (c.outcome?.getD c).standing := by
  rw [outcome?]
  cases h : c.outcomes with
  | nil => exact .stay _
  | cons o os =>
    change c.standing.Moves (.turn .outcome) false
      ({ c with outcomes := os }.handleOutcome o).standing
    by_cases he : o.epoch = c.epoch
    -- An outcome of the session finds the client connecting, so that the machine takes it.
    · have connecting : c.machine.state = .connecting := s.connecting_of_outcome h he
      cases hl : o.link with
      | none =>
        have link : c.link = none := s.link_eq_none (by simp [standing, connecting])
        rw [standing_handleOutcome_refused { c with outcomes := os } he hl connecting link]
        exact .fail o os _ h he hl connecting
      | some i =>
        rw [standing_handleOutcome_opened { c with outcomes := os } he hl connecting]
        exact .succeed o os i h he hl connecting
    · rw [standing_handleOutcome_old { c with outcomes := os } he]
      exact .forget o os h he

private theorem listen?_moves (s : c.standing.Sound) :
    c.standing.Moves (.turn .listen) false (c.listen?.getD c).standing := by
  rw [listen?]
  split
  · next r _ =>
    change c.standing.Moves (.turn .listen) false (handleText _ r.text).standing
    rw [standing_handleText, standing_onLink c r.link (f := Link.take) fun _ => rfl]
    exact .stay _
  · split
    · next l hl =>
      split
      -- A link that can end is held, and a link is held only while the machine is open.
      · have held : c.link.isSome = true := by
          rw [currentLink?] at hl
          obtain ⟨i, held, -⟩ := Option.bind_eq_some_iff.1 hl
          rw [held]
          rfl
        have open_ : c.machine.state = .open := s.open_iff.2 held
        have pending : c.pending = none := s.pending_eq_none (by simp [standing, open_])
        change c.standing.Moves (.turn .listen) false c.handleLinkClosed.standing
        rw [standing_handleLinkClosed c open_ pending]
        exact .lose _ open_
      · exact .stay _
    · exact .stay _

private theorem timer?_moves (s : c.standing.Sound) :
    c.standing.Moves (.turn .timer) false (c.timer?.getD c).standing := by
  rw [timer?]
  split
  · exact .stay _
  · next due h =>
    split
    · obtain ⟨n, reconnecting⟩ : ∃ n, c.machine.state = .reconnecting n :=
        s.reconnecting_iff.2 (by simp [standing, h])
      obtain ⟨room, active⟩ : ∃ room, c.room = some room :=
        Option.ne_none_iff_exists'.1 (s.going (by simp [standing, reconnecting])).1
      change c.standing.Moves (.turn .timer) false c.handleTimer.standing
      rw [standing_handleTimer c reconnecting active]
      exact .retry room _ n reconnecting active rfl rfl rfl
    · exact .stay _

private theorem select_moves (running : c.stopped = false) (room : Option RoomId) :
    c.standing.Moves (.turn (.command (.select room))) (!c.stays room)
      (c.select room).standing := by
  cases h : c.stays room with
  | true =>
    rw [select]
    rw [if_pos h]
    exact .stay _
  | false =>
    cases room with
    | none =>
      rw [standing_select_none c h]
      exact .part running
    | some room =>
      rw [standing_select_some c h]
      exact .enter room _ running rfl rfl rfl

private theorem settle_moves (s : c.standing.Sound) (i : Nat) (h : Handshake) :
    c.standing.Moves (.settle i h) false (c.step (.settle i h)).standing := by
  have dropped (n : Network) :
      { c with toNetwork := if c.stopped then n.dropOutcomes else n : Client }.standing =
        let after := { c with toNetwork := n : Client }.standing
        { after with outcomes := if c.stopped then [] else after.outcomes } := by
    cases c.stopped with
    | true => exact standing_dropOutcomes { c with toNetwork := n }
    | false => rfl
  change c.standing.Moves (.settle i h) false { c with toNetwork := _ : Client }.standing
  rw [dropped]
  -- There is something to settle, or nothing happens.
  by_cases unsettled : ∃ a, c.attempts[i]? = some a ∧ a.status ≠ .settled
  · obtain ⟨a, ha, hs⟩ := unsettled
    obtain ⟨link, origins, after, delivered⟩ := c.standing_settleLate ha hs h
    rw [after]
    exact .settle i h a link origins ha hs delivered
  · have same : c.toNetwork.settleLate i h = c.toNetwork := by
      rw [Network.settleLate]
      split
      · next a ha => rw [if_pos (by_contra fun hs => unsettled ⟨a, ha, hs⟩)]
      · rfl
    have outcomes : (if c.stopped then [] else c.outcomes) = c.outcomes := by
      split
      · next stopped => exact (s.outcomes_eq_nil stopped).symm
      · rfl
    rw [same]
    change c.standing.Moves (.settle i h) false
      { c.standing with outcomes := if c.stopped then [] else c.outcomes }
    rw [outcomes]
    exact .stay _

private theorem moves_of_standing_eq {h : Happening} (stays : c.leaves h = false)
    (same : (c.step h).standing = c.standing) :
    c.standing.Moves h (c.leaves h) (c.step h).standing := by
  rw [stays, same]
  exact .stay _

private theorem command_moves (running : c.stopped = false) (command : SessionCommand) :
    c.standing.Moves (.turn (.command command)) (c.leaves (.turn (.command command)))
      (c.step (.turn (.command command))).standing := by
  cases command with
  | select room =>
    have leaves : c.leaves (.turn (.command (.select room))) = !c.stays room := by
      simp [leaves, running]
    rw [step_of_running running, leaves]
    exact select_moves running room
  | send p =>
    refine moves_of_standing_eq rfl ?_
    rw [step_of_running running]
    exact c.standing_send p
  | typing on =>
    refine moves_of_standing_eq rfl ?_
    rw [step_of_running running]
    exact c.standing_sendTyping on
  | shutdown =>
    have leaves : c.leaves (.turn (.command .shutdown)) = true := by simp [leaves, running]
    rw [step_of_running running, leaves]
    change c.standing.Moves _ _ c.shutdown.standing
    rw [standing_shutdown]
    exact .stop running

/-- In a sound standing a step of the client is a move, and ends the session if it says so. -/
theorem step_moves (s : c.standing.Sound) (h : Happening) :
    c.standing.Moves h (c.leaves h) (c.step h).standing := by
  cases h with
  | turn t =>
    cases running : c.stopped with
    | true =>
      refine moves_of_standing_eq (leaves_of_stopped running t) ?_
      rw [step_of_stopped running]
    | false =>
      cases t with
      | command command => exact command_moves running command
      | outcome =>
        rw [step_of_running running]
        exact outcome?_moves s
      | listen =>
        rw [step_of_running running]
        exact listen?_moves s
      | timer =>
        rw [step_of_running running]
        exact timer?_moves s
  | settle i h => exact settle_moves s i h
  | push i text => exact moves_of_standing_eq rfl (c.standing_push i text)
  | deafen i => exact moves_of_standing_eq rfl (c.standing_deafen i)
  | hangUp i => exact moves_of_standing_eq rfl (c.standing_hangUp i)
  | pass | clock | disk => exact .stay _

/-! ## Along a run -/

/-- A link of the current session was opened for the active room. -/
theorem exists_link (s : c.standing.Sound) {i : Nat}
    (here : c.standing.origins[i]?.map Origin.epoch = some c.epoch) :
    ∃ l, c.links[i]? = some l ∧ l.epoch = c.epoch ∧ c.room = some l.room := by
  change (c.links.map Link.origin)[i]?.map Origin.epoch = some c.epoch at here
  rw [List.getElem?_map, Option.map_map] at here
  obtain ⟨l, hl, epoch⟩ := Option.map_eq_some_iff.1 here
  have fits := s.origins l.origin (List.mem_map_of_mem (List.mem_of_getElem? hl))
  exact ⟨l, hl, epoch, fits.2 epoch⟩

/-- The link in use is one of the current session, opened for the active room. -/
theorem exists_held (s : c.standing.Sound) {i : Nat} (held : c.link = some i) :
    ∃ l, c.links[i]? = some l ∧ l.epoch = c.epoch ∧ c.room = some l.room :=
  exists_link s (s.link i held)

/-- The number of the session grows by one if the session ends, and stays otherwise. -/
theorem toNat_epoch_step (s : c.standing.Sound) (h : Happening)
    (bound : c.epoch.toNat + (c.leaves h).toNat < 2 ^ 64) :
    (c.step h).epoch.toNat = c.epoch.toNat + (c.leaves h).toNat := by
  have epoch : (c.step h).epoch = c.epoch + if c.leaves h then 1 else 0 := (step_moves s h).epoch_eq
  rw [epoch, UInt64.toNat_add]
  cases hl : c.leaves h with
  | false => simp
  | true =>
    -- The sum does not come round to zero yet.
    rw [hl] at bound
    simp only [if_true, Bool.toNat_true, UInt64.reduceToNat] at bound ⊢
    omega

/-- What the invariants and the bound on a run come to after its first step. -/
theorem sound_cons (s : c.standing.Sound) {h : Happening} {hs : List Happening}
    (bound : c.epoch.toNat + c.teardowns (h :: hs) < 2 ^ 64) :
    c.epoch.toNat + (c.leaves h).toNat < 2 ^ 64 ∧ (c.step h).standing.Sound ∧
      (c.step h).epoch.toNat + (c.step h).teardowns hs < 2 ^ 64 := by
  rw [teardowns_cons] at bound
  have first : c.epoch.toNat + (c.leaves h).toNat < 2 ^ 64 := by omega
  have epoch := toNat_epoch_step s h first
  exact ⟨first, (step_moves s h).sound s first, by omega⟩

/-- The invariants hold along every run in which the numbers of the sessions do not run out, and
these numbers count the sessions that have ended. -/
theorem sound_run (s : c.standing.Sound) (hs : List Happening)
    (bound : c.epoch.toNat + c.teardowns hs < 2 ^ 64) :
    (c.run hs).standing.Sound ∧ (c.run hs).epoch.toNat = c.epoch.toNat + c.teardowns hs := by
  induction hs generalizing c with
  | nil => exact ⟨s, rfl⟩
  | cons h hs ih =>
    obtain ⟨first, sound, rest⟩ := sound_cons s bound
    obtain ⟨last, counted⟩ := ih sound rest
    have epoch := toNat_epoch_step s h first
    rw [run_cons, teardowns_cons]
    exact ⟨last, by omega⟩

/-- A client that has just been made has nothing at all, which agrees with an idle connection. -/
theorem sound_start (profile : Profile) (backoff : Backoff) (outbox : Outbox) (chat : Chat)
    (disk : Disk) (clock : Timestamp) :
    (start profile backoff outbox chat disk clock).standing.Sound := by
  refine ⟨⟨?_, ?_, ?_, ?_, ?_⟩, ⟨?_, ?_, ?_, ?_, ?_, ?_, ?_, ?_, ?_⟩⟩ <;>
    simp [start, standing, Standing.inFlight]

/-- How many attempts and outcomes of a session are on their way: attempts that are not settled and
outcomes that were not looked at. -/
def inFlight (c : Client) (e : UInt64) : Nat :=
  c.attempts.countP (fun a => a.status != .settled && a.epoch == e) +
    c.outcomes.countP (fun o => o.epoch == e)

/-- The parts of the client agree with the state of its connection. A client that has stopped keeps
the name of its last room, which is no longer active. -/
structure Agrees (c : Client) : Prop where
  idle_iff : c.machine.state = .idle ↔ c.room = none ∨ c.stopped = true
  connecting_iff : c.machine.state = .connecting ↔ c.inFlight c.epoch = 1
  inFlight_eq_zero : c.machine.state ≠ .connecting → c.inFlight c.epoch = 0
  open_iff : c.machine.state = .open ↔ c.link.isSome = true
  reconnecting_iff : (∃ n, c.machine.state = .reconnecting n) ↔ c.timer.isSome = true
  pending_iff : c.machine.state = .connecting ↔ c.pending.isSome = true
  attempts_eq_zero : c.machine.state = .idle ∨ c.machine.state = .open → c.machine.attempts = 0
  outcomes_le : ∀ o ∈ c.outcomes, o.epoch ≤ c.epoch
  published_eq : c.published = c.machine.state
  /-- To select the active room again changes nothing at all. -/
  select_active : ∀ room, c.room = some room → c.step (.turn (.command (.select (some room)))) = c

private theorem step_select_active (s : c.standing.Sound) {room : RoomId}
    (active : c.room = some room) :
    c.step (.turn (.command (.select (some room)))) = c := by
  cases running : c.stopped with
  | true => exact step_of_stopped running _
  | false =>
    -- A client with a room that goes on is never idle.
    have busy : c.machine.state ≠ .idle := fun idle => by
      rcases s.idle_iff.1 idle with left | stopped
      · exact absurd (left.symm.trans active) (by simp)
      · exact absurd (running.symm.trans stopped) (by simp)
    have stays : c.stays (some room) = true := by simp [stays, active, busy]
    rw [step_of_running running]
    exact if_pos stays

/-- After every run, in whatever order things have happened, the parts of the client agree with the
state of its connection, and the number of its session is the number of sessions that have ended, as
long as there are numbers left for them. -/
theorem run_agrees (profile : Profile) (backoff : Backoff) (outbox : Outbox) (chat : Chat)
    (disk : Disk) (clock : Timestamp) (hs : List Happening)
    (bound : (start profile backoff outbox chat disk clock).teardowns hs < 2 ^ 64) :
    ((start profile backoff outbox chat disk clock).run hs).Agrees ∧
      ((start profile backoff outbox chat disk clock).run hs).epoch.toNat =
        (start profile backoff outbox chat disk clock).teardowns hs := by
  obtain ⟨s, epoch⟩ := sound_run (sound_start profile backoff outbox chat disk clock) hs
    (by simpa [start] using bound)
  have inFlight_eq := s.inFlight_eq
  refine ⟨⟨s.idle_iff, ?_, ?_, s.open_iff, s.reconnecting_iff, s.connecting_iff,
    s.attempts_eq_zero, s.outcomes_le, s.published_eq, fun room => step_select_active s⟩, ?_⟩
  -- The count is one or none, so that it tells whether the client is connecting.
  · constructor
    · intro connecting
      exact inFlight_eq.trans (if_pos connecting)
    · intro one
      by_contra other
      have none_ := inFlight_eq.trans (if_neg other)
      exact absurd (one.symm.trans none_) (by decide)
  · intro other
    exact inFlight_eq.trans (if_neg other)
  · rw [epoch]
    simp [start]

end Client

/-! ### A detour

The client moves on while the answer to its first attempt is on its way, fails, and gets through. -/

namespace Detour

def lobby : RoomId := ⟨"lobby", by decide⟩

def attic : RoomId := ⟨"attic", by decide⟩

def profile : Profile := { user := ⟨"alice", by decide⟩, serverUrl := "ws://here" }

def client : Client := .start profile {} {} .empty {} .epoch

def happenings : List Happening := [
  .turn (.command (.select (some lobby))), .settle 0 (.accepted none),
  .turn (.command (.select (some attic))), .turn .outcome,
  .settle 1 .refused, .turn .outcome, .pass 1000, .turn .timer,
  .settle 2 (.accepted (some 3)), .turn .outcome]

end Detour

theorem run_agrees_detour :
    Detour.client.teardowns Detour.happenings < 2 ^ 64 ∧
      (Detour.client.run Detour.happenings).Agrees ∧
      (Detour.client.run Detour.happenings).epoch.toNat = 2 := by
  have bound : Detour.client.teardowns Detour.happenings < 2 ^ 64 := by decide
  have agrees := Client.run_agrees Detour.profile {} {} .empty {} .epoch Detour.happenings bound
  exact ⟨bound, agrees.1, agrees.2.trans (by decide)⟩

end ChatClient
