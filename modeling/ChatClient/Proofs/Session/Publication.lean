import ChatClient.Proofs.Connection.Calls
import ChatClient.Proofs.Session.Standing
import Mathlib.Tactic.Common

/-!
# What others see of the connection

Others see the state of the connection that was published last. Whatever makes the machine go on
publishes its state afterwards, so that between two things that happen both are the same. Besides,
the machine is started for a room only, and rests as long as there is none.

Neither has to do with the numbers of the sessions, so that both hold in every run, however long.

## Main definitions

* `Client.Visible`: the invariant

## Main results

* `visible_step`, `visible_run`: it is kept whatever happens
-/

namespace ChatClient.Client

variable {c c' : Client}

/-- Others see the state of the machine, and unless the machine rests there is a room. -/
structure Visible (c : Client) : Prop where
  published_eq : c.published = c.machine.state
  active : c.machine.state ≠ .idle → c.room.isSome = true

private theorem Visible.of_standing_eq (v : c.Visible) (same : c'.standing = c.standing) :
    c'.Visible := by
  have published : c'.published = c.published := congrArg Standing.published same
  have machine : c'.machine = c.machine := congrArg Standing.machine same
  have room : c'.room = c.room := congrArg Standing.room same
  exact ⟨by rw [published, machine, v.published_eq], by rw [machine, room]; exact v.active⟩

/-- What was published last is seen. -/
theorem visible_publish (active : c.machine.state ≠ .idle → c.room.isSome = true) :
    c.publish.Visible :=
  ⟨rfl, active⟩

/-- What the machine asks for concerns neither itself nor the room. -/
theorem machine_room_execute (c : Client) (action : Option ConnectionAction) :
    (c.execute action).machine = c.machine ∧ (c.execute action).room = c.room := by
  cases action with
  | none => exact ⟨rfl, rfl⟩
  | some action =>
    cases action with
    | connect =>
      rw [execute, connect]
      split <;> exact ⟨rfl, rfl⟩
    | flushQueue =>
      exact ⟨congrArg Standing.machine c.standing_flushQueue,
        congrArg Standing.room c.standing_flushQueue⟩
    | scheduleReconnect attempt delay => exact ⟨rfl, rfl⟩

section Transitions

variable (call : Machine.Call) (other : call ≠ .start)
  (active : c.machine.state ≠ .idle → c.room.isSome = true)
include other active

/-- A call that does not wake the machine finds a room if it leaves the machine awake. -/
theorem visible_execute {action : Option ConnectionAction} (room : c'.room = c.room)
    (machine : c'.machine = (c.machine.answer call).1) : (c'.execute action).publish.Visible := by
  obtain ⟨machine', room'⟩ := c'.machine_room_execute action
  apply visible_publish
  rw [machine', room', machine, room]
  intro awake
  exact active fun idle => awake (Machine.answer_of_idle idle other).2

private theorem visible_proceed : (c.proceed fun m => m.answer call).publish.Visible :=
  visible_execute call other active rfl rfl

private theorem visible_announce : (c.announce fun m => m.answer call).Visible :=
  visible_execute call other active rfl rfl

end Transitions

/-! ## Every run -/

private theorem visible_select (v : c.Visible) (room : Option RoomId) :
    (c.select room).Visible := by
  cases stays : c.stays room with
  | true =>
    rw [select, if_pos stays]
    exact v
  | false =>
    cases room with
    | none =>
      -- The machine rests, and needs no room.
      have standing := c.standing_select_none stays
      have machine : (c.select none).machine = c.machine.teardown :=
        congrArg Standing.machine standing
      have published : (c.select none).published = .idle := congrArg Standing.published standing
      exact ⟨by rw [published, machine]; rfl, by rw [machine]; intro awake; contradiction⟩
    | some room =>
      -- It is started at once, for the room that was selected.
      have standing := c.standing_select_some stays
      have machine :
          (c.select (some room)).machine = { c.machine.teardown with state := .connecting } :=
        congrArg Standing.machine standing
      have published : (c.select (some room)).published = .connecting :=
        congrArg Standing.published standing
      have active : (c.select (some room)).room = some room := congrArg Standing.room standing
      exact ⟨by rw [published, machine], fun _ => by rw [active]; rfl⟩

private theorem visible_shutdown (c : Client) : c.shutdown.Visible := by
  have machine : c.shutdown.machine = c.machine.teardown :=
    congrArg Standing.machine c.standing_shutdown
  have published : c.shutdown.published = .idle := congrArg Standing.published c.standing_shutdown
  exact ⟨by rw [published, machine]; rfl, by rw [machine]; intro awake; contradiction⟩

private theorem visible_outcome (v : c.Visible) : (c.outcome?.getD c).Visible := by
  rw [outcome?]
  split
  · exact v
  · next o outcomes _ =>
    change (handleOutcome { c with outcomes } o).Visible
    rw [handleOutcome]
    split
    · split
      · exact visible_announce .opened (by decide) v.active
      · exact visible_announce .closed (by decide) v.active
    · -- The outcome of an attempt that was given up: it is dropped, and nobody learns of it.
      have same := standing_dropOutcome { c with outcomes } o
      exact Visible.of_standing_eq (c := { c with outcomes }) ⟨v.published_eq, v.active⟩ same

private theorem visible_listen (v : c.Visible) : (c.listen?.getD c).Visible := by
  rw [listen?]
  split
  · next r _ =>
    have taken : ({ c with toNetwork := c.toNetwork.onLink r.link Link.take } : Client).Visible :=
      ⟨v.published_eq, v.active⟩
    exact taken.of_standing_eq (standing_handleText _ r.text)
  · split
    · split
      · exact visible_proceed .closed (by decide) v.active
      · exact v
    · exact v

private theorem visible_timer (v : c.Visible) : (c.timer?.getD c).Visible := by
  rw [timer?]
  split
  · exact v
  · split
    · exact visible_proceed .timerElapsed (by decide) v.active
    · exact v

/-- Others see the state that the connection has after every step. -/
theorem visible_step (v : c.Visible) (h : Happening) : (c.step h).Visible := by
  cases h with
  | turn t =>
    cases running : c.stopped with
    | true =>
      rw [step_of_stopped running]
      exact v
    | false =>
      rw [step_of_running running]
      cases t with
      | command command =>
        cases command with
        | select room => exact visible_select v room
        | send p => exact v.of_standing_eq (c.standing_send p)
        | typing on => exact v.of_standing_eq (c.standing_sendTyping on)
        | shutdown => exact c.visible_shutdown
      | outcome => exact visible_outcome v
      | listen => exact visible_listen v
      | timer => exact visible_timer v
  -- What happens outside of the client does not reach the machine.
  | _ => exact ⟨v.published_eq, v.active⟩

/-- They see it along every run. -/
theorem visible_run (v : c.Visible) (hs : List Happening) : (c.run hs).Visible := by
  induction hs generalizing c with
  | nil => exact v
  | cons h hs ih => exact ih (visible_step v h)

/-- In the beginning they see that the connection is idle, which it is. -/
theorem visible_start (profile : Profile) (backoff : Backoff) (outbox : Outbox) (chat : Chat)
    (disk : Disk) (clock : Timestamp) : (start profile backoff outbox chat disk clock).Visible :=
  ⟨rfl, fun awake => absurd rfl awake⟩

end ChatClient.Client
