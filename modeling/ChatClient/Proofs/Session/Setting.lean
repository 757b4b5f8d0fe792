import ChatClient.Session.Run

/-!
# The setting of a client

Whatever a client does, it stays the client of the same user, and it takes no time. Time passes, and
the clock on the wall moves, only where a run says so. A client goes on until it is told to shut
down.

## Main definitions

* `Setting`, `Client.setting`

## Main results

* `setting_turn`: no turn but the last one changes the setting
* `profile_step`, `now_step`, `stopped_step_of_ne`: what a step makes of it
-/

namespace ChatClient

/-- What a client cannot change while it goes on. -/
structure Setting where
  profile : Profile
  now : Nat
  clock : Timestamp
  stopped : Bool

namespace Client

variable (c : Client)

def setting : Setting := ⟨c.profile, c.now, c.clock, c.stopped⟩

private theorem setting_transmit (f : Wire.Frame) : (c.transmit f).1.setting = c.setting := by
  rw [transmit]
  split <;> rfl

private theorem setting_transmitAll (es : List QueueEntry) :
    (c.transmitAll es).1.setting = c.setting := by
  induction es generalizing c with
  | nil => rfl
  | cons e es ih =>
    have sent := c.setting_transmit e.payload.frame
    rw [transmitAll]
    split
    · next h => rw [ih, ← sent, h]
    · next h => rw [← sent, h]

private theorem setting_withOutbox {α : Type} (done : Outbox × Disk × α) :
    (c.withOutbox done).setting = c.setting := rfl

private theorem setting_dropOthers : c.dropOthers.setting = c.setting := by
  rw [dropOthers]
  split <;> rfl

private theorem setting_transmitOrRequeue (es : List QueueEntry) :
    (c.transmitOrRequeue es).setting = c.setting := by
  have sent := c.setting_transmitAll es
  rw [transmitOrRequeue]
  split
  · next h => rw [← sent, h]
  · next h => rw [setting_withOutbox, ← sent, h]

private theorem setting_flushQueue : c.flushQueue.setting = c.setting := by
  rw [flushQueue]
  split
  · rfl
  · dsimp only
    split
    · rfl
    · rw [setting_transmitOrRequeue, setting_dropOthers, setting_withOutbox]

private theorem setting_execute (action : Option ConnectionAction) :
    (c.execute action).setting = c.setting := by
  unfold execute
  split
  · rfl
  · rw [connect]
    split <;> rfl
  · exact c.setting_flushQueue
  · rfl

private theorem setting_select (room : Option RoomId) : (c.select room).setting = c.setting := by
  rw [select]
  split
  · rfl
  · change ({ c.teardown with room := room } : Client).begin.setting = _
    rw [begin]
    split
    · exact setting_execute ..
    · rfl

private theorem setting_handleOutcome (o : Outcome) : (c.handleOutcome o).setting = c.setting := by
  rw [handleOutcome]
  split
  · split <;> exact setting_execute ..
  · rfl

private theorem setting_listen : (c.listen?.getD c).setting = c.setting := by
  rw [listen?]
  split
  · next r _ =>
    change (handleText _ r.text).setting = _
    rw [handleText]
    split <;> rfl
  · split
    · split
      · exact setting_execute ..
      · rfl
    · rfl

private theorem setting_timer : (c.timer?.getD c).setting = c.setting := by
  rw [timer?]
  split
  · rfl
  · split
    · exact setting_execute ..
    · rfl

private theorem setting_send (p : Payload) : (c.send p).setting = c.setting := by
  have sent := c.setting_transmit p.frame
  rw [send]
  split
  · split
    · next h => rw [← sent, h]
    · next h => rw [enqueue, setting_withOutbox, ← sent, h]
  · rfl

private theorem setting_sendTyping (on : Bool) : (c.sendTyping on).setting = c.setting := by
  rw [sendTyping]
  split
  · rfl
  · split
    · exact c.setting_transmit _
    · rfl

private theorem setting_outcome : (c.outcome?.getD c).setting = c.setting := by
  rw [outcome?]
  split
  · rfl
  · exact setting_handleOutcome ..

/-- A turn changes nothing of the setting, unless it is the last one. -/
theorem setting_turn {t : Turn} (goesOn : t ≠ .command .shutdown) :
    (c.step (.turn t)).setting = c.setting := by
  cases running : c.stopped with
  | true => rw [step_of_stopped running]
  | false =>
    rw [step_of_running running]
    cases t with
    | outcome => exact c.setting_outcome
    | listen => exact c.setting_listen
    | timer => exact c.setting_timer
    | command command =>
      cases command with
      | select room => exact c.setting_select room
      | send p => exact c.setting_send p
      | typing on => exact c.setting_sendTyping on
      | shutdown => contradiction

private theorem setting_shutdown :
    (c.step (.turn (.command .shutdown))).setting = { c.setting with stopped := true } := by
  cases running : c.stopped with
  | true =>
    rw [step_of_stopped running, setting, running]
  | false =>
    rw [step_of_running running]
    rfl

/-- How much time passes when this happens. -/
def passes : Happening → Nat
  | .pass ms => ms
  | _ => 0

/-- Time passes only as it is told to. -/
theorem now_step (h : Happening) : (c.step h).now = c.now + passes h := by
  cases h with
  | turn t =>
    by_cases last : t = .command .shutdown
    · subst last
      exact congrArg Setting.now c.setting_shutdown
    · exact congrArg Setting.now (c.setting_turn last)
  | _ => rfl

/-- A client stays what it was set up as. -/
theorem profile_step (h : Happening) : (c.step h).profile = c.profile := by
  cases h with
  | turn t =>
    by_cases last : t = .command .shutdown
    · subst last
      exact congrArg Setting.profile c.setting_shutdown
    · exact congrArg Setting.profile (c.setting_turn last)
  | _ => rfl

/-- It does so along every run. -/
theorem profile_run (hs : List Happening) : (c.run hs).profile = c.profile := by
  induction hs generalizing c with
  | nil => rfl
  | cons h hs ih => rw [run_cons, ih, profile_step]

/-- Nothing but a shutdown stops a client. -/
theorem stopped_step_of_ne {h : Happening} (goesOn : h ≠ .turn (.command .shutdown)) :
    (c.step h).stopped = c.stopped := by
  cases h with
  | turn t => exact congrArg Setting.stopped (c.setting_turn fun last => goesOn (last ▸ rfl))
  | _ => rfl

end Client

end ChatClient
