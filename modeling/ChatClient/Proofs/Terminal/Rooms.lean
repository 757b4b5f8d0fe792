import ChatClient.Proofs.Session.Addressing
import ChatClient.Proofs.Terminal.Moves

/-!
# Nothing lands in the wrong room

The room is known in four places: the terminal has the one that is shown, the client has the active
one, an entry has the one for which it waits, and a link has the one for which it was opened. They
change at different times. The terminal may be two rooms ahead while a payload for the first one is
still on its way to the client.

What keeps them together is the order of the commands. When the client has taken all those that
wait, its room is the one that is shown, and each payload among them meets its own room on the way.

## Main definitions

* `Leads`: commands lead from an active room to another one, and send payloads only where they
  belong
* `Console.Oriented`: the invariant

## Main results

* `Screen.Issues.leads`: what the terminal issues leads from the room that is shown to the next one
* `oriented_step`: what a move keeps
* `run_addressed`: frames go to the rooms that they name, and entries wait for the rooms of their
  payloads
-/

namespace ChatClient

/-- If the first room is active, then the second one is after the commands, and every payload is
sent while its own room is active. -/
inductive Leads : Option RoomId → List SessionCommand → Option RoomId → Prop
  | nil (active : Option RoomId) : Leads active [] active
  | select {active final : Option RoomId} {cs : List SessionCommand} (room : Option RoomId)
      (rest : Leads room cs final) : Leads active (.select room :: cs) final
  | send {final : Option RoomId} {cs : List SessionCommand} (p : Payload)
      (rest : Leads (some p.roomId) cs final) : Leads (some p.roomId) (.send p :: cs) final
  | typing {active final : Option RoomId} {cs : List SessionCommand} (on : Bool)
      (rest : Leads active cs final) : Leads active (.typing on :: cs) final
  | shutdown {active final : Option RoomId} {cs : List SessionCommand}
      (rest : Leads active cs final) :
      Leads active (.shutdown :: cs) final

/-- Commands that lead from room to room can be put together. -/
theorem Leads.append {first second third : Option RoomId} {cs cs' : List SessionCommand}
    (h : Leads first cs second) (h' : Leads second cs' third) : Leads first (cs ++ cs') third := by
  induction h with
  | nil => exact h'
  | select room _ ih => exact .select room (ih h')
  | send p _ ih => exact .send p (ih h')
  | typing on _ ih => exact .typing on (ih h')
  | shutdown _ ih => exact .shutdown (ih h')

/-- A signal about typing stays in its room. -/
theorem leads_announce (active : Option RoomId) (signal : Option TypingSignal) :
    Leads active (Screen.announce signal) active := by
  cases signal with
  | none => exact .nil _
  | some signal => exact .typing _ (.nil _)

/-- What the terminal issues leads from the room that is shown to the one that is shown then. -/
theorem Screen.Issues.leads {s s' : Screen} {commands : List SessionCommand}
    (issues : s.Issues commands s') : Leads (some s.room) commands (some s'.room) := by
  cases issues with
  | nothing => exact .nil _
  | keystroke now => exact leads_announce _ _
  | poll now => exact leads_announce _ _
  | send p _ room =>
    refine (leads_announce _ _).append ?_
    rw [← room]
    exact .send p (.nil _)
  | select room => exact (leads_announce _ _).append (.select _ (.nil _))
  | leave => exact (leads_announce _ _).append (.shutdown (.nil _))

namespace Client

variable {c : Client}

private theorem room_select (room : Option RoomId) : (c.select room).room = room := by
  cases stays : c.stays room with
  | true =>
    have same : room = c.room := by
      have both := stays
      simp only [Client.stays, Bool.and_eq_true, decide_eq_true_eq] at both
      exact both.1
    rw [select, if_pos stays, same]
  | false =>
    cases room with
    | none => exact congrArg Standing.room (standing_select_none c stays)
    | some room => exact congrArg Standing.room (standing_select_some c stays)

private theorem running_of_step {h : Happening} (running : (c.step h).stopped = false) :
    c.stopped = false := by
  by_contra stopped
  have still := stopped_step (by simpa using stopped) h
  exact absurd (still.symm.trans running) (by decide)

/-- A client that goes on takes the first command in the room where it belongs, and stands where the
others lead on from. -/
theorem leads_take {command : SessionCommand} {cs : List SessionCommand} {final : Option RoomId}
    (leads : Leads c.room (command :: cs) final) (s : c.standing.Sound)
    (running : c.stopped = false) :
    c.Aims (.turn (.command command)) ∧
      Leads (c.step (.turn (.command command))).room cs final := by
  -- Only a selection changes the room, and what follows it was meant for the new one.
  generalize active : c.room = room at leads
  cases leads with
  | select room rest =>
    refine ⟨by simp [Aims], ?_⟩
    rw [step_of_running running]
    change Leads (c.select room).room cs final
    rw [room_select]
    exact rest
  | send p rest =>
    refine ⟨fun p' same _ => ?_, ?_⟩
    · obtain rfl : p = p' := by simpa using same
      exact active
    · rw [room_step_of_free s (by simp), active]
      exact rest
  | typing on rest =>
    refine ⟨by simp [Aims], ?_⟩
    rw [room_step_of_free s (by simp), active]
    exact rest
  | shutdown rest =>
    refine ⟨by simp [Aims], ?_⟩
    rw [room_step_of_free s (by simp), active]
    exact rest

end Client

namespace Console

/-- The terminal and the client agree about the rooms, as far as the commands that wait lead. A
client that has stopped takes none of them any more. -/
structure Oriented (s : Console) : Prop where
  sound : s.client.standing.Sound
  leads : s.client.stopped = false → Leads s.client.room s.waiting (some s.screen.room)
  filed : s.client.Filed
  addressed : s.client.Addressed

variable {s : Console}

/-- A step that aims at the active room keeps frames and entries where they belong. -/
theorem Oriented.client_step (o : s.Oriented) {h : Happening} (aims : s.client.Aims h)
    (bound : s.client.epoch.toNat + s.client.teardowns [h] < 2 ^ 64) :
    (s.client.step h).standing.Sound ∧ (s.client.step h).Filed ∧ (s.client.step h).Addressed := by
  obtain ⟨first, sound, -⟩ := Client.sound_cons o.sound bound
  exact ⟨sound, Client.filed_step o.filed aims,
    Client.addressed_step o.sound first o.addressed o.filed aims⟩

/-- Every move keeps the commands that wait in line with the rooms that they will find. -/
theorem oriented_step (o : s.Oriented) (m : Move)
    (bound : s.client.epoch.toNat + s.client.teardowns (s.happens m).toList < 2 ^ 64) :
    (s.step m).Oriented := by
  have moves := s.step_moves m
  generalize s.step m = s' at moves
  generalize s.happens m = happens at moves bound
  cases moves with
  | stay => exact o
  | issue commands screen done issues =>
    exact ⟨o.sound, fun running => (o.leads running).append issues.leads, o.filed, o.addressed⟩
  | take c rest waits =>
    -- The payload that is taken meets its own room, since the commands before it have led there.
    have taken (running : s.client.stopped = false) :=
      Client.leads_take (waits ▸ o.leads running) o.sound running
    have aims : s.client.Aims (.turn (.command c)) := fun p same running =>
      (taken running).1 p same running
    obtain ⟨sound, filed, addressed⟩ := o.client_step aims bound
    exact ⟨sound, fun running => (taken (Client.running_of_step running)).2, filed, addressed⟩
  | other h free =>
    have aims : s.client.Aims h := fun p same => absurd same (free _)
    have room := Client.room_step_of_free o.sound fun room => free (.select room)
    obtain ⟨sound, filed, addressed⟩ := o.client_step aims bound
    refine ⟨sound, fun running => ?_, filed, addressed⟩
    rw [room]
    exact o.leads (Client.running_of_step running)

private theorem oriented_run (o : s.Oriented) (moves : List Move)
    (bound : s.client.epoch.toNat + s.client.teardowns (s.happenings moves) < 2 ^ 64) :
    (s.run moves).Oriented := by
  induction moves generalizing s with
  | nil => exact o
  | cons m moves ih =>
    rw [happenings, Client.teardowns_append, ← client_step] at bound
    have first : s.client.epoch.toNat + s.client.teardowns (s.happens m).toList < 2 ^ 64 := by omega
    have counted := (Client.sound_run o.sound (s.happens m).toList first).2
    rw [← client_step] at counted
    exact ih (oriented_step o m first) (by omega)

/-- Whatever is typed, however fast the client takes the commands, and whatever else happens to
it, every frame is taken by a link that was opened for the room that the frame names, and whatever
waits does so for the room of its payload, if this holds of what waits at first. The numbers of
the sessions must not run out: an outcome that is older than all of them would be taken for a new
one. -/
theorem run_addressed (screen : Screen) (profile : Profile) (backoff : Backoff) (outbox : Outbox)
    (chat : Chat) (disk : Disk) (clock : Timestamp) (moves : List Move)
    (filed : ∀ e ∈ outbox.entries, e.room = e.payload.roomId)
    (bound : (Client.start profile backoff outbox chat disk clock).teardowns
      ((start screen (Client.start profile backoff outbox chat disk clock)).happenings moves) <
        2 ^ 64) :
    let client :=
      ((start screen (Client.start profile backoff outbox chat disk clock)).run moves).client
    (∀ i f, (i, f) ∈ client.accepted →
        ∃ l, client.links[i]? = some l ∧ f.roomId = some l.room.text) ∧
      ∀ e ∈ client.outbox.entries, e.room = e.payload.roomId := by
  have oriented : (start screen (Client.start profile backoff outbox chat disk clock)).Oriented :=
    ⟨Client.sound_start profile backoff outbox chat disk clock,
      fun _ => .select (some screen.room) (.nil _), filed,
      by simp [Client.Addressed, start, Client.start]⟩
  have after := oriented_run oriented moves (by simpa [start, Client.start] using bound)
  exact ⟨fun i f mem => after.addressed (i, f) mem, after.filed⟩

end Console

/-! ### A detour

The user is in the second room already when the client has not heard of the first one yet. -/

namespace Detour

def hall : Screen where
  user := profile.user
  room := lobby
  debouncer := {}

def console : Console := .start hall (.start profile {} {} .empty {} .epoch)

def hurry : List Console.Move := [
  .line "one", .line "/typing", .line "/room attic", .line " two ", .take, .take,
  .other (.settle 0 (.accepted none)), .other (.turn .outcome), .take, .take, .take, .take,
  .other (.settle 1 (.accepted none)), .other (.turn .outcome), .leave, .take]

end Detour

theorem run_addressed_detour :
    (∀ e ∈ ({} : Outbox).entries, e.room = e.payload.roomId) ∧
      Detour.console.client.teardowns (Detour.console.happenings Detour.hurry) < 2 ^ 64 ∧
      (Detour.console.run Detour.hurry).client.accepted.map
          (fun p => (p.1, p.2.event, p.2.message)) =
        [(0, "MSG", some "one"), (0, "TYPING_START", none), (0, "TYPING_STOP", none),
          (1, "MSG", some "two")] ∧
      (∀ i f, (i, f) ∈ (Detour.console.run Detour.hurry).client.accepted →
        ∃ l, (Detour.console.run Detour.hurry).client.links[i]? = some l ∧
          f.roomId = some l.room.text) ∧
      ∀ e ∈ (Detour.console.run Detour.hurry).client.outbox.entries, e.room = e.payload.roomId := by
  have filed : ∀ e ∈ ({} : Outbox).entries, e.room = e.payload.roomId := by simp
  have bound :
      Detour.console.client.teardowns (Detour.console.happenings Detour.hurry) < 2 ^ 64 := by
    decide +kernel
  have addressed := Console.run_addressed Detour.hall Detour.profile {} {} .empty {} .epoch
    Detour.hurry filed bound
  exact ⟨filed, bound, by decide +kernel, addressed⟩

end ChatClient
