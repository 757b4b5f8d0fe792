import ChatClient.Proofs.Session.Rehearsal
import ChatClient.Proofs.Terminal.Moves
import ChatClient.Terminal.Stage

/-!
# A terminal in virtual time is a run

In virtual time the client takes every command as soon as it has been issued, and then does by
itself whatever is left to be done. A console can do the same, by moves that come in this order. All
that holds along every run of a console therefore holds of a terminal in virtual time, up to where
it breaks down, if it does.

What is printed plays no part in this.

## Main definitions

* `Console.Mirrors`: a console stands where a terminal in virtual time does
* `Console.Follows`: a console gets there by moves in which the user does certain things

## Main results

* `mirrors_enterRoom`: both begin with the same
* `Mirrors.line`, `Mirrors.leave`, `Mirrors.apply`, `Mirrors.wait`, `Mirrors.settle`: whatever is
  done with the terminal, moves of the console come to the same
* `follows_play`: whatever is done with a terminal from its start on, one thing after the other, is
  a run of a console at which the user does the same
-/

namespace ChatClient

/-- A computation of two parts has a result if both have one. -/
private theorem bind_eq_ok_iff {ε α β : Type} {x : Except ε α} {f : α → Except ε β} {b : β} :
    (x >>= f) = .ok b ↔ ∃ a, x = .ok a ∧ f a = .ok b := by
  cases x with
  | error e => exact ⟨nofun, nofun⟩
  | ok a =>
    constructor
    · exact fun h => ⟨a, rfl, h⟩
    · rintro ⟨a', same, h⟩
      rwa [← Except.ok.inj same] at h

private theorem map_eq_ok_iff {ε α β : Type} {x : Except ε α} {f : α → β} {b : β} :
    f <$> x = .ok b ↔ ∃ a, x = .ok a ∧ f a = b := by
  cases x with
  | error e => exact ⟨nofun, nofun⟩
  | ok a =>
    constructor
    · exact fun h => ⟨a, rfl, Except.ok.inj h⟩
    · rintro ⟨a', same, rfl⟩
      rw [← Except.ok.inj same]
      rfl

namespace Stage

variable {st st' : Stage}

/-- What is shown leaves all else alone. -/
theorem refresh_eq (h : st.refresh = .ok st') :
    ∃ shown seen output, st' = { st with shown, seen, output } := by
  rw [refresh] at h
  split at h
  · obtain rfl := Except.ok.inj h
    exact ⟨_, _, _, rfl⟩
  · rw [showConnection] at h
    split at h
    · obtain rfl := Except.ok.inj h
      exact ⟨_, _, _, rfl⟩
    · obtain ⟨text, -, h⟩ := bind_eq_ok_iff.1 h
      obtain rfl := Except.ok.inj h
      exact ⟨_, _, _, rfl⟩

/-- A terminal starts with a client to which nothing has happened. -/
theorem start_eq {user : UserId} {credential : Option Credential} {room : RoomId} {config : Config}
    {disk : Disk} {clock : Timestamp} {script : List (Option Handshake)}
    (h : start user credential room config disk clock script = .ok st) :
    ∃ outbox, config.outbox disk.tree = .ok outbox ∧ st = {
      simulation := {
        client := Client.start ⟨user, credential, config.serverUrl, config.flushPolicy⟩
          config.backoff outbox {} disk clock
        script }
      screen := { user, room, debouncer := { idle := config.typingIdle } } } := by
  obtain ⟨outbox, loaded, h⟩ := bind_eq_ok_iff.1 h
  exact ⟨outbox, loaded, (Except.ok.inj h).symm⟩

/-- What the user does. -/
def Act.move? : Act → Option Console.Move
  | .line text => some (.line text)
  | .leave => some .leave
  | _ => none

end Stage

namespace Console

/-- The user does this. -/
def Move.byUser : Move → Bool
  | .line _ | .leave => true
  | _ => false

private theorem run_other (s : Console) {hs : List Happening}
    (free : ∀ h ∈ hs, ∀ command, h ≠ .turn (.command command)) :
    s.run (hs.map .other) = { s with client := s.client.run hs } := by
  induction hs generalizing s with
  | nil => rfl
  | cons h hs ih =>
    obtain ⟨first, others⟩ := List.forall_mem_cons.1 free
    rw [List.map_cons, run_cons, step, s.happens_other first, ih _ others]
    rfl

/-- The console stands where the terminal does, while these commands wait. -/
structure Mirrors (s : Console) (st : Stage) (waiting : List SessionCommand) : Prop where
  screen : s.screen = st.screen
  client : s.client = st.client
  done : s.done = st.done
  waiting : s.waiting = waiting

/-- The console gets to where the terminal stands, and the user does no more than this meanwhile. -/
def Follows (s : Console) (st : Stage) (done : List Move) : Prop :=
  ∃ moves, moves.filter Move.byUser = done ∧ (s.run moves).Mirrors st []

variable {s : Console} {st st' : Stage} {waiting : List SessionCommand} {done more : List Move}

/-- A console that mirrors the stage has nowhere to go. -/
theorem Mirrors.follows (m : s.Mirrors st []) : s.Follows st [] := ⟨[], rfl, m⟩

/-- A console that follows in two stretches follows. -/
theorem Follows.trans (f : s.Follows st done)
    (next : ∀ s' : Console, s'.Mirrors st [] → s'.Follows st' more) :
    s.Follows st' (done ++ more) := by
  obtain ⟨moves, rfl, mirrors⟩ := f
  obtain ⟨moves', rfl, last⟩ := next _ mirrors
  exact ⟨moves ++ moves', List.filter_append .., by rwa [run_append]⟩

/-- The console follows from its next move on. -/
theorem Follows.of_step {m : Move} (f : (s.step m).Follows st done) :
    s.Follows st ([m].filter Move.byUser ++ done) := by
  obtain ⟨moves, rfl, mirrors⟩ := f
  exact ⟨m :: moves, List.filter_append [m] moves, mirrors⟩

namespace Mirrors

private theorem refresh (m : s.Mirrors st waiting) (h : st.refresh = .ok st') :
    s.Mirrors st' waiting := by
  obtain ⟨shown, seen, output, rfl⟩ := Stage.refresh_eq h
  exact ⟨m.screen, m.client, m.done, m.waiting⟩

/-! ## Commands -/

private theorem command {c : SessionCommand} (m : s.Mirrors st (c :: waiting))
    (h : st.command c = .ok st') : (s.step .take).Mirrors st' waiting := by
  have happens : s.happens .take = some (.turn (.command c)) := by
    rw [Console.happens, m.waiting]
    rfl
  have client : s.client.step (.turn (.command c)) = (st.simulation.command c).client := by
    rw [m.client]
    rfl
  have taken :
      (s.step .take).Mirrors { st with simulation := st.simulation.command c } waiting := by
    rw [Console.step, happens]
    exact ⟨m.screen, client, m.done, by rw [m.waiting]; rfl⟩
  exact taken.refresh h

private theorem commands {cs : List SessionCommand} (m : s.Mirrors st cs)
    (h : cs.foldlM Stage.command st = .ok st') : s.Follows st' [] := by
  induction cs generalizing s st with
  | nil =>
    obtain rfl := Except.ok.inj h
    exact m.follows
  | cons c cs ih =>
    rw [List.foldlM_cons] at h
    obtain ⟨next, first, others⟩ := bind_eq_ok_iff.1 h
    exact (ih (m.command first) others).of_step

private theorem perform (m : s.Mirrors st []) (r : Reaction) :
    (s.perform r).Mirrors { st with screen := r.screen } r.commands :=
  ⟨rfl, m.client, m.done, by rw [Console.perform, m.waiting, List.nil_append]⟩

/-- The user leaves, and the client takes the commands that this gives. -/
theorem leave (m : s.Mirrors st []) (h : st.leave = .ok st') : s.leave.Follows st' [] := by
  rw [Stage.leave] at h
  rw [Console.leave, m.done]
  split at h
  · next gone =>
    obtain rfl := Except.ok.inj h
    rw [if_pos gone]
    exact m.follows
  · next here =>
    rw [if_neg here, m.screen]
    have leaving : { s.perform st.screen.leave with done := true }.Mirrors
        { st with done := true, screen := st.screen.leave.screen } st.screen.leave.commands :=
      have performed := m.perform st.screen.leave
      ⟨performed.screen, performed.client, rfl, performed.waiting⟩
    exact leaving.commands h

/-- The client takes all that a reaction asks for. -/
private theorem react (m : s.Mirrors st []) {r : Reaction} (quits : r.quit = true → r.commands = [])
    (h : st.react r = .ok st') :
    (if r.quit then (s.perform r).leave else s.perform r).Follows st' [] := by
  obtain ⟨taken, commands, last⟩ := bind_eq_ok_iff.1 h
  have issued : (s.perform r).Mirrors { st.print r.output with screen := r.screen } r.commands :=
    have performed := m.perform r
    ⟨performed.screen, performed.client, performed.done, performed.waiting⟩
  cases quit : r.quit with
  | true =>
    rw [quits quit] at issued commands
    rw [quit] at last
    obtain rfl := Except.ok.inj commands
    exact issued.leave last
  | false =>
    rw [quit] at last
    obtain rfl := Except.ok.inj last
    exact issued.commands commands

/-! ## What the user does -/

/-- The user types a line, and the client takes the commands that it gives. -/
theorem line (m : s.Mirrors st []) {text : String} (h : st.line text = .ok st') :
    s.Follows st' [.line text] := by
  suffices typed : (s.line text).Follows st' [] from typed.of_step (m := .line text)
  simp only [Stage.line] at h
  simp only [Console.line, m.done]
  split at h
  · next nothing =>
    obtain rfl := Except.ok.inj h
    rw [if_pos nothing]
    exact m.follows
  · next something =>
    rw [if_neg something, m.screen, m.client]
    exact m.react (fun quit => by rw [st.screen.enter_of_quit quit]) h

/-! ## What happens by itself -/

private theorem reaches (m : s.Mirrors st []) {simulation : Simulation}
    (reaches : st.simulation.Reaches simulation []) :
    s.Follows { st with simulation } [] := by
  obtain ⟨hs, none_, client⟩ := reaches
  refine ⟨hs.map .other, List.filter_eq_nil_iff.2 (by simp [Move.byUser]), ?_⟩
  rw [run_other s (Happening.ne_command_of_filterMap none_)]
  exact ⟨m.screen, by rw [m.client]; exact client.symm, m.done, m.waiting⟩

private theorem atTime (m : s.Mirrors st []) (now : Nat) : s.Follows (st.atTime now) [] :=
  m.reaches (st.simulation.reaches_atTime now)

private theorem advance (m : s.Mirrors st []) (h : st.advance? = .ok (some st')) :
    s.Follows st' [] := by
  rw [Stage.advance?] at h
  split at h
  · next simulation advanced =>
    obtain ⟨shown, refreshed, same⟩ := map_eq_ok_iff.1 h
    obtain rfl := Option.some.inj same
    -- A timer that is due at once is handled before the terminal can look.
    have first := Simulation.reaches_advance advanced
    have both : st.simulation.Reaches (simulation.timer?.getD simulation) [] := by
      cases due : simulation.timer? with
      | none => exact first
      | some later => exact first.trans (Simulation.reaches_timer due)
    exact (m.reaches both).trans fun _ reached => (reached.refresh refreshed).follows
  · split at h
    · next due =>
      obtain ⟨polled, reacted, same⟩ := map_eq_ok_iff.1 h
      obtain rfl := Option.some.inj same
      have here : s.done = false := by
        rw [Bool.and_eq_true, Bool.not_eq_true'] at due
        exact m.done.trans due.1
      have poll : s.step .poll = s.perform (st.screen.poll st.client.now) := by
        rw [Console.step, Console.poll, here, m.screen, m.client]
        rfl
      have followed : (s.perform (st.screen.poll st.client.now)).Follows polled [] :=
        m.react (fun quit => by cases quit) reacted
      rw [← poll] at followed
      exact followed.of_step
    · cases h

private theorem settleFrom (fuel : Nat) (m : s.Mirrors st [])
    (h : Stage.settleFrom fuel st = .ok st') : s.Follows st' [] := by
  induction fuel generalizing s st with
  | zero =>
    obtain rfl := Except.ok.inj h
    exact m.follows
  | succ fuel ih =>
    obtain ⟨next, advanced, h⟩ := bind_eq_ok_iff.1 h
    cases next with
    | none =>
      obtain rfl := Except.ok.inj h
      exact m.follows
    | some next => exact (m.advance advanced).trans fun _ reached => ih reached h

/-- All that is due happens, a move at a time. -/
theorem settle (m : s.Mirrors st []) (h : st.settle = .ok st') : s.Follows st' [] :=
  m.settleFrom _ h

private theorem waitFrom (fuel deadline : Nat) (m : s.Mirrors st [])
    (h : Stage.waitFrom fuel deadline st = .ok st') : s.Follows st' [] := by
  induction fuel generalizing s st with
  | zero =>
    obtain rfl := Except.ok.inj h
    exact m.atTime deadline
  | succ fuel ih =>
    rw [Stage.waitFrom] at h
    split at h
    · obtain rfl := Except.ok.inj h
      exact m.atTime deadline
    · next due _ =>
      split at h
      · obtain ⟨settled, first, later⟩ := bind_eq_ok_iff.1 h
        have awake := (m.atTime due).trans fun _ late => late.settle first
        exact awake.trans fun _ reached => ih reached later
      · obtain rfl := Except.ok.inj h
        exact m.atTime deadline

/-- While the terminal waits, what falls due happens, a move at a time. -/
theorem wait (m : s.Mirrors st []) {ms : Nat} (h : st.wait ms = .ok st') : s.Follows st' [] :=
  m.waitFrom _ _ h

/-- What the world does to the client is no doing of the user. -/
theorem apply (m : s.Mirrors st []) (w : WorldStep) : s.Follows (st.apply w).1 [] :=
  m.reaches (st.simulation.reaches_apply w)

/-! ## Scripts -/

/-- Whatever is done with a terminal, some moves come to the same. -/
theorem act (m : s.Mirrors st []) {a : Stage.Act} (h : st.act a = .ok st') :
    s.Follows st' a.move?.toList := by
  cases a with
  | line text => exact m.line h
  | leave => exact (m.leave h).of_step (m := .leave)
  | world w =>
    obtain rfl := Except.ok.inj h
    exact m.apply w
  | wait ms => exact m.wait h
  | settle => exact m.settle h

/-- Whatever is done with a terminal, one thing after the other, some moves come to the same. -/
theorem play {acts : List Stage.Act} (m : s.Mirrors st []) (h : st.play acts = .ok st') :
    s.Follows st' (acts.filterMap Stage.Act.move?) := by
  induction acts generalizing s st with
  | nil =>
    obtain rfl := Except.ok.inj h
    exact m.follows
  | cons a acts ih =>
    rw [Stage.play, List.foldlM_cons] at h
    obtain ⟨next, first, others⟩ := bind_eq_ok_iff.1 h
    have both := (m.act first).trans fun _ reached => ih reached others
    rw [List.filterMap_cons]
    cases move : a.move? with
    | none => rwa [move] at both
    | some _ => rwa [move] at both

end Mirrors

section Start

variable {user : UserId} {credential : Option Credential} {room : RoomId} {config : Config}
  {disk : Disk} {clock : Timestamp} {script : List (Option Handshake)} {opened : Stage}

/-- A terminal that has just asked for its room stands where a console does whose client has taken
its first command. -/
theorem mirrors_enterRoom
    (started : Stage.start user credential room config disk clock script = .ok st)
    (h : st.enterRoom = .ok opened) :
    ((start st.screen st.client).step .take).Mirrors opened [] := by
  have here : st.done = false := by
    obtain ⟨outbox, -, rfl⟩ := Stage.start_eq started
    rfl
  have greeted : (start st.screen st.client).Mirrors
      (st.print (Display.greeting st.screen.user)) [.select (some st.screen.room)] :=
    ⟨rfl, rfl, here.symm, rfl⟩
  exact greeted.command h

/-- Whatever is done with a terminal from its start on, one thing after the other: unless it breaks
down, it gets to where a console gets in a run in which the user types the same lines and leaves at
the same time. The client begins as one to which nothing has happened. -/
theorem follows_play (started : Stage.start user credential room config disk clock script = .ok st)
    (entered : st.enterRoom = .ok opened) {acts : List Stage.Act}
    (played : opened.play acts = .ok st') :
    (∃ outbox, st.client = Client.start ⟨user, credential, config.serverUrl, config.flushPolicy⟩
        config.backoff outbox {} disk clock) ∧
      (start st.screen st.client).Follows st' (acts.filterMap Stage.Act.move?) := by
  constructor
  · obtain ⟨outbox, -, rfl⟩ := Stage.start_eq started
    exact ⟨outbox, rfl⟩
  · exact ((mirrors_enterRoom started entered).play played).of_step (m := .take)

end Start

end Console

end ChatClient
