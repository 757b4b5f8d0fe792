import ChatClient.Proofs.Terminal.Rooms

/-!
# What the terminal says about typing

Others see that the user is typing from the first signal to the second one. So no signal may be said
twice, and none may be left open: a message ends the typing, another room is entered by a user who
is not typing there yet, and the one who leaves is not seen typing for ever.

The terminal says when the typing begins. The end is said by whatever comes first, a command or the
time, and for that the two fields of the debouncer must agree: a deadline is set exactly as long as
a signal is open. Then the commands that are issued are *paired*, step by step, and the whole
sequence is put together from the steps.

## Main definitions

* `Debouncer.Coherent`: the end of the typing is due if and only if its beginning was announced
* `Paired`: commands in which signals alternate, and all others come while no signal is open
* `Orderly`: the same, in terms of the commands before and after
* `Console.Signalled`: the invariant

## Main results

* `Screen.Issues.paired`: what the terminal issues at once is paired
* `Paired.orderly`: commands that are paired are orderly
* `run_orderly`: whatever is typed and whenever, the commands of a run are orderly, to their end,
  and nobody types unseen
-/

namespace ChatClient

/-- What a command says about typing. -/
def SessionCommand.typing? : SessionCommand → Option Bool
  | .typing on => some on
  | _ => none

/-- What commands say about typing, in their order. -/
def typings (cs : List SessionCommand) : List Bool := cs.filterMap SessionCommand.typing?

@[simp] theorem typings_nil : typings [] = [] := rfl

@[simp] theorem typings_typing (on : Bool) (cs : List SessionCommand) :
    typings (.typing on :: cs) = on :: typings cs := rfl

private theorem typings_other {c : SessionCommand} (silent : c.typing? = none)
    (cs : List SessionCommand) :
    typings (c :: cs) = typings cs :=
  List.filterMap_cons_none silent

/-! ## Paired commands -/

/-- If a signal is open at first or not, then one is open after the commands or not. Each signal
changes that, and whatever else there is comes while none is open. -/
inductive Paired : Bool → List SessionCommand → Bool → Prop
  | nil (on : Bool) : Paired on [] on
  | typing {on last : Bool} {cs : List SessionCommand} (rest : Paired (!on) cs last) :
      Paired on (.typing (!on) :: cs) last
  | other {last : Bool} {c : SessionCommand} {cs : List SessionCommand} (silent : c.typing? = none)
      (rest : Paired false cs last) : Paired false (c :: cs) last

/-- Signals begin with a start and alternate, and of the signals before any other command the last
one, if there is one, is a stop. -/
structure Orderly (cs : List SessionCommand) : Prop where
  alternate : ∀ k on, (typings cs)[k]? = some on → on = (k % 2 == 0)
  rested : ∀ before c after, cs = before ++ c :: after → c.typing? = none →
    (typings before).getLast? ≠ some true

namespace Paired

variable {on mid last : Bool} {cs cs' : List SessionCommand}

/-- Signals that go on where others have ended make a pair with them. -/
theorem append (h : Paired on cs mid) (h' : Paired mid cs' last) : Paired on (cs ++ cs') last := by
  induction h with
  | nil => exact h'
  | typing _ ih => exact .typing (ih h')
  | other silent _ ih => exact .other silent (ih h')

/-- A row of commands may be cut anywhere, with the signal that stands there. -/
theorem split (h : Paired on (cs ++ cs') last) : ∃ mid, Paired on cs mid ∧ Paired mid cs' last := by
  induction cs generalizing on with
  | nil => exact ⟨on, .nil on, h⟩
  | cons c cs ih =>
    cases h with
    | typing rest =>
      obtain ⟨mid, first, second⟩ := ih rest
      exact ⟨mid, .typing first, second⟩
    | other silent rest =>
      obtain ⟨mid, first, second⟩ := ih rest
      exact ⟨mid, .other silent first, second⟩

/-- A signal is open if and only if the last one was a start, be it before the commands. -/
theorem last_eq (h : Paired on cs last) : last = (typings cs).getLast?.getD on := by
  induction h with
  | nil => rfl
  | typing _ ih => rw [ih, typings_typing, List.getLast?_cons, Option.getD_some]
  | other silent _ ih => rw [ih, typings_other silent]

/-- Starts and stops take turns. -/
theorem alternate (h : Paired on cs last) {k : Nat} {signal : Bool}
    (said : (typings cs)[k]? = some signal) : signal = (on != (k % 2 == 0)) := by
  induction h generalizing k with
  | nil => simp at said
  | @typing on last cs _ ih =>
    cases k with
    | zero =>
      have now : (!on) = signal := by simpa using said
      simp [← now]
    | succ k =>
      -- One signal later it is the other's turn.
      have later := ih (by simpa using said)
      rcases Nat.mod_two_eq_zero_or_one k with even | odd
      · simp [later, even, Nat.add_mod]
      · simp [later, odd, Nat.add_mod]
  | other silent _ ih =>
    rw [typings_other silent] at said
    exact ih said

/-- In a row that begins without a signal nothing is sent or left while a start stands. -/
theorem orderly (h : Paired false cs last) : Orderly cs where
  alternate k signal said := by simpa using h.alternate said
  rested before c after same silent open_ := by
    rw [same] at h
    obtain ⟨mid, first, second⟩ := h.split
    have started : mid = true := by rw [first.last_eq, open_, Option.getD_some]
    -- While a signal is open only its end can come.
    cases second with
    | typing => simp [SessionCommand.typing?] at silent
    | other => exact absurd started (by simp)

end Paired

/-! ## The debouncer -/

namespace Debouncer

variable {d : Debouncer}

/-- The end of the typing is due if and only if its beginning was announced. -/
def Coherent (d : Debouncer) : Prop := d.announced = d.deadline.isSome

private theorem keystroke_paired (d : Debouncer) (now : Nat) :
    Paired d.announced (Screen.announce (d.keystroke now).2) (d.keystroke now).1.announced ∧
      (d.keystroke now).1.Coherent := by
  refine ⟨?_, rfl⟩
  cases announced : d.announced with
  | false =>
    simpa [keystroke, announced, Screen.announce, TypingSignal.isTyping] using
      .typing (.nil true)
  | true => simpa [keystroke, announced, Screen.announce] using .nil true

private theorem send_paired (d : Debouncer) :
    Paired d.announced (Screen.announce d.send.2) false ∧ d.send.1.Coherent := by
  refine ⟨?_, rfl⟩
  cases announced : d.announced with
  | false => simpa [send, announced, Screen.announce] using .nil false
  | true =>
    simpa [send, announced, Screen.announce, TypingSignal.isTyping] using .typing (.nil false)

/-- The end is announced in time only if the beginning was, since otherwise it is not due. -/
theorem Coherent.poll_paired (coherent : d.Coherent) (now : Nat) :
    Paired d.announced (Screen.announce (d.poll now).2) (d.poll now).1.announced ∧
      (d.poll now).1.Coherent := by
  rw [poll]
  split
  · next due =>
    have announced : d.announced = true := by
      rw [coherent]
      cases deadline : d.deadline with
      | none => simp [isDue, deadline] at due
      | some t => rfl
    rw [announced]
    exact ⟨.typing (.nil false), rfl⟩
  · exact ⟨.nil _, coherent⟩

end Debouncer

/-! ## The terminal -/

namespace Screen

variable {s s' : Screen} {commands : List SessionCommand}

/-- A signal that is open is ended before a command that is none. -/
theorem paired_afterTyping (s : Screen) {c : SessionCommand} (silent : c.typing? = none) :
    Paired s.debouncer.announced (announce s.debouncer.send.2 ++ [c]) false :=
  s.debouncer.send_paired.1.append (.other silent (.nil false))

/-- The commands that a line issues go on from where the debouncer stands, and leave it where they
end. -/
theorem Issues.paired (issues : s.Issues commands s') (coherent : s.debouncer.Coherent) :
    Paired s.debouncer.announced commands s'.debouncer.announced ∧ s'.debouncer.Coherent := by
  cases issues with
  | nothing => exact ⟨.nil _, coherent⟩
  | keystroke now => exact s.debouncer.keystroke_paired now
  | poll now => exact coherent.poll_paired now
  | send => exact ⟨s.paired_afterTyping rfl, s.debouncer.send_paired.2⟩
  | select => exact ⟨s.paired_afterTyping rfl, s.debouncer.send_paired.2⟩
  | leave => exact ⟨s.paired_afterTyping rfl, s.debouncer.send_paired.2⟩

end Screen

namespace Console

variable {s : Console}

/-! ## Every run -/

/-- A signal is open after all that was issued if and only if the debouncer has one open. -/
structure Signalled (s : Console) : Prop where
  coherent : s.screen.debouncer.Coherent
  paired : Paired false s.issued s.screen.debouncer.announced

private theorem signalled_step (h : s.Signalled) (m : Move) : (s.step m).Signalled := by
  have moves := s.step_moves m
  generalize s.step m = s' at moves
  generalize s.happens m = happens at moves
  cases moves with
  | stay => exact h
  | issue commands screen done issues =>
    have next := issues.paired h.coherent
    exact ⟨next.2, h.paired.append next.1⟩
  | take => exact ⟨h.coherent, h.paired⟩
  | other => exact ⟨h.coherent, h.paired⟩

private theorem signalled_run (h : s.Signalled) (moves : List Move) : (s.run moves).Signalled := by
  induction moves generalizing s with
  | nil => exact h
  | cons m moves ih => exact ih (signalled_step h m)

/-- The first command is the one that selects the room, and no signal is open. -/
theorem signalled_start (screen : Screen) (client : Client)
    (silent : screen.debouncer.announced = false) (unset : screen.debouncer.deadline = none) :
    (start screen client).Signalled where
  coherent := by
    change screen.debouncer.announced = screen.debouncer.deadline.isSome
    rw [silent, unset]
    rfl
  paired := by
    change Paired false _ screen.debouncer.announced
    rw [silent]
    exact .other rfl (.nil false)

/-! ## The end of a run -/

/-- The user leaves with this move. -/
inductive Move.Ends : Move → Prop
  | leave : Ends .leave
  | quit (text : String) (asks : Command.parse (Text.trim text) = .ok .quit) : Ends (.line text)

/-- When the user has left, the last command is the one that shuts the client down. -/
def Closed (s : Console) : Prop := s.done = true → s.issued.getLast? = some .shutdown

private theorem closed_leave (h : s.Closed) : s.leave.Closed := by
  rw [leave]
  split
  · exact h
  · intro _
    simp [perform, Screen.leave, Screen.afterTyping]

/-- As long as the user is there, nothing is claimed. -/
theorem closed_perform (r : Reaction) (here : s.done = false) : (s.perform r).Closed :=
  fun left => absurd (here.symm.trans left) (by decide)

private theorem closed_step (h : s.Closed) (m : Move) : (s.step m).Closed := by
  cases m with
  | line text =>
    simp only [step, line]
    split
    · exact h
    · next goes =>
      have here : s.done = false := by
        simp only [Bool.or_eq_true, not_or, Bool.not_eq_true] at goes
        exact goes.1
      split
      · exact closed_leave (closed_perform _ here)
      · exact closed_perform _ here
  | poll =>
    rw [step, poll]
    split
    · exact h
    · next here => exact closed_perform _ (by simpa using here)
  | leave => exact closed_leave h
  -- What the client does is no command of the terminal.
  | take =>
    rw [step]
    split <;> exact h
  | other =>
    rw [step]
    split <;> exact h

private theorem closed_run (h : s.Closed) (moves : List Move) : (s.run moves).Closed := by
  induction moves generalizing s with
  | nil => exact h
  | cons m moves ih => exact ih (closed_step h m)

/-- Whoever leaves has left. -/
theorem done_leave (s : Console) : s.leave.done = true := by
  rw [leave]
  split
  · assumption
  · rfl

/-- An empty line would be a message. -/
theorem isEmpty_of_parse {text : String} {c : Command} (asks : Command.parse text = .ok c)
    (other : c ≠ .say "") : text.isEmpty = false := by
  cases empty : text.isEmpty with
  | false => rfl
  | true =>
    have message : Command.parse "" = .ok (.say "") := by decide
    rw [String.isEmpty_iff.1 empty, message] at asks
    exact absurd (Except.ok.inj asks).symm other

private theorem done_step_of_ends {m : Move} (ends : m.Ends) : (s.step m).done = true := by
  cases ends with
  | leave => exact s.done_leave
  | quit text asks =>
    simp only [step, line, isEmpty_of_parse asks (by decide), Bool.or_false]
    split
    · assumption
    · simp [Screen.enter, asks, Screen.obey, done_leave]

/-- A user who types is seen typing. -/
theorem announced_step_of_typing {text : String} (here : s.done = false)
    (asks : Command.parse (Text.trim text) = .ok .typing) :
    (s.step (.line text)).screen.debouncer.announced = true := by
  simp [step, line, here, isEmpty_of_parse asks (by decide), Screen.enter, asks,
    Screen.obey, perform, Debouncer.keystroke]

/-- Whatever is typed, however often the terminal looks whether the typing has ended, and however
much time passes meanwhile, the signals about typing begin with a start and alternate. None of them
is left open across a message or a change of the room. A user who types has a signal open then. When
the user leaves, the last command is to shut down, and no signal is left open. -/
theorem run_orderly (user : UserId) (room : RoomId) (offset : Int) (idle : Nat) (client : Client)
    (moves : List Move) :
    let s := (start { user, room, offset, debouncer := { idle } } client).run moves
    Orderly s.issued ∧
      (∀ text, s.done = false → Command.parse (Text.trim text) = .ok .typing →
        (typings (s.step (.line text)).issued).getLast? = some true) ∧
      ∀ m : Move, m.Ends → ∃ before, (s.step m).issued = before ++ [.shutdown] ∧
        Orderly (s.step m).issued ∧ (typings (s.step m).issued).getLast? ≠ some true := by
  intro s
  have signalled : s.Signalled := signalled_run (signalled_start _ client rfl rfl) moves
  have closed : s.Closed := closed_run (fun left => nomatch (left : false = true)) moves
  refine ⟨signalled.paired.orderly, fun text here asks => ?_, fun m ends => ?_⟩
  · have open_ := (signalled_step signalled (.line text)).paired.last_eq
    rw [announced_step_of_typing here asks] at open_
    cases last : (typings (s.step (.line text)).issued).getLast? with
    | none => simp [last] at open_
    | some on =>
      rw [last, Option.getD_some] at open_
      rw [← open_]
  · have last := closed_step closed m (done_step_of_ends ends)
    obtain ⟨before, issued⟩ := List.getLast?_eq_some_iff.1 last
    -- Before the client shuts down all signals are closed.
    have orderly := (signalled_step signalled m).paired.orderly
    refine ⟨before, issued, orderly, ?_⟩
    have resting := orderly.rested before .shutdown [] issued rfl
    rw [issued]
    simpa [typings, SessionCommand.typing?] using resting

end Console

/-! ### A detour

Typing ends by itself, by another room, by a message, and by the end. -/

namespace Detour

def hesitation : List Console.Move := [
  .line "/typing", .other (.pass 2000), .poll, .line "/typing", .line "/typing",
  .line "/room attic", .poll, .line "/typing", .line "/reply 7 to nobody", .line "two",
  .line "three", .line "/typing"]

end Detour

theorem run_orderly_detour :
    (Console.Move.line " /quit ").Ends ∧
      typings ((Detour.console.run Detour.hesitation).step (.line " /quit ")).issued =
        [true, false, true, false, true, false, true, false] ∧
      Orderly ((Detour.console.run Detour.hesitation).step (.line " /quit ")).issued := by
  have ends : (Console.Move.line " /quit ").Ends := .quit _ (by decide)
  have orderly := Console.run_orderly Detour.profile.user Detour.lobby 0 2000 Detour.console.client
    Detour.hesitation
  obtain ⟨-, -, rest, -⟩ := orderly.2.2 _ ends
  exact ⟨ends, by decide +kernel, rest⟩

end ChatClient
