import ChatClient.Session.Client

/-!
# Runs of a client

A client takes turns. In a turn it handles a command, looks at the oldest outcome, listens to its
link, or finds that a wait is over. Nothing is said about which of these comes next, and between two
turns anything may happen around the client: servers settle attempts, push texts and end links, time
passes, and the disk changes or gets new faults. A run is a sequence of such happenings in any
order. One that is not possible where it stands changes nothing.

## Main definitions

* `Turn`, `Happening`, `Client.step`, `Client.run`
* `Client.record`: what is noted along a run
* `Client.leaves`, `Client.teardowns`: which happenings end a session, and how many do in a run
-/

namespace ChatClient

/-- What a client can do next. -/
inductive Turn
  | command (c : SessionCommand)
  /-- Look at the oldest outcome. -/
  | outcome
  /-- Take the next text from the link in use, or find that the link has ended. -/
  | listen
  | timer

/-- What can happen next, by the client or around it. Attempts and links go by their numbers. -/
inductive Happening
  | turn (t : Turn)
  | settle (attempt : Nat) (h : Handshake)
  | push (link : Nat) (text : String)
  /-- The server takes no more frames. -/
  | deafen (link : Nat)
  /-- The server pushes no more texts. -/
  | hangUp (link : Nat)
  /-- Milliseconds pass. -/
  | pass (ms : Nat)
  /-- The clock on the wall shows something else. -/
  | clock (time : Timestamp)
  | disk (d : Disk)

/-- A text that a client takes from its link. -/
structure Reading where
  link : Nat
  /-- The room that the link was opened for. -/
  room : RoomId
  text : String
  /-- What the clock on the wall shows then. -/
  time : Timestamp

namespace Client

/-- The next text on the link in use. -/
def reading? (c : Client) : Option Reading := do
  let i ← c.link
  let l ← c.links[i]?
  let text ← l.next?
  return ⟨i, l.room, text, c.clock⟩

/-- The client looks at the oldest outcome. -/
def outcome? (c : Client) : Option Client :=
  match c.outcomes with
  | [] => none
  | o :: outcomes => some <| { c with outcomes }.handle (.outcome o)

/-- The client takes the next text from its link, or finds the link ended after the last one. -/
def listen? (c : Client) : Option Client :=
  match c.reading? with
  | some r =>
    some <| { c with toNetwork := c.toNetwork.onLink r.link Link.take }.handle (.text r.text)
  | none =>
    match c.currentLink? with
    | some l => if l.ended then some (c.handle .linkClosed) else none
    | none => none

/-- The client acts if its time has come. -/
def timer? (c : Client) : Option Client :=
  match c.timer with
  | none => none
  | some due => if due ≤ c.now then some (c.handle .timer) else none

/-- The client takes a turn, unless it has stopped. -/
def turn (c : Client) (t : Turn) : Client :=
  if c.stopped then c
  else
    match t with
    | .command command => c.handle (.command command)
    | .outcome => c.outcome?.getD c
    | .listen => c.listen?.getD c
    | .timer => c.timer?.getD c

/-- The client after something has happened. -/
def step (c : Client) : Happening → Client
  | .turn t => c.turn t
  | .settle i h =>
    let network := c.toNetwork.settleLate i h
    -- An outcome that nobody is going to look at is let go at once.
    { c with toNetwork := if c.stopped then network.dropOutcomes else network }
  | .push i text =>
    { c with toNetwork := c.toNetwork.onLink i fun l => if l.listening then l.push text else l }
  | .deafen i => { c with toNetwork := c.toNetwork.onLink i Link.deafen }
  | .hangUp i => { c with toNetwork := c.toNetwork.onLink i Link.hangUp }
  | .pass ms => { c with now := c.now + ms }
  | .clock time => { c with clock := time }
  | .disk disk => { c with disk }

/-- The client after things have happened one after the other. -/
def run (c : Client) (hs : List Happening) : Client := hs.foldl step c

/-- What is noted along a run, where `note` says what is noted of one thing that happens to a
client. -/
def record {α : Type} (note : Client → Happening → List α) : Client → List Happening → List α
  | _, [] => []
  | c, h :: hs => note c h ++ record note (c.step h) hs

/-- The client ends its session when this happens. -/
def leaves (c : Client) : Happening → Bool
  | .turn (.command (.select room)) => !c.stopped && !c.stays room
  | .turn (.command .shutdown) => !c.stopped
  | _ => false

/-- How many sessions are ended in a run. -/
def teardowns (c : Client) (hs : List Happening) : Nat :=
  (c.record (fun c h => if c.leaves h then [c.epoch] else []) hs).length

/-- A client that has stopped takes no more turns. -/
theorem step_of_stopped {c : Client} (stopped : c.stopped = true) (t : Turn) :
    c.step (.turn t) = c :=
  if_pos stopped

/-- It leaves no room either. -/
theorem leaves_of_stopped {c : Client} (stopped : c.stopped = true) (t : Turn) :
    c.leaves (.turn t) = false := by
  unfold leaves
  split <;> simp [stopped]

theorem step_of_running {c : Client} (running : c.stopped = false) (t : Turn) :
    c.step (.turn t) = match t with
      | .command command => c.handleCommand command
      | .outcome => c.outcome?.getD c
      | .listen => c.listen?.getD c
      | .timer => c.timer?.getD c := by
  simp only [step, turn, running, Bool.false_eq_true, if_false]
  cases t <;> rfl

/-- A client that has stopped does not start again. -/
theorem stopped_step {c : Client} (stopped : c.stopped = true) (h : Happening) :
    (c.step h).stopped = true := by
  cases h with
  | turn t =>
    rw [step_of_stopped stopped]
    exact stopped
  | _ => exact stopped

section Runs

variable {α : Type} (note : Client → Happening → List α) (c : Client)

@[simp] theorem run_nil : c.run [] = c := rfl

@[simp] theorem run_cons (h : Happening) (hs : List Happening) :
    c.run (h :: hs) = (c.step h).run hs := rfl

@[simp] theorem run_append (hs hs' : List Happening) :
    c.run (hs ++ hs') = (c.run hs).run hs' :=
  List.foldl_append

@[simp] theorem record_nil : c.record note [] = [] := rfl

@[simp] theorem record_cons (h : Happening) (hs : List Happening) :
    c.record note (h :: hs) = note c h ++ (c.step h).record note hs := rfl

@[simp] theorem record_append (hs hs' : List Happening) :
    c.record note (hs ++ hs') = c.record note hs ++ (c.run hs).record note hs' := by
  induction hs generalizing c with
  | nil => rfl
  | cons h hs ih => simp [ih]

@[simp] theorem teardowns_nil : c.teardowns [] = 0 := rfl

@[simp] theorem teardowns_cons (h : Happening) (hs : List Happening) :
    c.teardowns (h :: hs) = (c.leaves h).toNat + (c.step h).teardowns hs := by
  unfold teardowns
  rw [record_cons, List.length_append]
  cases c.leaves h <;> rfl

@[simp] theorem teardowns_append (hs hs' : List Happening) :
    c.teardowns (hs ++ hs') = c.teardowns hs + (c.run hs).teardowns hs' := by
  simp [teardowns]

end Runs

end Client

end ChatClient
