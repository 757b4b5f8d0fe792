import ChatClient.Session.Run

/-!
# A client in virtual time

A client is run against servers that follow a script. Every attempt gets the next answer of the
script, and none once the script is used up; an attempt without an answer waits until somebody
settles it. Time stands still while anything can happen, and passes only when it is told to.

## Main definitions

* `Simulation`
* `Simulation.advance?`: the next thing that can happen without time passing
* `Simulation.settle`, `Simulation.wait`: all such things, and all things until a time
* `WorldStep`, `Simulation.apply`: what is done to the world around the client
* `Simulation.Act`, `Simulation.play`: what is done one after the other
* `Client.changes`: what an observer has noticed between two moments
-/

namespace ChatClient

/-- A client with the answers to its coming attempts; nothing as an answer leaves the attempt
waiting. -/
structure Simulation where
  client : Client
  script : List (Option Handshake) := []
  /-- How many attempts have been given their answer. -/
  answered : Nat := 0

namespace Simulation

/-- The client handles a command, unless it has stopped. -/
def command (s : Simulation) (c : SessionCommand) : Simulation :=
  { s with client := s.client.turn (.command c) }

/-- The server answers the oldest attempt that has no answer yet. -/
def answer? (s : Simulation) : Option Simulation :=
  if s.answered < s.client.attempts.length then
    some <|
      match s.script with
      | [] => { s with answered := s.answered + 1 }
      | none :: script => { s with answered := s.answered + 1, script }
      | some h :: script =>
        { answered := s.answered + 1
          script
          client := { s.client with toNetwork := s.client.toNetwork.settle s.answered h } }
  else none

/-- The simulation with its client after a turn, if the client can take it. -/
def after (s : Simulation) (c : Option Client) : Option Simulation :=
  c.map fun client => { s with client }

/-- The time at which the client wants to act by itself. -/
def due? (s : Simulation) : Option Nat :=
  if s.client.stopped then none else s.client.timer

/-- The client acts if its time has come. -/
def timer? (s : Simulation) : Option Simulation :=
  if s.client.stopped then none else s.after s.client.timer?

/-- The next thing that can happen without time passing. -/
def advance? (s : Simulation) : Option Simulation :=
  if s.client.stopped then none
  else
    s.answer? <|> s.after s.client.outcome? <|> s.after s.client.listen? <|> s.timer?

/-- How many things can happen at most before time has to pass: a text is taken once, and whatever
ends an attempt or a link is followed by at most two things before the script is needed again. -/
def patience (s : Simulation) : Nat :=
  let c := s.client
  let texts := c.links.foldl (fun n l => n + (l.pushed.length - l.taken)) 0
  3 * (s.script.length + c.outcomes.length + c.links.length + c.attempts.length) + texts + 8

/-- Lets everything happen that can happen without time passing, at most `fuel` things. -/
def settleFrom : (fuel : Nat) → Simulation → Simulation
  | 0, s => s
  | fuel + 1, s =>
    match s.advance? with
    | none => s
    | some s => settleFrom fuel s

/-- Lets everything happen that can happen without time passing. -/
def settle (s : Simulation) : Simulation := settleFrom s.patience s

/-- The simulation at a later time. -/
def atTime (s : Simulation) (now : Nat) : Simulation :=
  { s with client := { s.client with now := max s.client.now now } }

/-- Lets time pass until `deadline`. The client acts whenever its time comes, at most `fuel`
times. -/
def waitFrom : (fuel : Nat) → (deadline : Nat) → Simulation → Simulation
  | 0, deadline, s => s.atTime deadline
  | fuel + 1, deadline, s =>
    match s.due? with
    | none => s.atTime deadline
    | some due =>
      if due ≤ deadline then waitFrom fuel deadline (s.atTime due).settle else s.atTime deadline

/-- Lets time pass. -/
def wait (s : Simulation) (ms : Nat) : Simulation :=
  waitFrom (s.script.length + 2) (s.client.now + ms) s

end Simulation

/-! ## The world around the client -/

/-- What can be done to the world around the client. Where a link is meant, the newest one is taken
unless another is named. -/
inductive WorldStep
  /-- The server settles the attempt that waits. -/
  | settle (h : Handshake)
  | push (link : Option Nat) (text : String)
  /-- The server ends the connection. -/
  | drop (link : Option Nat)
  /-- The server takes no more frames. -/
  | deafen (link : Option Nat)
  | files (c : Tree.Change)
  deriving DecidableEq

namespace Simulation

/-- The link that is meant, if it can be acted on. -/
def target? (s : Simulation) (link : Option Nat) (p : Link → Bool) : Option Nat :=
  let i := link.getD (s.client.links.length - 1)
  match s.client.links[i]? with
  | some l => if p l then some i else none
  | none => none

/-- Acts on a link if there is one that can be acted on, and says whether there is. -/
def onLink (s : Simulation) (link : Option Nat) (p : Link → Bool) (f : Link → Link) :
    Simulation × Option Bool :=
  match s.target? link p with
  | some i => ({ s with client.toNetwork := s.client.toNetwork.onLink i f }, some true)
  | none => (s, some false)

/-- Does something to the world. The result says whether it could be done, where it might not be
possible. -/
def apply (s : Simulation) : WorldStep → Simulation × Except FileError (Option Bool)
  | .settle h =>
    match s.client.pending with
    | some i => ({ s with client := s.client.step (.settle i h) }, .ok (some true))
    | none => (s, .ok (some false))
  | .push link text =>
    let (s, done) := s.onLink link Link.listening (Link.push · text)
    (s, .ok done)
  | .drop link =>
    let (s, done) := s.onLink link (fun l => !l.ended) Link.finish
    (s, .ok done)
  | .deafen link =>
    let (s, done) := s.onLink link Link.reads Link.deafen
    (s, .ok done)
  | .files change =>
    let (tree, done) := s.client.disk.tree.change change
    ({ s with client.disk.tree := tree }, done.map fun _ => none)

/-- What can be done with a simulation. -/
inductive Act
  | command (c : SessionCommand)
  | world (w : WorldStep)
  | wait (ms : Nat)
  | settle

def act (s : Simulation) : Act → Simulation
  | .command c => s.command c
  | .world w => (s.apply w).1
  | .wait ms => s.wait ms
  | .settle => s.settle

/-- Does one thing after the other. -/
def play (s : Simulation) (acts : List Act) : Simulation := acts.foldl act s

end Simulation

/-! ## What an observer notices -/

/-- What has changed between two moments. -/
structure Changes where
  /-- The changes of the chat that were announced. -/
  updates : List ChatUpdate
  /-- The state of the connection was announced. -/
  notified : Bool
  /-- The frames that servers have taken, by the numbers of their links, and those of one link in
  their order. -/
  sent : List (Nat × Wire.Frame)
  /-- The links that the client has closed. -/
  closed : List Nat
  /-- The attempts that were started. -/
  attempts : List Attempt

/-- What has changed since an earlier moment. A link that the server had ended by then cannot be
closed any more, and a client that has stopped announces nothing. -/
def Client.changes (before after : Client) : Changes where
  updates := after.feed.drop before.feed.length
  notified := !after.stopped && before.publications != after.publications
  sent := (after.accepted.drop before.accepted.length).mergeSort fun a b => decide (a.1 ≤ b.1)
  closed := (after.links.zipIdx.filter fun (l, i) =>
    l.closed && !l.ended && !(before.links[i]?.map Link.closed).getD false).map Prod.snd
  attempts := after.attempts.drop before.attempts.length

end ChatClient
