/-!
# Between a socket and a link

A link is joined to a socket by two workers, and to each of them by a channel. The reader puts the
texts that arrive on the socket into its channel, until the socket ends or the client takes no more
of them. The writer takes the frames of the client out of its channel and writes them to the socket.
When the client has given up the link, the writer first writes what is left and then closes the
socket. After a failure it writes no more. A worker that ends its work leaves its channel, by which
the client can tell.

The client and the workers act side by side. A worker takes a turn at a time, from one place where
it may have to wait to the next. Nothing is said about who acts next, and a deed that is not
possible changes nothing.

## Main definitions

* `Channel`: what is put in waits to be taken out
* `SocketEvent`, `SocketWrite`: what arrives on a socket, and what is written to it
* `Bridge`, `Bridge.read`, `Bridge.write`: the workers and their turns
* `Bridge.send`, `Bridge.recv`, `Bridge.close`, `Bridge.drop`: the client and its link
* `Bridge.run`, `Bridge.trace`: what becomes of a bridge, and what is noted on the way
-/

namespace ChatClient

/-- A channel from one party to another. -/
structure Channel where
  /-- What was put in and not taken out. -/
  items : List String := []
  /-- There is somebody who can put something in. -/
  fed : Bool := true
  /-- Somebody takes out what is put in. -/
  tapped : Bool := true
  deriving DecidableEq

/-- What comes of an attempt to take something out of a channel. -/
inductive Receipt
  | item (s : String)
  /-- There may be something later. -/
  | pending
  /-- There will be nothing more. -/
  | ended
  deriving DecidableEq

namespace Channel

/-- Puts something in, if it is going to be taken out. -/
def put? (c : Channel) (s : String) : Option Channel :=
  if c.tapped then some { c with items := c.items ++ [s] } else none

/-- Something may still be put in and taken out. -/
def live (c : Channel) : Bool := c.fed && c.tapped

/-- Takes out what was put in first. The end is found only after all that is still there. -/
def take (c : Channel) : Channel × Receipt :=
  match c.items with
  | s :: items => ({ c with items }, .item s)
  | [] => (c, if c.live then .pending else .ended)

/-- Nothing more is put in. -/
def endFeed (c : Channel) : Channel := { c with fed := false }

/-- Nothing more is taken out. -/
def endTap (c : Channel) : Channel := { c with tapped := false }

section Laws

variable {c : Channel} {s : String} {items : List String}

theorem put?_of_tapped (tapped : c.tapped = true) :
    c.put? s = some { c with items := c.items ++ [s] } :=
  if_pos tapped

theorem put?_of_closed (closed : c.tapped = false) : c.put? s = none := by
  rw [put?, closed]
  rfl

theorem take_of_cons (next : c.items = s :: items) : c.take = ({ c with items }, .item s) := by
  rw [take, next]

theorem take_of_live (empty : c.items = []) (live : c.live = true) : c.take = (c, .pending) := by
  simp only [take, empty, live, if_true]

theorem take_of_dead (empty : c.items = []) (dead : c.live = false) : c.take = (c, .ended) := by
  simp only [take, empty, dead, Bool.false_eq_true, if_false]

end Laws

end Channel

/-- What arrives on a socket. -/
inductive SocketEvent
  | text (s : String)
  | binary (bytes : List UInt8)
  | ping (bytes : List UInt8)
  | pong (bytes : List UInt8)
  | close
  /-- Reading has failed. -/
  | failure
  /-- There is nothing more to read. -/
  | ended
  deriving DecidableEq

/-- What is written to a socket. -/
inductive SocketWrite
  | text (s : String)
  | close
  deriving DecidableEq

namespace Bridge

/-- What the reader is about to do. -/
inductive Reader
  /-- It reads from the socket. -/
  | listening
  /-- It hands a text to the client. -/
  | handing (s : String)
  | done
  deriving DecidableEq

/-- What the writer is about to do. -/
inductive Writer
  /-- It looks for a frame of the client. -/
  | waiting
  /-- It writes a frame to the socket. -/
  | writing (s : String)
  /-- It closes the socket. -/
  | closing
  | done
  deriving DecidableEq

/-- What the client has of the link. -/
inductive Hold
  | held
  /-- The client takes no more texts and is about to give up the link. -/
  | closing
  | dropped
  deriving DecidableEq

end Bridge

open Bridge in
/-- A socket and a link, and the workers between them. -/
structure Bridge where
  /-- What arrives on the socket and was not read. -/
  arriving : List SocketEvent
  reader : Reader := .listening
  /-- From the reader to the client. -/
  inbound : Channel := {}
  link : Hold := .held
  /-- From the client to the writer. -/
  outbound : Channel := {}
  writer : Writer := .waiting
  deriving DecidableEq

namespace Bridge

/-- What is noted of a deed. -/
inductive Notice
  /-- The reader puts a text into the channel. -/
  | offered (s : String)
  /-- The client does not take the text any more. -/
  | refused (s : String)
  /-- The client takes a text out of the channel. -/
  | taken (s : String)
  /-- The client finds that there are no more. -/
  | ended
  | accepted (s : String)
  /-- There is nobody to write the frame. -/
  | rejected (s : String)
  | written (w : SocketWrite)
  | failed (w : SocketWrite)
  deriving DecidableEq

/-- What can happen next. -/
inductive Deed
  | read
  /-- The writer takes a turn. If it writes, `ok` says whether the socket takes what is written. -/
  | write (ok : Bool)
  | send (s : String)
  | recv
  | close
  | drop
  deriving DecidableEq

/-- A bridge over which nothing has gone yet. -/
def start (arrived : List SocketEvent) : Bridge := { arriving := arrived }

variable (b : Bridge)

/-- The reader ends its work. -/
def endReading : Bridge := { b with reader := .done, inbound := b.inbound.endFeed }

/-- The writer ends its work. -/
def endWriting : Bridge := { b with writer := .done, outbound := b.outbound.endTap }

/-- The reader has read something from the socket. What is no text is passed over. -/
def hear : SocketEvent → Bridge
  | .text s => { b with reader := .handing s }
  | .binary _ | .ping _ | .pong _ => b
  | .close | .failure | .ended => b.endReading

/-- The reader takes a turn. -/
def read : Bridge × Option Notice :=
  match b.reader with
  | .listening =>
    match b.arriving with
    | [] => (b, none)
    | e :: arriving => ({ b with arriving }.hear e, none)
  | .handing s =>
    match b.inbound.put? s with
    | some inbound => ({ b with reader := .listening, inbound }, some (.offered s))
    | none => (b.endReading, some (.refused s))
  | .done => (b, none)

/-- The writer takes a turn. -/
def write (ok : Bool) : Bridge × Option Notice :=
  match b.writer with
  | .waiting =>
    match b.outbound.take with
    | (outbound, .item s) => ({ b with writer := .writing s, outbound }, none)
    | (_, .pending) => (b, none)
    | (_, .ended) => ({ b with writer := .closing }, none)
  | .writing s =>
    if ok then ({ b with writer := .waiting }, some (.written (.text s)))
    else (b.endWriting, some (.failed (.text s)))
  | .closing => (b.endWriting, some (if ok then .written .close else .failed .close))
  | .done => (b, none)

/-- The client sends a frame. -/
def send (s : String) : Bridge × Option Notice :=
  if b.link = .held then
    match b.outbound.put? s with
    | some outbound => ({ b with outbound }, some (.accepted s))
    | none => (b, some (.rejected s))
  else (b, none)

/-- The client looks for a text. -/
def recv : Bridge × Option Notice :=
  if b.link = .held then
    match b.inbound.take with
    | (inbound, .item s) => ({ b with inbound }, some (.taken s))
    | (_, .pending) => (b, none)
    | (_, .ended) => (b, some .ended)
  else (b, none)

/-- The client takes no more texts. It cannot do anything else then but give up the link. -/
def close : Bridge :=
  if b.link = .held then { b with link := .closing, inbound := b.inbound.endTap } else b

/-- The client gives up the link, be it closed or not. -/
def drop : Bridge :=
  { b with link := .dropped, inbound := b.inbound.endTap, outbound := b.outbound.endFeed }

/-- The bridge after a deed, with what is noted of it. -/
def act : Deed → Bridge × Option Notice
  | .read => b.read
  | .write ok => b.write ok
  | .send s => b.send s
  | .recv => b.recv
  | .close => (b.close, none)
  | .drop => (b.drop, none)

/-- The bridge after deeds one after the other. -/
def run (ds : List Deed) : Bridge := ds.foldl (fun b d => (b.act d).1) b

/-- What is noted along a run. -/
def trace : Bridge → List Deed → List Notice
  | _, [] => []
  | b, d :: ds => (b.act d).2.toList ++ trace (b.act d).1 ds

@[simp] theorem run_nil : b.run [] = b := rfl

@[simp] theorem run_cons (d : Deed) (ds : List Deed) : b.run (d :: ds) = (b.act d).1.run ds := rfl

@[simp] theorem run_append (ds ds' : List Deed) : b.run (ds ++ ds') = (b.run ds).run ds' :=
  List.foldl_append

@[simp] theorem trace_nil : b.trace [] = [] := rfl

@[simp] theorem trace_cons (d : Deed) (ds : List Deed) :
    b.trace (d :: ds) = (b.act d).2.toList ++ (b.act d).1.trace ds := rfl

@[simp] theorem trace_append (ds ds' : List Deed) :
    b.trace (ds ++ ds') = b.trace ds ++ (b.run ds).trace ds' := by
  induction ds generalizing b with
  | nil => rfl
  | cons d ds ih => simp [ih]

end Bridge

end ChatClient
