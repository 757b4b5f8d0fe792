import ChatClient.Socket.Bridge
import Mathlib.Tactic.Common

/-!
# What is done on a bridge

Three act on a bridge, the reader, the writer and the client, and each of their deeds can go in a
few ways. They are told here once, with all that has to be so for them to happen. What holds along
every run is then shown by going through them. A run is known by what was noted of it, from which it
can be told which texts were offered and taken, and which frames were accepted and written.

## Main definitions

* `Bridge.Rests`: nothing comes of a deed
* `Bridge.Does`: all that can come of one
* `Notice.offered?` and its like: the texts and frames of one kind among what was noted

## Main results

* `act_does`: a deed goes in one of these ways
* `run_keeps`: what every deed keeps holds along every run
* `forall_mem_trace`: what can be noted as long as something stays so
-/

namespace ChatClient.Bridge

/-- Nothing comes of the deed where the bridge stands. -/
def Rests (b : Bridge) : Deed → Prop
  | .read => b.reader = .done ∨ b.reader = .listening ∧ b.arriving = []
  | .write _ => b.writer = .done ∨
      b.writer = .waiting ∧ b.outbound.items = [] ∧ b.outbound.live = true
  | .send _ | .close => b.link ≠ .held
  | .recv => b.link ≠ .held ∨ b.inbound.items = [] ∧ b.inbound.live = true
  | .drop => False

variable {b : Bridge}

/-- All that can come of a deed: what is noted of it, and the bridge afterwards. -/
inductive Does (b : Bridge) : Deed → Option Notice → Bridge → Prop
  | rest (d : Deed) (rests : b.Rests d) : Does b d none b
  /-- The reader has something from the socket. -/
  | hear (e : SocketEvent) (arriving : List SocketEvent) (listening : b.reader = .listening)
      (next : b.arriving = e :: arriving) : Does b .read none ({ b with arriving }.hear e)
  | offer (s : String) (handing : b.reader = .handing s) (tapped : b.inbound.tapped = true) :
      Does b .read (some (.offered s))
        { b with
          reader := .listening
          inbound := { b.inbound with items := b.inbound.items ++ [s] } }
  | refuse (s : String) (handing : b.reader = .handing s) (closed : b.inbound.tapped = false) :
      Does b .read (some (.refused s)) b.endReading
  /-- The writer has a frame of the client. -/
  | pick (ok : Bool) (s : String) (items : List String) (waiting : b.writer = .waiting)
      (next : b.outbound.items = s :: items) :
      Does b (.write ok) none { b with writer := .writing s, outbound := { b.outbound with items } }
  /-- The writer finds that there are no more. -/
  | finish (ok : Bool) (waiting : b.writer = .waiting) (empty : b.outbound.items = [])
      (dead : b.outbound.live = false) :
      Does b (.write ok) none { b with writer := .closing }
  | written (s : String) (writing : b.writer = .writing s) :
      Does b (.write true) (some (.written (.text s))) { b with writer := .waiting }
  | failed (s : String) (writing : b.writer = .writing s) :
      Does b (.write false) (some (.failed (.text s))) b.endWriting
  | closed (closing : b.writer = .closing) :
      Does b (.write true) (some (.written .close)) b.endWriting
  | unclosed (closing : b.writer = .closing) :
      Does b (.write false) (some (.failed .close)) b.endWriting
  | accept (s : String) (held : b.link = .held) (tapped : b.outbound.tapped = true) :
      Does b (.send s) (some (.accepted s))
        { b with outbound := { b.outbound with items := b.outbound.items ++ [s] } }
  | reject (s : String) (held : b.link = .held) (closed : b.outbound.tapped = false) :
      Does b (.send s) (some (.rejected s)) b
  | take (s : String) (items : List String) (held : b.link = .held)
      (next : b.inbound.items = s :: items) :
      Does b .recv (some (.taken s)) { b with inbound := { b.inbound with items } }
  | ended (held : b.link = .held) (empty : b.inbound.items = [])
      (dead : b.inbound.live = false) : Does b .recv (some .ended) b
  | close (held : b.link = .held) :
      Does b .close none { b with link := .closing, inbound := b.inbound.endTap }
  | drop : Does b .drop none b.drop

/-! ## One deed -/

/-- What comes of a turn of the reader is told by `Does`. -/
theorem read_does (b : Bridge) : b.Does .read b.read.2 b.read.1 := by
  rw [read]
  split
  · next listening =>
    split
    · next empty => exact .rest _ (.inr ⟨listening, empty⟩)
    · next e arriving next => exact .hear e arriving listening next
  · next s handing =>
    by_cases tapped : b.inbound.tapped = true
    · rw [Channel.put?_of_tapped tapped]
      exact .offer s handing tapped
    · rw [Bool.not_eq_true] at tapped
      rw [Channel.put?_of_closed tapped]
      exact .refuse s handing tapped
  · next done => exact .rest _ (.inl done)

/-- What comes of a turn of the writer is told by `Does`. -/
theorem write_does (b : Bridge) (ok : Bool) : b.Does (.write ok) (b.write ok).2 (b.write ok).1 := by
  rw [write]
  split
  · next waiting =>
    -- A writer with no frame waits as long as the client may still send one.
    cases items : b.outbound.items with
    | cons s items =>
      rw [Channel.take_of_cons items]
      exact .pick ok s _ waiting items
    | nil =>
      cases live : b.outbound.live with
      | true =>
        rw [Channel.take_of_live items live]
        exact .rest _ (.inr ⟨waiting, items, live⟩)
      | false =>
        rw [Channel.take_of_dead items live]
        exact .finish ok waiting items live
  · next s writing =>
    cases ok with
    | true => exact .written s writing
    | false => exact .failed s writing
  · next closing =>
    cases ok with
    | true => exact .closed closing
    | false => exact .unclosed closing
  · next done => exact .rest _ (.inl done)

/-- What comes of a frame that the client sends is told by `Does`. -/
theorem send_does (b : Bridge) (s : String) : b.Does (.send s) (b.send s).2 (b.send s).1 := by
  rw [send]
  split
  · next held =>
    by_cases tapped : b.outbound.tapped = true
    · rw [Channel.put?_of_tapped tapped]
      exact .accept s held tapped
    · rw [Bool.not_eq_true] at tapped
      rw [Channel.put?_of_closed tapped]
      exact .reject s held tapped
  · next free => exact .rest _ free

/-- What comes of the client looking for a text is told by `Does`. -/
theorem recv_does (b : Bridge) : b.Does .recv b.recv.2 b.recv.1 := by
  rw [recv]
  split
  · next held =>
    cases items : b.inbound.items with
    | cons s items =>
      rw [Channel.take_of_cons items]
      exact .take s _ held items
    | nil =>
      cases live : b.inbound.live with
      | true =>
        rw [Channel.take_of_live items live]
        exact .rest _ (.inr ⟨items, live⟩)
      | false =>
        rw [Channel.take_of_dead items live]
        exact .ended held items live
  · next free => exact .rest _ (.inl free)

/-- All that a deed can do is told by `Does`. -/
theorem act_does (b : Bridge) (d : Deed) : b.Does d (b.act d).2 (b.act d).1 := by
  cases d with
  | read => exact b.read_does
  | write ok => exact b.write_does ok
  | send s => exact b.send_does s
  | recv => exact b.recv_does
  | close =>
    rw [act, Bridge.close]
    split
    · next held => exact .close held
    · next free => exact .rest _ free
  | drop => exact .drop

/-! ## What is noted -/

namespace Notice

def offered? : Notice → Option String
  | .offered s => some s
  | _ => none

def refused? : Notice → Option String
  | .refused s => some s
  | _ => none

def taken? : Notice → Option String
  | .taken s => some s
  | _ => none

def accepted? : Notice → Option String
  | .accepted s => some s
  | _ => none

def written? : Notice → Option SocketWrite
  | .written w => some w
  | _ => none

def failed? : Notice → Option SocketWrite
  | .failed w => some w
  | _ => none

end Notice

/-- What is noted last comes last among the notices of its kind. -/
theorem filterMap_concat {α : Type} (kind : Notice → Option α) (t : List Notice)
    (n : Option Notice) :
    (t ++ n.toList).filterMap kind = t.filterMap kind ++ (n.bind kind).toList := by
  rw [List.filterMap_append]
  cases n with
  | none => rfl
  | some n => cases kind_n : kind n <;> simp [kind_n]

/-! ## Runs -/

/-- What every deed keeps holds along every run. -/
theorem run_keeps {P : List Notice → Bridge → Prop} {t : List Notice} (start : P t b)
    (step : ∀ t b d n b', P t b → Does b d n b' → P (t ++ n.toList) b') (ds : List Deed) :
    P (t ++ b.trace ds) (b.run ds) := by
  induction ds generalizing t b with
  | nil => simpa using start
  | cons d ds ih =>
    rw [trace_cons, ← List.append_assoc]
    exact ih (step _ _ d _ _ start (b.act_does d))

/-- Where something stays so, all that is noted is such as can be noted there. -/
theorem forall_mem_trace {P : Bridge → Prop} {Q : Notice → Prop} (start : P b)
    (step : ∀ b d n b', P b → Does b d n b' → P b' ∧ ∀ x ∈ n, Q x) (ds : List Deed) :
    ∀ x ∈ b.trace ds, Q x := by
  induction ds generalizing b with
  | nil => simp
  | cons d ds ih =>
    obtain ⟨stays, first⟩ := step b d _ _ start (b.act_does d)
    intro x mem
    rw [trace_cons, List.mem_append, Option.mem_toList] at mem
    exact mem.elim (first x) (ih stays x)

end ChatClient.Bridge
