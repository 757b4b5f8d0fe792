import ChatClient.Proofs.Socket.Workers

/-!
# From the socket to the client

What the reader has offered and what it is still going to offer are together all that the socket
says before its end. So the texts are offered in their order, and none of them twice. The reader
ends its work for one of two reasons. Either it has come to the end of the socket, and then it has
offered everything, or the client has let go of the link, and then one text is refused and no other
is offered.

The client takes out of the channel what the reader has put in, and finds the end after the last
text, which is not before the reader has ended its work.

## Main definitions

* `spoken`: the texts that a socket says before its end
* `Bridge.unspoken`: those that the reader is still going to offer
* `Bridge.Reads`: what holds of the reader and its channel

## Main results

* `Reads.run`: it holds along every run
* `Reads.recv_eq`: what the client finds, told by what was offered and taken
* `toRead_run`: how many turns the reader needs
-/

namespace ChatClient

/-! ## What a socket says -/

namespace SocketEvent

/-- The socket ends with it for whoever reads. -/
def ends : SocketEvent → Bool
  | .close | .failure | .ended => true
  | _ => false

def text? : SocketEvent → Option String
  | .text s => some s
  | _ => none

end SocketEvent

/-- The texts before the end. -/
def spoken (es : List SocketEvent) : List String :=
  (es.takeWhile fun e => !e.ends).filterMap SocketEvent.text?

private theorem spoken_cons (e : SocketEvent) (es : List SocketEvent) :
    spoken (e :: es) = if e.ends then [] else e.text?.toList ++ spoken es := by
  cases e <;> rfl

namespace Bridge

variable {arrived : List SocketEvent} {t : List Notice} {b b' : Bridge} {d : Deed}
  {n : Option Notice}

/-! ## The reader and its channel -/

/-- The texts that are still to be offered. -/
def unspoken (b : Bridge) : List String :=
  match b.reader with
  | .listening => spoken b.arriving
  | .handing s => s :: spoken b.arriving
  | .done => []

/-- What holds of the reader and its channel, of all that arrives on the socket and of what was
noted. -/
structure Reads (arrived : List SocketEvent) (t : List Notice) (b : Bridge) : Prop where
  arriving : b.arriving <:+ arrived
  /-- What was offered, what was refused and what is left are all that the socket says. -/
  plan : ∃ rest,
    spoken arrived = t.filterMap Notice.offered? ++ t.filterMap Notice.refused? ++ rest ∧
    (t.filterMap Notice.refused? = [] → rest = b.unspoken)
  refusal : t.filterMap Notice.refused? = [] ∨
    (∃ s, t.filterMap Notice.refused? = [s]) ∧ b.reader = .done ∧ b.link ≠ .held
  /-- The end of the socket lies ahead of a reader that works. -/
  ahead : b.reader ≠ .done → (∃ e ∈ arrived, e.ends = true) → ∃ e ∈ b.arriving, e.ends = true
  behind : b.reader = .done → t.filterMap Notice.refused? = [] → ∃ e ∈ arrived, e.ends = true
  /-- What was offered has been taken or waits in the channel. -/
  queue : t.filterMap Notice.offered? = t.filterMap Notice.taken? ++ b.inbound.items
  fed : b.inbound.fed = true ↔ b.reader ≠ .done
  tapped : b.inbound.tapped = true ↔ b.link = .held

/-- Nothing was offered yet, and all that the socket says is still ahead. -/
theorem reads_start (arrived : List SocketEvent) : Reads arrived [] (start arrived) where
  arriving := List.suffix_rfl
  plan := ⟨spoken arrived, rfl, fun _ => rfl⟩
  refusal := .inl rfl
  ahead _ ends := ends
  behind done := by cases done
  queue := rfl
  fed := by simp [start]
  tapped := by simp [start]

/-- Nothing changes for the reader where neither it nor the client with its texts has a part. -/
theorem Reads.frame (h : Reads arrived t b) (arriving : b'.arriving = b.arriving)
    (reader : b'.reader = b.reader) (inbound : b'.inbound = b.inbound) (link : b'.link = b.link)
    (offered : n.bind Notice.offered? = none) (refused : n.bind Notice.refused? = none)
    (taken : n.bind Notice.taken? = none) :
    Reads arrived (t ++ n.toList) b' := by
  have unspoken : b'.unspoken = b.unspoken := by
    rw [Bridge.unspoken, Bridge.unspoken, reader, arriving]
  obtain ⟨h₁, h₂, h₃, h₄, h₅, h₆, h₇, h₈⟩ := h
  constructor <;> simp only [filterMap_concat, offered, refused, taken,
    Option.toList_none, List.append_nil, arriving, reader, inbound, link, unspoken] <;> assumption

/-- As long as the reader works, nothing was refused, and it has offered all but what is left. -/
theorem Reads.of_working (h : Reads arrived t b) (working : b.reader ≠ .done) :
    t.filterMap Notice.refused? = [] ∧
      spoken arrived = t.filterMap Notice.offered? ++ b.unspoken := by
  have refused : t.filterMap Notice.refused? = [] :=
    h.refusal.resolve_right fun stopped => working stopped.2.1
  obtain ⟨rest, plan, left⟩ := h.plan
  rw [refused, List.append_nil, left refused] at plan
  exact ⟨refused, plan⟩

/-! ### One deed after another -/

private theorem unspoken_hear {e : SocketEvent} {arriving : List SocketEvent}
    (listening : b.reader = .listening) (next : b.arriving = e :: arriving) :
    ({ b with arriving }.hear e).unspoken = b.unspoken := by
  have before : b.unspoken = spoken (e :: arriving) := by rw [unspoken, listening, next]
  rw [before, spoken_cons]
  cases e with
  | text | close | failure | ended => rfl
  | binary | ping | pong => simp [hear, unspoken, listening, SocketEvent.ends, SocketEvent.text?]

/-- The reader takes something from the socket: a text, something that is none, or the end. -/
theorem Reads.hear (h : Reads arrived t b) {e : SocketEvent} {arriving : List SocketEvent}
    (listening : b.reader = .listening) (next : b.arriving = e :: arriving) :
    Reads arrived t ({ b with arriving }.hear e) := by
  have working : b.reader ≠ .done := by simp [listening]
  obtain ⟨refused, plan⟩ := h.of_working working
  have mem : e ∈ arrived := h.arriving.subset (by simp [next])
  have shorter : arriving <:+ arrived := .trans ⟨[e], next.symm⟩ h.arriving
  have plan' : ∃ rest,
    spoken arrived = t.filterMap Notice.offered? ++ t.filterMap Notice.refused? ++ rest ∧
      (t.filterMap Notice.refused? = [] → rest = ({ b with arriving }.hear e).unspoken) :=
    ⟨_, by rw [refused, List.append_nil, plan, unspoken_hear listening next], fun _ => rfl⟩
  -- What is no end leaves the end ahead.
  have ahead (passes : e.ends = false) (ends : ∃ e ∈ arrived, e.ends = true) :
      ∃ e ∈ arriving, e.ends = true := by
    simpa [next, passes] using h.ahead working ends
  have fed := h.fed.2 working
  cases e with
  | text s =>
    exact {
      arriving := shorter, plan := plan', refusal := .inl refused, ahead := fun _ => ahead rfl
      behind := by simp [Bridge.hear]
      queue := h.queue
      fed := by simpa [Bridge.hear] using fed
      tapped := h.tapped }
  | binary | ping | pong =>
    exact {
      arriving := shorter, plan := plan', refusal := .inl refused, ahead := fun _ => ahead rfl
      behind := by simp [Bridge.hear, listening]
      queue := h.queue
      fed := h.fed
      tapped := h.tapped }
  | close | failure | ended =>
    exact {
      arriving := shorter, plan := plan', refusal := .inl refused
      ahead := by simp [Bridge.hear, endReading]
      behind := fun _ _ => ⟨_, mem, rfl⟩
      queue := h.queue
      fed := by simp [Bridge.hear, endReading, Channel.endFeed]
      tapped := h.tapped }

/-- A text goes into the channel. -/
theorem Reads.offer (h : Reads arrived t b) {s : String} (handing : b.reader = .handing s) :
    Reads arrived (t ++ [Notice.offered s])
      { b with
        reader := .listening
        inbound := { b.inbound with items := b.inbound.items ++ [s] } } := by
  have working : b.reader ≠ .done := by simp [handing]
  obtain ⟨refused, plan⟩ := h.of_working working
  have left : b.unspoken = s :: spoken b.arriving := by rw [unspoken, handing]
  have refused' : (t ++ [Notice.offered s]).filterMap Notice.refused? = [] := by
    simpa [Notice.refused?] using refused
  exact {
    arriving := h.arriving
    plan := ⟨spoken b.arriving,
      by simp [refused, plan, left, Notice.offered?, Notice.refused?], fun _ => rfl⟩
    refusal := .inl refused'
    ahead := fun _ => h.ahead working
    behind := by simp
    queue := by simp [h.queue, Notice.offered?, Notice.taken?]
    fed := by simp [h.fed.2 working]
    tapped := h.tapped }

/-- The reader finds that the client is gone, and ends its work with the text in its hands. -/
theorem Reads.refuse (h : Reads arrived t b) {s : String} (handing : b.reader = .handing s)
    (closed : b.inbound.tapped = false) : Reads arrived (t ++ [Notice.refused s]) b.endReading := by
  obtain ⟨refused, plan⟩ := h.of_working (by simp [handing])
  have left : b.unspoken = s :: spoken b.arriving := by rw [unspoken, handing]
  have refused' : (t ++ [Notice.refused s]).filterMap Notice.refused? = [s] := by
    simp [refused, Notice.refused?]
  have free : b.link ≠ .held := fun held => by simp [h.tapped.2 held] at closed
  exact {
    arriving := h.arriving
    plan := ⟨spoken b.arriving, by simp [refused', plan, left, Notice.offered?], by simp [refused']⟩
    refusal := .inr ⟨⟨s, refused'⟩, rfl, free⟩
    ahead := by simp [endReading]
    behind := by simp [refused']
    queue := by
      simpa [List.filterMap_cons, Notice.offered?, Notice.taken?, endReading,
        Channel.endFeed] using h.queue
    fed := by simp [endReading, Channel.endFeed]
    tapped := h.tapped }

/-- The client takes what was offered first of all that it has not taken. -/
theorem Reads.take (h : Reads arrived t b) {s : String} {items : List String}
    (next : b.inbound.items = s :: items) :
    Reads arrived (t ++ [Notice.taken s]) { b with inbound := { b.inbound with items } } := by
  have offered :
      (t ++ [Notice.taken s]).filterMap Notice.offered? = t.filterMap Notice.offered? := by
    simp [Notice.offered?]
  have refused :
      (t ++ [Notice.taken s]).filterMap Notice.refused? = t.filterMap Notice.refused? := by
    simp [Notice.refused?]
  exact {
    arriving := h.arriving
    plan := by rw [offered, refused]; exact h.plan
    refusal := by rw [refused]; exact h.refusal
    ahead := h.ahead
    behind := by rw [refused]; exact h.behind
    queue := by simp [offered, h.queue, next, Notice.taken?]
    fed := h.fed
    tapped := h.tapped }

/-- The client lets go of the link, closing it before or not. -/
theorem Reads.letGo (h : Reads arrived t b) {link : Hold} (free : link ≠ .held) :
    Reads arrived t { b with link, inbound := b.inbound.endTap } where
  arriving := h.arriving
  plan := h.plan
  refusal := h.refusal.imp_right fun ⟨once, done, _⟩ => ⟨once, done, free⟩
  ahead := h.ahead
  behind := h.behind
  queue := h.queue
  fed := h.fed
  tapped := by simp [Channel.endTap, free]

/-- Every deed keeps what holds of the reader. -/
theorem Reads.step (h : Reads arrived t b) (does : b.Does d n b') :
    Reads arrived (t ++ n.toList) b' := by
  cases does with
  | hear e arriving listening next => simpa using h.hear listening next
  | offer s handing => exact h.offer handing
  | refuse s handing closed => exact h.refuse handing closed
  | take s items _ next => exact h.take next
  | close => simpa using h.letGo (by decide : Hold.closing ≠ .held)
  | drop =>
    have free := h.letGo (by decide : Hold.dropped ≠ .held)
    exact free.frame rfl rfl rfl rfl rfl rfl rfl
  -- The writer and the frames of the client have no part in it.
  | _ => exact h.frame rfl rfl rfl rfl rfl rfl rfl

/-- So does every run. -/
theorem Reads.run (h : Reads arrived t b) (ds : List Deed) :
    Reads arrived (t ++ b.trace ds) (b.run ds) :=
  run_keeps (P := Reads arrived) h (fun _ _ _ _ _ kept does => kept.step does) ds

/-! ## What follows -/

/-- What the client finds when it looks for a text: the first that was offered and not taken, or
else the end, if nobody puts anything into the channel any more. -/
theorem Reads.recv_eq (h : Reads arrived t b) (held : b.link = .held) :
    (b.act .recv).2 =
      match (t.filterMap Notice.offered?)[(t.filterMap Notice.taken?).length]? with
      | some s => some (.taken s)
      | none => if b.inbound.fed then none else some .ended := by
  have next : (t.filterMap Notice.offered?)[(t.filterMap Notice.taken?).length]? =
    b.inbound.items.head? := by
    rw [h.queue, List.getElem?_append_right (Nat.le_refl _), Nat.sub_self, List.head?_eq_getElem?]
  have live : b.inbound.live = b.inbound.fed := by rw [Channel.live, h.tapped.2 held, Bool.and_true]
  rw [next, act, recv, if_pos held]
  cases items : b.inbound.items with
  | cons s items => rw [Channel.take_of_cons items]; rfl
  | nil =>
    cases fed : b.inbound.fed with
    | true => rw [Channel.take_of_live items (live.trans fed)]; rfl
    | false => rw [Channel.take_of_dead items (live.trans fed)]; rfl

/-- Where the reader has ended its work or the client has let go of the link, nothing is offered any
more. -/
theorem Reads.silent (h : Reads arrived t b) (gone : b.reader = .done ∨ b.link ≠ .held)
    (ds : List Deed) :
    (b.trace ds).filterMap Notice.offered? = [] := by
  rw [List.filterMap_eq_nil_iff]
  -- A reader that has ended its work does not begin again, and a channel that is closed stays
  -- closed.
  rcases gone with done | free
  · refine forall_mem_trace (P := fun b => b.reader = .done) done (fun b d n b' done does => ?_) ds
    cases does with
    | hear _ _ listening => simp [done] at listening
    | offer _ handing => simp [done] at handing
    | refuse => exact ⟨rfl, by simp [Notice.offered?]⟩
    | _ => exact ⟨done, by simp [Notice.offered?]⟩
  · have closed : b.inbound.tapped = false := by simpa [free] using h.tapped
    refine forall_mem_trace (P := fun b => b.inbound.tapped = false) closed
      (fun b d n b' closed does => ?_) ds
    cases does with
    | hear e => cases e <;> exact ⟨closed, by simp⟩
    | offer _ _ tapped => simp [closed] at tapped
    | close | drop => exact ⟨rfl, by simp⟩
    | _ => exact ⟨closed, by simp [Notice.offered?]⟩

/-- How many turns the reader needs for all that arrives. -/
def toRead (b : Bridge) : Nat :=
  match b.reader with
  | .listening => 2 * b.arriving.length
  | .handing _ => 2 * b.arriving.length + 1
  | .done => 0

/-- A reader that needs no more turns has ended its work, or nothing has arrived for it. -/
theorem toRead_eq_zero (through : b.toRead = 0) :
    b.reader = .done ∨ b.reader = .listening ∧ b.arriving = [] := by
  cases reader : b.reader with
  | done => exact .inl rfl
  | listening =>
    simp only [toRead, reader] at through
    exact .inr ⟨rfl, List.length_eq_zero_iff.1 (by omega)⟩
  | handing s => simp [toRead, reader] at through

private theorem toRead_step (does : b.Does d n b') : b'.toRead ≤ b.toRead - [d].count .read := by
  cases does with
  | rest _ rests =>
    cases d with
    | read =>
      obtain done | ⟨listening, empty⟩ := rests
      · simp [toRead, done]
      · simp [toRead, listening, empty]
    | _ => exact Nat.le_refl _
  | hear e arriving listening next =>
    have before : b.toRead = 2 * arriving.length + 2 := by
      simp [toRead, listening, next, Nat.mul_add]
    rw [before]
    cases e with
    | text | close | failure | ended => simp [hear, endReading, toRead]
    | binary | ping | pong => simp [hear, toRead, listening]
  | offer s handing => simp [toRead, handing]
  | refuse s handing => simp [toRead, endReading]
  | _ => exact Nat.le_refl _

/-- Every turn of the reader is made use of, as long as there is something left. -/
theorem toRead_run (b : Bridge) (ds : List Deed) :
    (b.run ds).toRead ≤ b.toRead - ds.count .read := by
  induction ds generalizing b with
  | nil => exact (Nat.le_refl _)
  | cons d ds ih =>
    have step := toRead_step (b.act_does d)
    have rest := ih (b.act d).1
    rw [run_cons, ← List.singleton_append, List.count_append]
    omega

end Bridge

end ChatClient
