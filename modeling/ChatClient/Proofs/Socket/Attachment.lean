import ChatClient.Proofs.Session.Hold
import ChatClient.Proofs.Socket.Relay

/-!
# A client and the socket of one of its links

In a session a link is a record of what its server and the client have done with it. Behind the
record stand the workers that join the link to a socket. Here both are put side by side. A turn of a
worker is told to the client as a text that is pushed or as the end of one direction of the link,
and what the client does with the link is done on the bridge.

The record then is at every moment what can be seen of the bridge, and the frames of the client are
the ones that the bridge has accepted. So a run of the client and a run of the bridge go on
together, and what holds of the one may be used for the other.

## Main definitions

* `Bridge.asLink`: the record of a link that is joined to a socket
* `Bridge.signals`: what the client is told of a turn of a worker
* `Client.uses`: what the client does with its link
* `Attached`, `Attached.step`, `Attached.run`: a client and the bridge behind one of its links
* `Attached.Stands`: the record agrees with the bridge

## Main results

* `stands_step`, `stands_run`: it does so after every move and along every run
* `run_attached`: a link that a server opens is carried by the workers from then on
* `Stands.answer`: a frame finds the same answer on either
* `Stands.relays`: what the client and the socket have of each other
-/

namespace ChatClient

open Bridge (Notice Deed Does Reads Writes)
open Client (untouched_step untouched_run)

/-! ## What can be seen of a bridge -/

/-- The record of a link that is joined to a socket, after what was noted. A link whose end the
client has found was given up, but not closed. -/
def Bridge.asLink (b : Bridge) (t : List Notice) (room : RoomId) (epoch : UInt64) : Link where
  room
  epoch
  accepts := if b.outbound.tapped then none else some 0
  pushed := t.filterMap Notice.offered?
  taken := (t.filterMap Notice.taken?).length
  ended := !b.inbound.fed
  closed := decide (b.link ≠ .held ∧ Notice.ended ∉ t)

/-- The client has a part in what is noted. -/
def Bridge.Notice.seen : Notice → Bool
  | .offered _ | .taken _ | .ended => true
  | _ => false

/-- What the client is told when a worker brings the bridge from one state to the next. -/
def Bridge.signals (i : Nat) (b : Bridge) (n : Option Notice) (b' : Bridge) : List Happening :=
  (n.bind Notice.offered?).toList.map (.push i) ++
    ((if b'.inbound.fed = b.inbound.fed then [] else [.hangUp i]) ++
      if b'.outbound.tapped = b.outbound.tapped then [] else [.deafen i])

/-- What the client does with a link of its own when something happens. A link that goes unseen,
together with its outcome, is dropped without being closed before, which makes no difference to
the workers. A frame that the link does not take leaves everything as it is
(`Attached.Stands.answer`). -/
def Client.uses (c : Client) (i : Nat) (h : Happening) : List Deed :=
  if c.letsGo i h then [.close, .drop]
  else if c.loses i h then [.recv, .drop]
  else if c.hearsFrom i h then [.recv]
  else (c.saysTo i h).map fun f => .send f.write

/-- A client, the bridge behind one of its links, and what was noted on the bridge. -/
structure Attached where
  client : Client
  bridge : Bridge
  noted : List Notice := []

namespace Attached

/-- What can happen next. -/
inductive Move
  | read
  | write (ok : Bool)
  /-- Something else happens to the client, or is done by it. -/
  | happen (h : Happening)

/-- A worker takes its turn. -/
def work (i : Nat) (s : Attached) (d : Deed) : Attached where
  client := s.client.run (s.bridge.signals i (s.bridge.act d).2 (s.bridge.act d).1)
  bridge := (s.bridge.act d).1
  noted := s.noted ++ (s.bridge.act d).2.toList

/-- Both after a move. To the link itself only the workers do something. -/
def step (i : Nat) (s : Attached) : Move → Attached
  | .read => s.work i .read
  | .write ok => s.work i (.write ok)
  | .happen h =>
    if h.actsOn i then s
    else
      { client := s.client.step h
        bridge := s.bridge.run (s.client.uses i h)
        noted := s.noted ++ s.bridge.trace (s.client.uses i h) }

/-- Both after moves one after the other. -/
def run (i : Nat) (s : Attached) (ms : List Move) : Attached := ms.foldl (step i) s

/-- The record of the link agrees with the bridge. -/
structure Stands (arrived : List SocketEvent) (i : Nat) (s : Attached) : Prop where
  untouched : s.client.Untouched
  bridge : ∃ ds, s.bridge = (Bridge.start arrived).run ds ∧
    s.noted = (Bridge.start arrived).trace ds
  link : ∃ room epoch, s.client.links[i]? = some (s.bridge.asLink s.noted room epoch)
  /-- The frames that were taken on the link are those that the bridge has accepted. -/
  said : (s.client.accepted.filter (·.1 == i)).map (·.2.write) = s.noted.filterMap Notice.accepted?
  /-- The client has the link, and has not found its end, as long as it wants it. -/
  wanted : s.client.Wants i → s.bridge.link = .held ∧ Notice.ended ∉ s.noted

variable {arrived : List SocketEvent} {i : Nat} {s : Attached} {c : Client} {b b' : Bridge}
  {t : List Notice} {n : Option Notice} {d : Deed} {h : Happening} {room : RoomId} {epoch : UInt64}

/-- The bridge has come about by a run, so what holds of every reader holds of this one. -/
theorem Stands.reads (stands : Stands arrived i s) : Reads arrived s.noted s.bridge := by
  obtain ⟨ds, bridge, noted⟩ := stands.bridge
  rw [bridge, noted]
  exact (Bridge.reads_start arrived).run ds

/-- Likewise for the writer. -/
theorem Stands.writes (stands : Stands arrived i s) : Writes s.noted s.bridge := by
  obtain ⟨ds, bridge, noted⟩ := stands.bridge
  rw [bridge, noted]
  exact (Bridge.writes_start arrived).run ds

/-- The network knows of the link. -/
theorem Stands.inside (stands : Stands arrived i s) : i < s.client.links.length := by
  obtain ⟨room, epoch, hl⟩ := stands.link
  exact (List.getElem?_eq_some_iff.1 hl).1

private theorem plain_asLink (b : Bridge) (t : List Notice) (room : RoomId) (epoch : UInt64) :
    (b.asLink t room epoch).Plain := by
  rw [Link.Plain, Bridge.asLink]
  cases b.outbound.tapped
  · exact .inr rfl
  · exact .inl rfl

private theorem offered_of_unseen (unseen : ∀ x ∈ n, x.seen = false) :
    n.bind Notice.offered? = none := by
  cases n with
  | none => rfl
  | some x =>
    have plain := unseen x rfl
    cases x <;> first | rfl | contradiction

/-- What the client has no part in does not show. -/
theorem asLink_of_unseen (unseen : ∀ x ∈ n, x.seen = false) :
    b.asLink (t ++ n.toList) room epoch = b.asLink t room epoch := by
  cases n with
  | none => rw [Option.toList_none, List.append_nil]
  | some x =>
    have plain := unseen x rfl
    cases x <;> first
      | contradiction
      | simp [Bridge.asLink, Notice.offered?, Notice.taken?]

/-! ## Turns of the workers -/

private theorem links_push (hl : c.links[i]? = some (b.asLink t room epoch))
    (fed : b.inbound.fed = true) (held : b.link = .held) (text : String) :
    (c.step (.push i text)).links[i]? = some ((b.asLink t room epoch).push text) := by
  have listening : (b.asLink t room epoch).listening = true := by
    simp [Link.listening, Bridge.asLink, fed, held]
  change (c.toNetwork.onLink i _).links[i]? = _
  rw [Network.getElem?_onLink_self, hl]
  simp only [Option.map_some, listening, if_true]

private theorem links_hangUp {l : Link} (hl : c.links[i]? = some l) :
    (c.step (.hangUp i)).links[i]? = some l.hangUp := by
  change (c.toNetwork.onLink i _).links[i]? = _
  rw [Network.getElem?_onLink_self, hl, Option.map_some]

private theorem links_deafen {l : Link} (hl : c.links[i]? = some l) :
    (c.step (.deafen i)).links[i]? = some l.deafen := by
  change (c.toNetwork.onLink i _).links[i]? = _
  rw [Network.getElem?_onLink_self, hl, Option.map_some]

/-- Where no worker ends its work, and nothing is offered, the client is told nothing and there is
nothing new to be seen. -/
theorem links_of_unseen (hl : c.links[i]? = some (b.asLink t room epoch))
    (unseen : ∀ x ∈ n, x.seen = false) (fed : b'.inbound.fed = b.inbound.fed)
    (tapped : b'.outbound.tapped = b.outbound.tapped) (link : b'.link = b.link) :
    (c.run (b.signals i n b')).links[i]? = some (b'.asLink (t ++ n.toList) room epoch) := by
  have told : b.signals i n b' = [] := by
    rw [Bridge.signals, offered_of_unseen unseen, if_pos fed, if_pos tapped]
    rfl
  rw [told, asLink_of_unseen unseen, Bridge.asLink, fed, tapped, link]
  exact hl

/-- The record of the link after the client was told of a turn of the reader. -/
theorem links_read (reads : Reads arrived t b) (does : Does b .read n b')
    (hl : c.links[i]? = some (b.asLink t room epoch)) :
    (c.run (b.signals i n b')).links[i]? = some (b'.asLink (t ++ n.toList) room epoch) := by
  -- A reader that ends its work leaves its channel, which is the end of the link for the client.
  have ends (n : Option Notice) (fed : b.inbound.fed = true) (unseen : ∀ x ∈ n, x.seen = false)
      (arriving : List SocketEvent) :
      (c.run (b.signals i n { b with arriving }.endReading)).links[i]? =
        some ({ b with arriving }.endReading.asLink (t ++ n.toList) room epoch) := by
    have told : b.signals i n { b with arriving }.endReading = [.hangUp i] := by
      simp [Bridge.signals, offered_of_unseen unseen, Bridge.endReading, Channel.endFeed, fed]
    rw [told, asLink_of_unseen unseen]
    exact links_hangUp hl
  cases does with
  | rest =>
    exact links_of_unseen hl (by simp) rfl rfl rfl
  | hear e arriving listening next =>
    have fed := reads.fed.2 (by simp [listening])
    cases e with
    | text | binary | ping | pong =>
      exact links_of_unseen hl (by simp) rfl rfl rfl
    | close | failure | ended => exact ends none fed (by simp) arriving
  | offer s handing tapped =>
    have fed := reads.fed.2 (by simp [handing])
    have told : b.signals i (some (.offered s))
        { b with
          reader := .listening
          inbound := { b.inbound with items := b.inbound.items ++ [s] } } = [.push i s] := by
      simp [Bridge.signals, Notice.offered?]
    rw [told]
    refine (links_push hl fed (reads.tapped.1 tapped) s).trans (congrArg some ?_)
    simp [Bridge.asLink, Link.push, Notice.offered?, Notice.taken?]
  | refuse s handing closed =>
    have fed := reads.fed.2 (by simp [handing])
    exact ends (some (.refused s)) fed (by simp [Notice.seen]) b.arriving

/-- The record of the link after the client was told of a turn of the writer. -/
theorem links_write {ok : Bool} (writes : Writes t b) (does : Does b (.write ok) n b')
    (hl : c.links[i]? = some (b.asLink t room epoch)) :
    (c.run (b.signals i n b')).links[i]? = some (b'.asLink (t ++ n.toList) room epoch) := by
  -- A writer that ends its work takes no more frames.
  have ends (n : Option Notice) (tapped : b.outbound.tapped = true)
      (unseen : ∀ x ∈ n, x.seen = false) :
      (c.run (b.signals i n b.endWriting)).links[i]? =
        some (b.endWriting.asLink (t ++ n.toList) room epoch) := by
    have told : b.signals i n b.endWriting = [.deafen i] := by
      simp [Bridge.signals, offered_of_unseen unseen, Bridge.endWriting, Channel.endTap, tapped]
    rw [told, asLink_of_unseen unseen]
    exact links_deafen hl
  cases does with
  | rest | pick | finish =>
    exact links_of_unseen hl (by simp) rfl rfl rfl
  | written s writing =>
    exact links_of_unseen hl (by simp [Notice.seen]) rfl rfl rfl
  | failed s writing =>
    exact ends _ (writes.tapped.2 (by simp [writing])) (by simp [Notice.seen])
  | closed closing | unclosed closing =>
    exact ends _ (writes.tapped.2 (by simp [closing])) (by simp [Notice.seen])

/-! ## What the client does -/

/-- Frames that are sent one after the other are accepted, as long as there is somebody to write
them. -/
theorem run_sends (held : b.link = .held) (tapped : b.outbound.tapped = true) (ss : List String) :
    b.run (ss.map .send) =
        { b with outbound := { b.outbound with items := b.outbound.items ++ ss } } ∧
      b.trace (ss.map .send) = ss.map .accepted := by
  induction ss generalizing b with
  | nil => simp
  | cons s ss ih =>
    have first : b.act (.send s) =
        ({ b with outbound := { b.outbound with items := b.outbound.items ++ [s] } },
          some (.accepted s)) := by
      simp only [Bridge.act, Bridge.send, if_pos held, Channel.put?_of_tapped tapped]
    obtain ⟨rest, noted⟩ := ih
      (b := { b with outbound := { b.outbound with items := b.outbound.items ++ [s] } }) held tapped
    constructor
    · rw [List.map_cons, Bridge.run_cons, first, rest]
      simp
    · rw [List.map_cons, Bridge.trace_cons, first, noted]
      simp

private theorem run_close_drop (held : b.link = .held) :
    b.run [.close, .drop] =
        { b with
          link := .dropped
          inbound := b.inbound.endTap
          outbound := b.outbound.endFeed } ∧
      b.trace [.close, .drop] = [] := by
  simp [Bridge.act, Bridge.close, held, Bridge.drop, Channel.endTap]

private theorem recv_of_none (reads : Reads arrived t b) (held : b.link = .held)
    (next : (t.filterMap Notice.offered?)[(t.filterMap Notice.taken?).length]? = none)
    (fed : b.inbound.fed = false) : b.act .recv = (b, some .ended) := by
  have noticed := reads.recv_eq held
  have does := b.act_does .recv
  rw [next, fed] at noticed
  rw [noticed] at does
  refine Prod.ext ?_ noticed
  generalize (b.act .recv).1 = b' at does
  cases does
  rfl

private theorem recv_of_some (reads : Reads arrived t b) (held : b.link = .held) {text : String}
    (next : (t.filterMap Notice.offered?)[(t.filterMap Notice.taken?).length]? = some text) :
    ∃ items, b.act .recv =
      ({ b with inbound := { b.inbound with items } }, some (.taken text)) := by
  have noticed := reads.recv_eq held
  have does := b.act_does .recv
  rw [next] at noticed
  rw [noticed] at does
  generalize after : (b.act .recv).1 = b' at does
  cases does with
  | take _ items => exact ⟨items, Prod.ext after noticed⟩

/-- Both agree after something has happened to the client and the deeds are done, where the deeds
show in the record what the client has done. -/
theorem Stands.happen (stands : Stands arrived i s) (ds : List Deed)
    (link : ∀ room epoch, s.client.links[i]? = some (s.bridge.asLink s.noted room epoch) →
      (s.client.step h).links[i]? =
        some ((s.bridge.run ds).asLink (s.noted ++ s.bridge.trace ds) room epoch))
    (said : (s.client.saysTo i h).map Wire.Frame.write =
      (s.bridge.trace ds).filterMap Notice.accepted?)
    (kept : s.client.letsGo i h = false → s.client.loses i h = false → s.bridge.link = .held →
      (s.bridge.run ds).link = .held ∧ Notice.ended ∉ s.bridge.trace ds) :
    Stands arrived i ⟨s.client.step h, s.bridge.run ds, s.noted ++ s.bridge.trace ds⟩ where
  untouched := untouched_step stands.untouched h
  bridge := by
    obtain ⟨before, bridge, noted⟩ := stands.bridge
    refine ⟨before ++ ds, ?_, ?_⟩
    · rw [Bridge.run_append, ← bridge]
    · rw [Bridge.trace_append, ← bridge, ← noted]
  link := by
    obtain ⟨room, epoch, hl⟩ := stands.link
    exact ⟨room, epoch, link room epoch hl⟩
  said := by
    obtain ⟨new, accepted, -⟩ := s.client.step_says h
    rw [Client.saysTo_of_accepted accepted] at said
    rw [List.filterMap_append, ← stands.said, ← said]
    simp [accepted]
  wanted wants := by
    obtain ⟨before, stays, goesOn⟩ := Client.wants_of_step stands.untouched stands.inside wants
    obtain ⟨held, going⟩ := stands.wanted before
    obtain ⟨held', going'⟩ := kept stays goesOn held
    exact ⟨held', fun found => (List.mem_append.1 found).elim going going'⟩

/-- A link that the client lets go of is closed and dropped. -/
theorem Stands.letGo (stands : Stands arrived i s) (apart : h.actsOn i = false)
    (letsGo : s.client.letsGo i h = true) :
    Stands arrived i
      ⟨s.client.step h, s.bridge.run [.close, .drop],
        s.noted ++ s.bridge.trace [.close, .drop]⟩ := by
  obtain ⟨held, going⟩ := stands.wanted (Client.wants_of_letsGo letsGo)
  obtain ⟨after, noted⟩ := run_close_drop held
  refine stands.happen _ (fun room epoch hl => ?_) ?_ (fun stays => ?_)
  · rw [Client.getElem?_step stands.untouched hl (plain_asLink ..) apart,
      if_pos letsGo, after, noted]
    simp [Bridge.asLink, Link.close, going]
    exact ⟨rfl, rfl⟩
  · rw [Client.saysTo_of_letsGo stands.untouched stands.inside letsGo, noted]
    rfl
  · rw [letsGo] at stays
    contradiction

/-- The client looks for a text and finds the end of the link. It does not close the link then. -/
theorem Stands.lose (stands : Stands arrived i s) (apart : h.actsOn i = false)
    (stays : s.client.letsGo i h = false) (loses : s.client.loses i h = true) :
    Stands arrived i
      ⟨s.client.step h, s.bridge.run [.recv, .drop], s.noted ++ s.bridge.trace [.recv, .drop]⟩ := by
  obtain ⟨held, going⟩ := stands.wanted (Client.wants_of_loses loses)
  obtain ⟨room, epoch, hl⟩ := stands.link
  obtain ⟨next, ended, silent⟩ := Client.next_of_loses hl loses
  have fed : s.bridge.inbound.fed = false := by simpa [Bridge.asLink] using ended
  have next :
      (s.noted.filterMap Notice.offered?)[(s.noted.filterMap Notice.taken?).length]? = none :=
    next
  have found := recv_of_none stands.reads held next fed
  have noted : s.bridge.trace [.recv, .drop] = [.ended] := by
    rw [Bridge.trace_cons, found]
    rfl
  have after : s.bridge.run [.recv, .drop] = s.bridge.drop := by
    rw [Bridge.run_cons, found]
    rfl
  refine stands.happen _ (fun room epoch hl => ?_) ?_ (fun _ goesOn => ?_)
  · rw [Client.getElem?_step stands.untouched hl (plain_asLink ..) apart, stays,
      silent, after, noted]
    simp [Bridge.asLink, held, Notice.offered?, Notice.taken?]
    exact ⟨rfl, rfl⟩
  · rw [Client.listens_of_loses loses, Client.saysTo_listen, noted]
    rfl
  · rw [loses] at goesOn
    contradiction

/-- The client takes a text from the link. -/
theorem Stands.hear (stands : Stands arrived i s) (apart : h.actsOn i = false)
    (stays : s.client.letsGo i h = false) (hears : s.client.hearsFrom i h = true) :
    Stands arrived i
      ⟨s.client.step h, s.bridge.run [.recv], s.noted ++ s.bridge.trace [.recv]⟩ := by
  obtain ⟨held, going⟩ := stands.wanted (Client.wants_of_hearsFrom hears)
  obtain ⟨room, epoch, hl⟩ := stands.link
  obtain ⟨text, next⟩ := Client.next_of_hearsFrom hl hears
  obtain ⟨items, taken⟩ := recv_of_some stands.reads held next
  have noted : s.bridge.trace [.recv] = [.taken text] := by simp [taken]
  have after : s.bridge.run [.recv] =
      { s.bridge with inbound := { s.bridge.inbound with items } } := by
    simp [taken]
  refine stands.happen _ (fun room epoch hl => ?_) ?_ (fun _ _ held => ?_)
  · rw [Client.getElem?_step stands.untouched hl (plain_asLink ..) apart,
      stays, hears, after, noted]
    simp [Bridge.asLink, Link.take, Notice.offered?, Notice.taken?]
  · rw [Client.listens_of_hearsFrom hears, Client.saysTo_listen, noted]
    rfl
  · rw [after, noted]
    exact ⟨held, by simp⟩

/-- The client sends frames on the link, or leaves it alone. -/
theorem Stands.say (stands : Stands arrived i s) (apart : h.actsOn i = false)
    (stays : s.client.letsGo i h = false) (silent : s.client.hearsFrom i h = false) :
    let ds := (s.client.saysTo i h).map fun f => Deed.send f.write
    Stands arrived i ⟨s.client.step h, s.bridge.run ds, s.noted ++ s.bridge.trace ds⟩ := by
  intro ds
  obtain ⟨room, epoch, hl⟩ := stands.link
  -- What is said is said on a link that is held, and there is somebody to write it.
  have sent : ∃ items, s.bridge.run ds =
        { s.bridge with outbound := { s.bridge.outbound with items } } ∧
      s.bridge.trace ds = (s.client.saysTo i h).map fun f => .accepted f.write := by
    by_cases nothing : s.client.saysTo i h = []
    · exact ⟨s.bridge.outbound.items, by simp [ds, nothing]⟩
    · have before :=
        (Client.wants_of_step stands.untouched stands.inside (Client.wants_of_saysTo nothing)).1
      have tapped : s.bridge.outbound.tapped = true := by
        by_contra closed
        refine nothing (Client.saysTo_of_deaf stands.untouched hl (plain_asLink ..) ?_ apart)
        simp [Link.reads, Bridge.asLink, closed]
      have all := run_sends (stands.wanted before).1 tapped
        ((s.client.saysTo i h).map Wire.Frame.write)
      simp only [List.map_map] at all
      exact ⟨_, all⟩
  obtain ⟨items, after, noted⟩ := sent
  refine stands.happen _ (fun room epoch hl => ?_) ?_ (fun _ _ held => ?_)
  · rw [Client.getElem?_step stands.untouched hl (plain_asLink ..) apart, stays,
      silent, after, noted]
    simp [Bridge.asLink, List.filterMap_map, Notice.offered?, Notice.taken?, Function.comp_def]
  · rw [noted, List.filterMap_map]
    simp [Function.comp_def, Notice.accepted?]
  · rw [after, noted]
    exact ⟨held, by simp⟩

private theorem stands_happen (stands : Stands arrived i s) (apart : h.actsOn i = false) :
    Stands arrived i ⟨s.client.step h, s.bridge.run (s.client.uses i h),
      s.noted ++ s.bridge.trace (s.client.uses i h)⟩ := by
  rw [Client.uses]
  cases letsGo : s.client.letsGo i h with
  | true => exact stands.letGo apart letsGo
  | false =>
    cases loses : s.client.loses i h with
    | true => exact stands.lose apart letsGo loses
    | false =>
      cases hears : s.client.hearsFrom i h with
      | true => exact stands.hear apart letsGo hears
      | false => exact stands.say apart letsGo hears

/-! ## Every move -/

/-- Neither do the workers hand anything to the client or take it from there, nor do they give up
the link. -/
theorem link_of_worker (worker : d = .read ∨ ∃ ok, d = .write ok) (does : Does b d n b') :
    b'.link = b.link ∧ n.bind Notice.accepted? = none ∧ n ≠ some .ended := by
  cases does with
  | hear e => cases e <;> exact ⟨rfl, rfl, by simp⟩
  | accept | reject | take | ended | close | drop => simp at worker
  | _ => exact ⟨rfl, rfl, by simp⟩

private theorem actsOn_of_mem_signals (told : h ∈ b.signals i n b') : h.actsOn i = true := by
  simp only [Bridge.signals, List.mem_append, List.mem_map] at told
  rcases told with ⟨s, -, rfl⟩ | ended | deaf
  · exact beq_self_eq_true i
  · split at ended
    · contradiction
    · obtain rfl := List.mem_singleton.1 ended
      exact beq_self_eq_true i
  · split at deaf
    · contradiction
    · obtain rfl := List.mem_singleton.1 deaf
      exact beq_self_eq_true i

/-- The client says nothing, and goes on wanting what it wanted, while it is told of its link. -/
theorem run_of_actsOn {hs : List Happening} (told : ∀ h ∈ hs, h.actsOn i = true) :
    (c.run hs).accepted = c.accepted ∧ ((c.run hs).Wants i ↔ c.Wants i) := by
  induction hs generalizing c with
  | nil => exact ⟨rfl, .rfl⟩
  | cons h hs ih =>
    have first : (c.step h).accepted = c.accepted ∧ ((c.step h).Wants i ↔ c.Wants i) := by
      have here := told h List.mem_cons_self
      cases h with
      | push | deafen | hangUp => exact ⟨rfl, .rfl⟩
      | _ => contradiction
    obtain ⟨accepted, wants⟩ := ih (c := c.step h) fun h mem => told h (List.mem_cons_of_mem _ mem)
    exact ⟨accepted.trans first.1, wants.trans first.2⟩

/-- Both agree after a turn of a worker. -/
theorem stands_work (stands : Stands arrived i s) (worker : d = .read ∨ ∃ ok, d = .write ok) :
    Stands arrived i (s.work i d) := by
  have does := s.bridge.act_does d
  have told : ∀ h ∈ s.bridge.signals i (s.bridge.act d).2 (s.bridge.act d).1, h.actsOn i = true :=
    fun _ => actsOn_of_mem_signals
  obtain ⟨link, quiet, goesOn⟩ := link_of_worker worker does
  obtain ⟨accepted, wants⟩ := run_of_actsOn (c := s.client) told
  refine ⟨untouched_run stands.untouched _, ?_, ?_, ?_, fun wanted => ?_⟩
  · obtain ⟨before, bridge, noted⟩ := stands.bridge
    refine ⟨before ++ [d], ?_, ?_⟩
    · rw [Bridge.run_append, ← bridge]
      rfl
    · rw [Bridge.trace_append, ← bridge, ← noted, Bridge.trace_cons,
        Bridge.trace_nil, List.append_nil]
      rfl
  · obtain ⟨room, epoch, hl⟩ := stands.link
    refine ⟨room, epoch, ?_⟩
    rcases worker with rfl | ⟨ok, rfl⟩
    · exact links_read stands.reads does hl
    · exact links_write stands.writes does hl
  · change ((s.client.run _).accepted.filter _).map _ = (s.noted ++ _).filterMap _
    rw [accepted, Bridge.filterMap_concat, quiet, stands.said]
    exact (List.append_nil _).symm
  · obtain ⟨held, going⟩ := stands.wanted (wants.1 wanted)
    refine ⟨link.trans held, fun found => ?_⟩
    rcases List.mem_append.1 found with before | now
    · exact going before
    · exact goesOn (Option.mem_toList.1 now)

/-- Both agree after every move. -/
theorem stands_step (stands : Stands arrived i s) (m : Move) : Stands arrived i (s.step i m) := by
  cases m with
  | read => exact stands_work stands (.inl rfl)
  | write ok => exact stands_work stands (.inr ⟨ok, rfl⟩)
  | happen h =>
    rw [step]
    split
    · exact stands
    · next apart => exact stands_happen stands (by simpa using apart)

/-- Both agree along every run. -/
theorem stands_run (stands : Stands arrived i s) (ms : List Move) :
    Stands arrived i (s.run i ms) := by
  induction ms generalizing s with
  | nil => exact stands
  | cons m ms ih => exact ih (stands_step stands m)

/-- What becomes of the client is a run of it. -/
theorem client_run (i : Nat) (s : Attached) (ms : List Move) :
    ∃ hs, (s.run i ms).client = s.client.run hs := by
  induction ms generalizing s with
  | nil => exact ⟨[], rfl⟩
  | cons m ms ih =>
    have first : ∃ hs, (s.step i m).client = s.client.run hs := by
      cases m with
      | read => exact ⟨_, rfl⟩
      | write ok => exact ⟨_, rfl⟩
      | happen h =>
        rw [step]
        split
        · exact ⟨[], rfl⟩
        · exact ⟨[h], rfl⟩
    obtain ⟨hs, first⟩ := first
    obtain ⟨hs', rest⟩ := ih (s.step i m)
    exact ⟨hs ++ hs', by rw [Client.run_append, ← first]; exact rest⟩

/-! ## A link that a server opens -/

section Opened

variable {a : Nat} {attempt : Attempt}

/-- The client and a bridge over which nothing has gone yet, when the server has accepted the
attempt. -/
def opened (c : Client) (a : Nat) (arrived : List SocketEvent) : Attached where
  client := c.step (.settle a (.accepted none))
  bridge := Bridge.start arrived

private theorem stands_opened (u : c.Untouched) (running : c.stopped = false)
    (asked : c.attempts[a]? = some attempt) (early : attempt.status ≠ .settled)
    (arrived : List SocketEvent) : Stands arrived c.links.length (opened c a arrived) := by
  have after : (opened c a arrived).client.toNetwork =
      c.toNetwork.conclude a attempt (.accepted none) := by
    change (if c.stopped then _ else c.toNetwork.settleLate a (.accepted none)) = _
    rw [running, Network.settleLate, asked]
    exact if_neg early
  refine ⟨untouched_step u (.settle a (.accepted none)), ⟨[], rfl, rfl⟩,
    ⟨attempt.endpoint.room, attempt.epoch, ?_⟩, ?_, fun _ => ⟨rfl, by simp [opened]⟩⟩
  · rw [after]
    exact List.getElem?_concat_length
  -- Nothing was said on a link that there was not.
  · rw [after]
    change (c.accepted.filter (·.1 == c.links.length)).map _ = []
    rw [List.map_eq_nil_iff, List.filter_eq_nil_iff]
    intro p mem
    have inside := u.said p.1 p.2 mem
    simp only [beq_iff_eq]
    omega

/-- However the client and the workers go on, the one is a run of the client and the other a run of
the bridge, and the record of the link and its frames agree with the bridge. -/
theorem run_attached (u : c.Untouched) (running : c.stopped = false)
    (asked : c.attempts[a]? = some attempt) (early : attempt.status ≠ .settled)
    (arrived : List SocketEvent) (ms : List Move) :
    let s := (opened c a arrived).run c.links.length ms
    (∃ hs, s.client = c.run (.settle a (.accepted none) :: hs)) ∧
      Stands arrived c.links.length s := by
  intro s
  refine ⟨?_, stands_run (stands_opened u running asked early arrived) ms⟩
  obtain ⟨hs, after⟩ := client_run c.links.length (opened c a arrived) ms
  exact ⟨hs, after⟩

end Opened

/-- The link takes a frame just when the bridge accepts it. -/
theorem Stands.answer (stands : Stands arrived i s) (held : s.bridge.link = .held)
    (f : Wire.Frame) :
    (s.client.toNetwork.transmit i f).2 = true ↔
      (s.bridge.act (.send f.write)).2 = some (.accepted f.write) := by
  obtain ⟨room, epoch, hl⟩ := stands.link
  rw [Network.transmit, hl, Bridge.act, Bridge.send, if_pos held]
  cases tapped : s.bridge.outbound.tapped with
  | true => simp [Link.reads, Bridge.asLink, tapped, Channel.put?_of_tapped tapped]
  | false => simp [Link.reads, Bridge.asLink, tapped, Channel.put?_of_closed tapped]

/-- The texts on the link are those that the socket says. The socket is given the frames that were
taken on the link, and all of them if the writer has its turns and nothing fails, whatever the
client does meanwhile. -/
theorem Stands.relays (stands : Stands arrived i s) :
    let frames := (s.client.accepted.filter (·.1 == i)).map fun p => SocketWrite.text p.2.write
    ∃ l, s.client.links[i]? = some l ∧
      l.pushed <+: spoken arrived ∧
      (l.ended = true → s.noted.filterMap Notice.refused? = [] → l.pushed = spoken arrived) ∧
      s.noted.filterMap Notice.written? <+: frames ++ [.close] ∧
      ∀ ds, 2 * frames.length ≤ ds.countP Deed.isWrite →
        (s.noted ++ s.bridge.trace ds).filterMap Notice.failed? = [] →
        frames <+: (s.noted ++ s.bridge.trace ds).filterMap Notice.written? := by
  intro frames
  obtain ⟨room, epoch, hl⟩ := stands.link
  obtain ⟨before, bridge, noted⟩ := stands.bridge
  obtain ⟨hears, speaks⟩ := Bridge.run_relays arrived before
  rw [← bridge, ← noted] at hears speaks
  have same : frames = (s.noted.filterMap Notice.accepted?).map .text := by
    rw [← stands.said, List.map_map]
    rfl
  refine ⟨_, hl, ?_, fun ended refused => ?_, ?_, fun ds turns fine => ?_⟩
  · exact (List.prefix_append ..).trans hears.ordered
  · have fed : s.bridge.inbound.fed = false := by simpa [Bridge.asLink] using ended
    exact (hears.ended fed refused).1
  · rw [same]
    exact (List.prefix_append ..).trans speaks.ordered
  · rw [same] at turns ⊢
    exact speaks.complete ds (by simpa using turns) fine

end Attached

end ChatClient
