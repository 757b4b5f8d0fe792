import ChatClient.Proofs.Session.Handover
import ChatClient.Proofs.Session.Lifetime
import ChatClient.Proofs.Session.Untouched
import Mathlib.Tactic.Common

/-!
# An outcome and a change of the room, in either order

The client waits for the outcome of its attempt when its user goes on to another room. Which of the
two it meets first is left to chance, and what it does then is quite different. If the outcome comes
first, a link comes into use, or the next attempt is put off, and the selection undoes this. If the
selection comes first, another attempt is begun, and the outcome is one of an earlier session.

In the end there is no difference that anybody could tell. The two meet in a client that is given
outright here, as the old one with a new session. A link that was opened meanwhile is closed either
way, before anything was said on it.

## Main definitions

* `Client.gist`: the client without what nobody can tell
* `Client.moved`: where a change of the room leads, whatever was going on
* `Client.Awaits`: the outcome of the current attempt is on its way
* `Client.Unused`: a link was closed by the client and nothing was ever said on it

## Main results

* `gist_select`: a change of the room leads there
* `Awaits.moved_eq`: the outcome does not change where it leads
* `run_commutes`: both orders lead to the same place
-/

namespace ChatClient.Client

/-- The client without the number of announcements, without the links, which are not part of its own
state, and without all attempts but the one whose outcome it waits for. -/
def gist (c : Client) : Client :=
  { c with
    publications := 0
    links := []
    attempts := (c.pending.bind fun i => c.attempts[i]?).toList }

/-- The gist of a client that has moved on to a room, or to none. -/
def moved (c : Client) (next : Option RoomId) : Client :=
  let state : ConnectionState := if next.isSome then .connecting else .idle
  { c with
    machine := { c.machine with state, attempts := 0 }
    room := next
    epoch := c.epoch + 1
    link := none
    pending := next.map fun _ => c.attempts.length
    timer := none
    published := state
    publications := 0
    links := []
    attempts := next.toList.map fun room => { c.attempt room with epoch := c.epoch + 1 } }

/-- The client connects a room, and the outcome of its attempt is on its way, behind others. -/
structure Awaits (c : Client) (room : RoomId) (old : List Outcome) (o : Outcome)
    (later : List Outcome) : Prop where
  connecting : c.machine.state = .connecting
  active : c.room = some room
  queued : c.outcomes = old ++ o :: later
  current : o.epoch = c.epoch

/-- The link of the given number is there, the client has closed it, and no frame was taken on
it. -/
def Unused (c : Client) (i : Nat) : Prop :=
  ∃ l, c.links[i]? = some l ∧ l.closed = true ∧ ∀ f, (i, f) ∉ c.accepted

variable {c : Client}

/-! ## Moving on -/

/-- A session ends in the network only for an attempt and a link. -/
theorem exists_withdraw (c : Client) : ∃ attempts links,
    c.withdraw = { c.toNetwork with attempts, links } ∧ attempts.length = c.attempts.length := by
  rw [withdraw]
  cases c.pending <;> cases c.link <;>
    exact ⟨_, _, rfl, by simp [Network.abort]⟩

/-- A client that leaves a room is the same afterwards as if it had been told so at once, up to what
nobody can tell. -/
theorem gist_select {next : Option RoomId} (leaves : c.stays next = false) :
    (c.select next).gist = c.moved next := by
  obtain ⟨attempts, links, withdrawn, same⟩ := c.exists_withdraw
  rw [select, leaves, teardown, withdrawn]
  cases next with
  | none => rfl
  | some room =>
    simp [begin, proceed, Machine.start, Machine.teardown, execute, connect, attempt,
      publish, gist, moved, same]

/-! ## Looking at an outcome -/

section Looking

variable (running : c.stopped = false) {o : Outcome} {os : List Outcome}
  (queued : c.outcomes = o :: os)
include running queued

/-- An outcome of an earlier session only has its link closed. -/
theorem step_stale (stale : o.epoch ≠ c.epoch) :
    (∃ links, c.step (.turn .outcome) = { c with links, outcomes := os }) ∧
      ∀ i, o.link = some i → (c.step (.turn .outcome)).toNetwork.IsClosed i := by
  rw [step_outcome_eq running queued, handleOutcome, if_neg stale]
  cases link : o.link with
  | none =>
    refine ⟨⟨c.links, ?_⟩, by simp⟩
    simp [Network.dropOutcome, link]
  | some i =>
    refine ⟨⟨c.links.modify i Link.close, ?_⟩, fun j same => ?_⟩
    · simp [Network.dropOutcome, link, Network.onLink]
    · obtain rfl := Option.some.inj same
      have closed := Network.isClosed_onLink { c.toNetwork with outcomes := os } i
      simpa [Network.dropOutcome, link] using closed

end Looking

/-- Outcomes of earlier sessions are looked at one after the other. -/
theorem run_stale (running : c.stopped = false) {old rest : List Outcome}
    (queued : c.outcomes = old ++ rest) (stale : ∀ o ∈ old, o.epoch ≠ c.epoch) :
    ∃ links, c.run (List.replicate old.length (.turn .outcome)) =
      { c with links, outcomes := rest } := by
  induction old generalizing c with
  | nil =>
    obtain rfl : c.outcomes = rest := queued
    exact ⟨c.links, rfl⟩
  | cons o old ih =>
    rw [List.cons_append] at queued
    obtain ⟨first, others⟩ := List.forall_mem_cons.1 stale
    obtain ⟨⟨links, after⟩, -⟩ := step_stale running queued first
    obtain ⟨links', done⟩ := ih (c := { c with links, outcomes := old ++ rest }) running rfl others
    exact ⟨links', by rw [List.length_cons, List.replicate_succ, run_cons, after, done]⟩

/-- Where nothing waits for the room nothing is sent when a link opens. -/
theorem flushQueue_of_nothing {room : RoomId} (active : c.room = some room)
    (retains : c.profile.flushPolicy = .retainOtherRooms)
    (nothing : ∀ e ∈ c.outbox.entries, e.room ≠ room) : c.flushQueue = c := by
  have none_ : (c.outbox.entries.filter fun e => e.room == room) = [] := by
    rw [List.filter_eq_nil_iff]
    simpa using nothing
  have flushed : (c.outbox.flush c.disk fun e => e.room == room) = (c.outbox, c.disk, .ok []) := by
    simp [Outbox.flush, none_]
  rw [flushQueue_of_ok active flushed]
  simp [dropOthers, retains, transmitOrRequeue, transmitAll]

namespace Awaits

variable {room : RoomId} {old : List Outcome} {o : Outcome} {later : List Outcome}

/-- What the outcome brings about is undone by moving on. -/
theorem moved_eq (a : c.Awaits room [] o later) (running : c.stopped = false)
    (retains : c.profile.flushPolicy = .retainOtherRooms)
    (nothing : ∀ e ∈ c.outbox.entries, e.room ≠ room) (next : Option RoomId) :
    (c.step (.turn .outcome)).moved next = { c with outcomes := later }.moved next ∧
      (c.step (.turn .outcome)).room = some room ∧
      ∀ i, o.link = some i → (c.step (.turn .outcome)).link = some i := by
  have queued : c.outcomes = o :: later := a.queued
  cases link : o.link with
  | none =>
    have busy : c.machine.busy = true := by simp [Machine.busy, a.connecting]
    rw [step_outcome_eq running queued, handleOutcome, if_pos a.current, link]
    simp only [announce, Machine.closed_of_busy busy, execute]
    exact ⟨rfl, a.active, by simp⟩
  | some i =>
    have unsent : (c.opening later i).flushQueue = c.opening later i :=
      flushQueue_of_nothing a.active retains nothing
    rw [step_outcome_of_running running, c.outcome_opens queued a.current link a.connecting, unsent]
    exact ⟨rfl, a.active, fun j same => same⟩

/-! ## Both orders -/

section Orders

variable (a : c.Awaits room old o later) (u : c.Untouched) {next : Option RoomId}
  (away : next ≠ some room)
include a u away

/-- The outcomes are looked at, and then the client moves on. -/
theorem outcome_first (retains : c.profile.flushPolicy = .retainOtherRooms)
    (nothing : ∀ e ∈ c.outbox.entries, e.room ≠ room) (stale : ∀ o' ∈ old, o'.epoch ≠ c.epoch)
    {c' : Client} (after : c' = c.run (List.replicate (old.length + 1) (.turn .outcome) ++
      [.turn (.command (.select next))])) :
    c'.gist = { c with outcomes := later }.moved next ∧
      ∀ i, o.link = some i → c'.toNetwork.IsClosed i := by
  have running := u.running (o := o) (by simp [a.queued])
  obtain ⟨links, skipped⟩ := run_stale running a.queued stale
  -- Only the awaited outcome is left in front.
  have here : Awaits { c with links, outcomes := o :: later } room [] o later :=
    ⟨a.connecting, a.active, rfl, a.current⟩
  obtain ⟨undone, active, held⟩ := here.moved_eq running retains nothing next
  let c₂ := c.run (List.replicate (old.length + 1) (.turn .outcome))
  have looked : c₂ = { c with links, outcomes := o :: later }.step (.turn .outcome) := by
    simp only [c₂, List.replicate_succ', run_append, skipped, run_cons, run_nil]
  rw [← looked] at undone active held
  have goesOn : c₂.stopped = false := by
    rw [looked, stopped_step_of_ne _ (by simp)]
    exact running
  have leaves : c₂.stays next = false := by simp [stays, active, away]
  have last : c' = c₂.step (.turn (.command (.select next))) := by rw [after, run_append]; rfl
  rw [last]
  refine ⟨?_, fun i link => ?_⟩
  · rw [step_of_running goesOn]
    exact (gist_select leaves).trans undone
  · have inside : i < c₂.links.length := (untouched_run u _).known.link i (held i link)
    exact isClosed_of_leaves (by simp [Client.leaves, goesOn, leaves]) (held i link) inside

/-- The client moves on, and then all outcomes are those of earlier sessions. -/
theorem select_first (stale : ∀ o' ∈ old, o'.epoch ≠ c.epoch + 1) {c' : Client}
    (after : c' = c.run (.turn (.command (.select next)) ::
      List.replicate (old.length + 1) (.turn .outcome))) :
    c'.gist = { c with outcomes := later }.moved next ∧
      ∀ i, o.link = some i → c'.toNetwork.IsClosed i := by
  have running := u.running (o := o) (by simp [a.queued])
  have leaves : c.stays next = false := by simp [stays, a.active, away]
  have gist := gist_select leaves
  rw [run_cons, step_of_running running] at after
  change c' = (c.select next).run _ at after
  generalize c.select next = d at gist after
  have goesOn : d.stopped = false := (congrArg (fun c : Client => c.stopped) gist).trans running
  have queued : d.outcomes = old ++ o :: later :=
    (congrArg (fun c : Client => c.outcomes) gist).trans a.queued
  have epoch : d.epoch = c.epoch + 1 := congrArg (fun c : Client => c.epoch) gist
  -- First those of sessions that were over before, then the one that was awaited.
  obtain ⟨links, skipped⟩ := run_stale goesOn queued (by simpa [epoch] using stale)
  obtain ⟨⟨links', dropped⟩, closed⟩ := step_stale (c := { d with links, outcomes := o :: later })
    goesOn rfl (by simp [epoch, a.current])
  simp only [List.replicate_succ', run_append, skipped, run_cons, run_nil] at after
  rw [← after] at dropped closed
  refine ⟨?_, closed⟩
  rw [dropped]
  exact congrArg (fun c : Client => { c with outcomes := later }) gist

end Orders

/-- The outcomes in front of the awaited one belong neither to the session nor to the next one, as
long as the numbers do not run out. -/
theorem stale (a : c.Awaits room old o later) (s : c.standing.Sound)
    (bound : c.epoch.toNat + 1 < 2 ^ 64) :
    ∀ o' ∈ old, o'.epoch ≠ c.epoch ∧ o'.epoch ≠ c.epoch + 1 := by
  intro o' ho
  refine ⟨fun same => ?_, UInt64.ne_of_lt (epoch_lt_succ (s.outcomes_le o' ?_) bound)⟩
  -- There is only one outcome of the session, and it is the awaited one.
  · have one : c.standing.inFlight c.epoch = 1 := s.inFlight_eq.trans (if_pos a.connecting)
    have counted : 0 < old.countP (·.epoch == c.epoch) :=
      List.countP_pos_iff.2 ⟨o', ho, by simp [same]⟩
    have queued : c.standing.outcomes = old ++ o :: later := a.queued
    simp only [Standing.inFlight, queued, List.countP_append, List.countP_cons] at one
    simp only [a.current, beq_self_eq_true, if_true] at one
    omega
  · change o' ∈ c.outcomes
    simp [a.queued, ho]

end Awaits

/-- The link of an outcome that was let go before anything was said on it. -/
theorem unused_of_isClosed (u : c.Untouched) {o : Outcome} (ho : o ∈ c.outcomes) {i : Nat}
    (link : o.link = some i) {hs : List Happening} (closed : (c.run hs).toNetwork.IsClosed i)
    (silent : (c.run hs).accepted = c.accepted) : (c.run hs).Unused i := by
  have known := u.known.outcomes o ho i link
  have longer := Network.length_le_of_grows (c.grows_run hs)
  have here := List.getElem?_eq_getElem (Nat.lt_of_lt_of_le known longer)
  refine ⟨_, here, closed _ here, fun f => ?_⟩
  rw [silent]
  exact u.silent o ho i f link

/-- A client that keeps what waits for other rooms waits for the outcome of its attempt, and nothing
waits for its room. Whether it first looks at its outcomes up to that one and then moves on to
another room or to none, or the other way round, it is the same client in the end, up to what nobody
can tell: the old one in a new session, without the outcomes. A link that the outcome tells of has
been closed either way, and nothing was said on it.

If outcomes of earlier sessions wait in front, the numbers of the sessions must not have run out. -/
theorem run_commutes (profile : Profile) (backoff : Backoff) (outbox : Outbox) (chat : Chat)
    (disk : Disk) (clock : Timestamp) (hs : List Happening) {c : Client} {room : RoomId}
    {old later : List Outcome} {o : Outcome} {next : Option RoomId}
    (reached : (start profile backoff outbox chat disk clock).run hs = c)
    (awaits : c.Awaits room old o later)
    (bound : old = [] ∨ (start profile backoff outbox chat disk clock).teardowns hs + 1 < 2 ^ 64)
    (retains : profile.flushPolicy = .retainOtherRooms)
    (nothing : ∀ e ∈ c.outbox.entries, e.room ≠ room) (away : next ≠ some room) :
    let look : List Happening := List.replicate (old.length + 1) (.turn .outcome)
    let switch : Happening := .turn (.command (.select next))
    (c.run (look ++ [switch])).gist = (c.run (switch :: look)).gist ∧
      (c.run (switch :: look)).gist = { c with outcomes := later }.moved next ∧
      ∀ i, o.link = some i →
        (c.run (look ++ [switch])).Unused i ∧ (c.run (switch :: look)).Unused i := by
  intro look switch
  have u : c.Untouched := reached ▸ untouched_run (untouched_start ..) hs
  have keeps : c.profile.flushPolicy = .retainOtherRooms := by
    rw [← reached, profile_run]
    exact retains
  have stale : ∀ o' ∈ old, o'.epoch ≠ c.epoch ∧ o'.epoch ≠ c.epoch + 1 := by
    rcases bound with rfl | bound
    · simp
    · obtain ⟨sound, counted⟩ := sound_run (sound_start profile backoff outbox chat disk clock) hs
        (by change 0 + _ < _; omega)
      rw [reached] at sound counted
      exact awaits.stale sound (by rw [counted]; simpa [start] using bound)
  -- Both orders come to the same gist, written out as the third.
  obtain ⟨first, closed⟩ :=
    awaits.outcome_first u away keeps nothing (fun o' ho => (stale o' ho).1) rfl
  obtain ⟨second, closed'⟩ := awaits.select_first u away (fun o' ho => (stale o' ho).2) rfl
  have mem : o ∈ c.outcomes := by simp [awaits.queued]
  have silent {c' : Client} (gist : c'.gist = { c with outcomes := later }.moved next) :
      c'.accepted = c.accepted := by
    have same : c'.gist.accepted = c.accepted := by rw [gist]; rfl
    exact same
  exact ⟨first.trans second.symm, second, fun i link =>
    ⟨unused_of_isClosed u mem link (closed i link) (silent first),
      unused_of_isClosed u mem link (closed' i link) (silent second)⟩⟩

end ChatClient.Client

namespace ChatClient

/-! ### A detour

The user goes to the lobby while the client is on its way to the attic, and back when the links of
both rooms have opened but nobody has looked at them. -/

namespace Detour

def restless : Client :=
  .start profile {} (.inMemory [line attic "two"]) .empty {} .epoch

def crossing : List Happening := [
  .turn (.command (.select (some attic))), .settle 0 (.accepted none),
  .turn (.command (.select (some lobby))), .settle 1 (.accepted none)]

def look : List Happening := [.turn .outcome, .turn .outcome]

def back : Happening := .turn (.command (.select (some attic)))

end Detour

theorem run_commutes_detour :
    (Detour.restless.run Detour.crossing).outcomes = [⟨1, some 0⟩, ⟨2, some 1⟩] ∧
      ((Detour.restless.run Detour.crossing).run (Detour.look ++ [Detour.back])).gist =
        ((Detour.restless.run Detour.crossing).run (Detour.back :: Detour.look)).gist ∧
      ((Detour.restless.run Detour.crossing).run (Detour.look ++ [Detour.back])).Unused 1 ∧
      ((Detour.restless.run Detour.crossing).run (Detour.back :: Detour.look)).Unused 1 := by
  have queued :
      (Detour.restless.run Detour.crossing).outcomes = [⟨1, some 0⟩] ++ ⟨2, some 1⟩ :: [] := by
    decide
  have awaits :
      (Detour.restless.run Detour.crossing).Awaits Detour.lobby [⟨1, some 0⟩] ⟨2, some 1⟩ [] :=
    ⟨by decide, by decide, queued, by decide⟩
  obtain ⟨same, -, unused⟩ :=
    Client.run_commutes Detour.profile {} (.inMemory [Detour.line Detour.attic "two"])
    .empty {} .epoch Detour.crossing rfl awaits (.inr (by decide)) rfl (by decide)
    (by decide : some Detour.attic ≠ some Detour.lobby)
  exact ⟨queued, same, unused 1 rfl⟩

end ChatClient
