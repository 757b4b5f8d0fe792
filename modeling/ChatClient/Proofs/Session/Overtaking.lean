import ChatClient.Proofs.Session.Custody
import ChatClient.Proofs.Session.Schedule
import Mathlib.Tactic.Common

/-!
# When a payload overtakes another

A client that is open hands a payload to its link without a look at the outbox. Nothing waits there
for the room of the link as long as what waited was handed over when the link came into use. But if
it could not be taken out of the outbox then, because the file could not be written, it stays where
it is, and what is sent later leaves before it.

## Main definitions

* `Client.overtakes`: a payload is taken while another one waits for its room
* `Client.entrances`: the links that come into use, and whether they were handed what waited
* `Client.Clear`: the invariant

## Main results

* `overtakes_detour`: it does happen
* `Exchanges.order`: no step changes the order in a room while the client is clear
* `run_keepsOrder`: payloads are only overtaken on a link that was not handed what waited, and
  without such a link all that leaves for a room leaves in the order in which it was sent
-/

namespace ChatClient

namespace Client

/-- A payload is taken at once while another one waits for the same room. -/
def overtakes (c : Client) : Happening → Bool
  | .turn (.command (.send p)) =>
    !(c.takes (.turn (.command (.send p)))).isEmpty &&
      c.outbox.entries.any fun e => e.room == (c.entry p).room
  | _ => false

end Client

/-- The file could not be written when the second link opened, so that the last payload leaves while
two others still wait for the same room. -/
theorem overtakes_detour :
    (Detour.cautious.run Detour.mishaps.dropLast).overtakes
        (.turn (.command (.send (Detour.note "fourth")))) = true ∧
      (Detour.cautious.run Detour.mishaps).delivered = ["first", "fourth"].map Detour.note ∧
      (Detour.cautious.run Detour.mishaps).outbox.entries =
        ["second", "third"].map fun body => ⟨Detour.lobby, Detour.note body⟩ := by
  decide

namespace Client

/-- Of every link that comes into use, whether what waited for its room was taken out of the outbox
to be handed to it. -/
def entrances (c : Client) (h : Happening) : List Bool :=
  if c.findsLink h then [c.succeeds h && c.flushes] else []

/-- Nothing waits for the room of a link that takes frames. -/
def Clear (c : Client) : Prop :=
  c.canSend = true → c.machine.state = .open →
    ∃ room, c.room = some room ∧ ∀ e ∈ c.outbox.entries, e.room ≠ room

/-- Links are there before they are used. -/
structure Known (c : Client) : Prop where
  link : ∀ i, c.link = some i → i < c.links.length
  outcomes : ∀ o ∈ c.outcomes, ∀ i, o.link = some i → i < c.links.length

variable {c c' : Client}

/-! ## Links are known -/

private theorem outcomes_execute (c : Client) (action : Option ConnectionAction) :
    (c.execute action).outcomes = c.outcomes := by
  unfold execute
  split
  · rfl
  · rw [connect]
    split <;> rfl
  · exact congrArg Standing.outcomes c.standing_flushQueue
  · rfl

private theorem outcomes_select (c : Client) (room : Option RoomId) :
    (c.select room).outcomes = c.outcomes := by
  cases stays : c.stays room with
  | true => rw [select, if_pos stays]
  | false =>
    cases room with
    | none => exact congrArg Standing.outcomes (c.standing_select_none stays)
    | some room => exact congrArg Standing.outcomes (c.standing_select_some stays)

private theorem outcomes_listen (c : Client) : (c.listen?.getD c).outcomes = c.outcomes := by
  rw [listen?]
  split
  · next r _ =>
    exact congrArg Standing.outcomes (standing_handleText
      { c with toNetwork := c.toNetwork.onLink r.link Link.take } r.text)
  · split
    · split
      · exact outcomes_execute ..
      · rfl
    · rfl

private theorem outcomes_timer (c : Client) : (c.timer?.getD c).outcomes = c.outcomes := by
  rw [timer?]
  split
  · rfl
  · split
    · exact outcomes_execute ..
    · rfl

private theorem outcomes_handleOutcome (c : Client) (o : Outcome) :
    (c.handleOutcome o).outcomes = c.outcomes := by
  rw [handleOutcome]
  split
  · split <;> exact outcomes_execute ..
  · exact congrArg Standing.outcomes (c.standing_dropOutcome o)

/-- The client only ever lets go of outcomes. -/
theorem outcomes_turn_sublist (c : Client) (t : Turn) :
    (c.step (.turn t)).outcomes.Sublist c.outcomes := by
  have same {os : List Outcome} (h : os = c.outcomes) : os.Sublist c.outcomes := by rw [h]
  cases running : c.stopped with
  | true => rw [step_of_stopped running]
  | false =>
    rw [step_of_running running]
    cases t with
    | outcome =>
      change (c.outcome?.getD c).outcomes.Sublist c.outcomes
      rw [outcome?]
      split
      · exact List.Sublist.refl _
      · next o os queued =>
        change ({ c with outcomes := os }.handleOutcome o).outcomes.Sublist c.outcomes
        rw [outcomes_handleOutcome, queued]
        exact List.sublist_cons_self o os
    | listen => exact same (outcomes_listen c)
    | timer => exact same (outcomes_timer c)
    | command command =>
      cases command with
      | select room => exact same (outcomes_select c room)
      | send p => exact same (congrArg Standing.outcomes (c.standing_send p))
      | typing on => exact same (congrArg Standing.outcomes (c.standing_sendTyping on))
      | shutdown => exact List.nil_sublist _

/-- An outcome that is new comes with the link that it tells of. -/
theorem outcomes_settleLate (n : Network) (j : Nat) (h : Handshake) :
    (n.settleLate j h).outcomes = n.outcomes ∨
      ∃ o, (n.settleLate j h).outcomes = n.outcomes ++ [o] ∧
        ∀ i, o.link = some i → i = n.links.length ∧ i < (n.settleLate j h).links.length := by
  rw [Network.settleLate.eq_def]
  split
  · next a _ =>
    split
    · exact .inl rfl
    · right
      cases h with
      | accepted accepts =>
        refine ⟨⟨a.epoch, some n.links.length⟩, rfl, fun i link => ?_⟩
        obtain rfl : n.links.length = i := Option.some.inj link
        simp [Network.conclude]
      | refused => exact ⟨⟨a.epoch, none⟩, rfl, fun i link => by simp at link⟩
  · exact .inl rfl

/-- In a step outcomes are let go, or there is one more. -/
theorem outcomes_step (c : Client) (h : Happening) :
    (c.step h).outcomes.Sublist c.outcomes ∨
      (c.stopped = false ∧ ∃ o, (c.step h).outcomes = c.outcomes ++ [o] ∧
        ∀ i, o.link = some i → i = c.links.length ∧ i < (c.step h).links.length) := by
  cases h with
  | turn t => exact .inl (c.outcomes_turn_sublist t)
  -- Only an attempt that is settled gives an outcome.
  | settle j h =>
    cases stopped : c.stopped with
    | true =>
      have none_ : (c.step (.settle j h)).outcomes = [] := by
        simp [step, stopped, Network.dropOutcomes]
      rw [none_]
      exact .inl (List.nil_sublist _)
    | false =>
      have network : (c.step (.settle j h)).toNetwork = c.toNetwork.settleLate j h := by
        simp [step, stopped]
      rw [network]
      rcases outcomes_settleLate c.toNetwork j h with same | more
      · exact .inl (by rw [same])
      · exact .inr ⟨rfl, more⟩
  | _ => exact .inl (List.Sublist.refl _)

private theorem link_lt_of_mem_step (k : c.Known) (h : Happening) {o : Outcome}
    (ho : o ∈ (c.step h).outcomes) {i : Nat} (link : o.link = some i) :
    i < (c.step h).links.length := by
  have longer := Network.length_le_of_grows (c.grows_step h)
  rcases c.outcomes_step h with fewer | ⟨-, o', more, new⟩
  · exact Nat.lt_of_lt_of_le (k.outcomes o (fewer.subset ho) i link) longer
  · rw [more] at ho
    rcases List.mem_append.1 ho with old | last
    · exact Nat.lt_of_lt_of_le (k.outcomes o old i link) longer
    · obtain rfl := List.mem_singleton.1 last
      exact (new i link).2

/-! ## Which link is in use -/

theorem step_outcome_of_running (running : c.stopped = false) :
    c.step (.turn .outcome) = c.outcome?.getD c := step_of_running running _

private theorem findsLink_of_outcome (running : c.stopped = false) {o : Outcome} {os : List Outcome}
    {i : Nat} (queued : c.outcomes = o :: os) (current : o.epoch = c.epoch)
    (link : o.link = some i) :
    c.findsLink (.turn .outcome) = true := by
  simp [findsLink, running, current?, queued, current, link]

/-- A link that comes into use is the one that the oldest outcome tells of. -/
theorem link_step (c : Client) (h : Happening) :
    ((c.step h).link = none ∨ ((c.step h).link = c.link ∧ (c.step h).room = c.room)) ∨
      (c.findsLink h = true ∧ ∃ o os, c.outcomes = o :: os ∧ (c.step h).outcomes = os ∧
        (c.step h).link = o.link) := by
  cases silent : speaks h with
  | false => exact .inl (c.step_quiet silent).link
  | true =>
    cases h with
    | turn t =>
      cases running : c.stopped with
      | true =>
        rw [step_of_stopped running]
        exact .inl (.inr ⟨rfl, rfl⟩)
      | false =>
        cases t with
        -- Only here a link can come into use: all else leaves the link or gives it up.
        | outcome =>
          rw [step_outcome_of_running running]
          rcases c.outcome_cases with quiet | ⟨o, os, i, queued, current, link, opens | stays⟩
          · exact .inl quiet.link
          · have same := (c.opening os i).standing_flushQueue
            rw [opens.2]
            exact .inr ⟨findsLink_of_outcome running queued current link, o, os, queued,
              congrArg Standing.outcomes same, (congrArg Standing.link same).trans link.symm⟩
          · rw [stays.2]
            exact .inr ⟨findsLink_of_outcome running queued current link, o, os,
              queued, rfl, link.symm⟩
        | command command =>
          rw [step_of_running running]
          cases command with
          | send p =>
            have same := c.standing_send p
            exact .inl (.inr ⟨congrArg Standing.link same, congrArg Standing.room same⟩)
          | typing on =>
            have same := c.standing_sendTyping on
            exact .inl (.inr ⟨congrArg Standing.link same, congrArg Standing.room same⟩)
          | _ => simp [speaks] at silent
        | _ => simp [speaks] at silent
    | _ => simp [speaks] at silent

/-- Links that the client knows of do not vanish. -/
theorem known_step (k : c.Known) (h : Happening) : (c.step h).Known where
  link i held := by
    have longer := Network.length_le_of_grows (c.grows_step h)
    rcases c.link_step h with (gone | ⟨same, -⟩) | ⟨-, o, os, queued, -, new⟩
    · simp [gone] at held
    · exact Nat.lt_of_lt_of_le (k.link i (same ▸ held)) longer
    · exact Nat.lt_of_lt_of_le (k.outcomes o (by simp [queued]) i (new ▸ held)) longer
  outcomes o ho i link := link_lt_of_mem_step k h ho link

/-- The client is only ever open after an attempt of its session has succeeded. -/
theorem open_of_step (h : Happening) (fails : c.succeeds h = false)
    (isOpen : (c.step h).machine.state = .open) : c.machine.state = .open := by
  have none_ : Milestone.opened ∉ c.milestones h := by simp [milestones, fails]
  have paces := c.step_paces h
  generalize c.milestones h = ms at none_ paces
  cases paces with
  | keep machine => rwa [machine] at isOpen
  | leave machine => simp [machine, Machine.teardown] at isOpen
  | enter machine => simp [machine] at isOpen
  | succeed => simp at none_
  | fail machine => simp [machine, Machine.failed] at isOpen
  | retry due armed elapsed machine => simp [machine] at isOpen
  | lapse machine =>
    rcases machine with same | connecting
    · rwa [same] at isOpen
    · simp [connecting] at isOpen

/-! ## Whether something waits for the room of the link -/

/-- A link that was handed what waited leaves nothing behind while it takes frames. -/
theorem HandsOver.clear {room : RoomId} {i : Nat} {sent left others : List QueueEntry}
    (hands : HandsOver c c' room i sent left others) (same : c'.room = c.room) : c'.Clear := by
  intro reads _
  refine ⟨room, same.trans hands.active, ?_⟩
  have all : left = [] := hands.stuck.resolve_right (by simp [reads])
  rw [hands.entries, all, List.nil_append]
  intro e he
  rcases hands.others_eq with kept | ⟨-, dropped⟩
  · rw [kept, List.mem_filter] at he
    simpa using he.2
  · simp [dropped] at he

/-- A link is only found by looking at the oldest outcome. -/
theorem outcome_of_findsLink {h : Happening} (found : c.findsLink h = true) :
    h = .turn .outcome ∧ c.stopped = false ∧
      ∃ o os i, c.outcomes = o :: os ∧ o.epoch = c.epoch ∧ o.link = some i := by
  unfold findsLink at found
  split at found
  · simp only [Bool.and_eq_true, Bool.not_eq_true'] at found
    obtain ⟨running, found⟩ := found
    refine ⟨rfl, running, ?_⟩
    cases queued : c.outcomes with
    | nil => simp [current?, queued] at found
    | cons o os =>
      by_cases current : o.epoch = c.epoch
      · obtain ⟨i, link⟩ := Option.isSome_iff_exists.1 (by
          simpa [current?, queued, current] using found)
        exact ⟨o, os, i, rfl, current, link⟩
      · simp [current?, queued, current] at found
  · contradiction

/-- The link of an attempt that succeeds is handed what waited, if that can be taken out. -/
theorem clear_of_enters {h : Happening} (succeeds : c.succeeds h = true)
    (flushes : c.flushes = true) :
    (c.step h).Clear := by
  simp only [Client.succeeds, Bool.and_eq_true, beq_iff_eq] at succeeds
  obtain ⟨rfl, running, o, os, i, queued, current, link⟩ := outcome_of_findsLink succeeds.1
  rw [step_outcome_of_running running, c.outcome_opens queued current link succeeds.2]
  have room : (c.opening os i).flushQueue.publish.room = c.room :=
    congrArg Standing.room (c.opening os i).standing_flushQueue
  rcases (c.opening os i).flushQueue_cases rfl with ⟨stuck, -⟩ | ⟨room', sent, left, others, hands⟩
  · exact absurd (stuck.symm.trans flushes) (by decide)
  · have hands' : HandsOver c (c.opening os i).flushQueue.publish room' i sent left others :=
      ⟨hands.active, hands.split, hands.accepted, hands.entries, hands.others_eq, hands.stuck⟩
    exact hands'.clear room

/-- As long as no other link comes into use, nothing but what cannot be sent is put into the
outbox. -/
theorem clear_of_stays (k : c.Known) (clear : c.Clear) {h : Happening}
    (none_ : c.findsLink h = false) :
    (c.step h).Clear := by
  intro reads isOpen
  have fails : c.succeeds h = false := by rw [succeeds, none_, Bool.false_and]
  have wasOpen := open_of_step h fails isOpen
  rcases c.link_step h with (gone | ⟨link, room⟩) | ⟨found, -⟩
  · obtain ⟨i, held⟩ := (c.step h).link_of_canSend reads
    simp [gone] at held
  · have read : c.canSend = true := canSend_of_grows k.link (c.grows_step h) link reads
    obtain ⟨active, here, nothing⟩ := clear read wasOpen
    refine ⟨active, room.trans here, ?_⟩
    -- The link was in use before, so it could take frames before. Nothing is put into the outbox
    -- then.
    have x := c.step_exchanges h
    generalize c.sends h = sent, c.takes h = taken at x
    cases x with
    | quiet accepted outbox => rwa [outbox]
    | signal i f bare accepted outbox => rwa [outbox]
    | transmit p i isOpen reads accepted outbox => rwa [outbox]
    | enqueue p cannot =>
      rcases cannot with closed | deaf
      · exact absurd wasOpen closed
      · exact absurd (deaf.symm.trans read) (by decide)
    | handOver room' i sent left others hands =>
      obtain ⟨active', here', still⟩ := hands.clear room reads isOpen
      obtain rfl : active = active' := Option.some.inj (here.symm.trans (room.symm.trans here'))
      exact still
  · exact absurd (found.symm.trans none_) (by decide)

private theorem clear_step (k : c.Known) (clear : c.Clear) (h : Happening)
    (handed : ∀ note ∈ c.entrances h, note = true) : (c.step h).Clear := by
  cases found : c.findsLink h with
  | false => exact clear_of_stays k clear found
  | true =>
    have handed := handed (c.succeeds h && c.flushes) (by simp [entrances, found])
    rw [Bool.and_eq_true] at handed
    exact clear_of_enters handed.1 handed.2

/-- A client that is clear sends nothing past another payload for the same room. -/
theorem not_clear_of_overtakes {h : Happening} (overtakes : c.overtakes h = true) : ¬ c.Clear := by
  intro clear
  unfold Client.overtakes at overtakes
  split at overtakes
  · next p =>
    simp only [Bool.and_eq_true, Bool.not_eq_true', List.any_eq_true, beq_iff_eq] at overtakes
    obtain ⟨taken, e, he, same⟩ := overtakes
    have running : c.stopped = false := by
      by_contra stopped
      rw [takes_eq_nil (by rw [step_of_stopped (by simpa using stopped)])] at taken
      simp at taken
    have x := c.step_exchanges (.turn (.command (.send p)))
    generalize sent_eq : c.sends (.turn (.command (.send p))) = sent at x
    generalize c.takes (.turn (.command (.send p))) = entries at taken x
    -- It was sent at once, or a link was opened, which no payload does.
    cases x with
    | transmit p' i isOpen reads =>
      obtain ⟨room, active, nothing⟩ := clear reads isOpen
      exact nothing e he (by simp [same, entry, active])
    | handOver room i sent left others hands => simp [sends, running] at sent_eq
    | _ => simp at taken
  · contradiction

/-! ## The order in a room -/

/-- What is taken for a room and what waits for it afterwards is what waited for it and what is
sent, in this order. Something may be missing that was dropped. -/
theorem HandsOver.order {room : RoomId} {i : Nat} {sent left others : List QueueEntry}
    (hands : HandsOver c c' room i sent left others) (r : RoomId) :
    ((sent ++ c'.outbox.entries).filter fun e => e.room == r).Sublist
      (c.outbox.entries.filter fun e => e.room == r) := by
  have others_sub : others.Sublist (c.outbox.entries.filter fun e => !(e.room == room)) := by
    rcases hands.others_eq with kept | ⟨-, dropped⟩
    · rw [kept]
    · simp [dropped]
  have later : (others.filter fun e => e.room == r).Sublist
      ((c.outbox.entries.filter fun e => !(e.room == room)).filter fun e => e.room == r) :=
    others_sub.filter _
  rw [hands.entries, ← List.append_assoc, ← hands.split, List.filter_append]
  -- For the room itself nothing is among the others, and for another room nothing is handed over.
  by_cases here : room = r
  · subst here
    have none_ : ((c.outbox.entries.filter fun e => !(e.room == room)).filter
        fun e => e.room == room) = [] := by simp [List.filter_filter]
    rw [none_, List.sublist_nil] at later
    rw [later, List.append_nil, List.filter_filter]
    simp
  · have none_ : ((c.outbox.entries.filter fun e => e.room == room).filter
        fun e => e.room == r) = [] := by
      rw [List.filter_filter, List.filter_eq_nil_iff]
      intro e _
      by_cases there : e.room = room
      · simp [there, here]
      · simp [there]
    rw [none_, List.nil_append]
    exact later.trans (List.filter_sublist.filter _)

/-- Where nothing waits for the room of a link that takes frames, an exchange keeps the order of
every room. -/
theorem Exchanges.order {sent taken : List QueueEntry} (x : Exchanges c c' sent taken)
    (clear : c.Clear) (room : RoomId) :
    ((taken ++ c'.outbox.entries).filter fun e => e.room == room).Sublist
      ((c.outbox.entries ++ sent).filter fun e => e.room == room) := by
  cases x with
  | quiet accepted outbox => rw [outbox, List.nil_append, List.append_nil]
  | signal i f bare accepted outbox => rw [outbox, List.nil_append, List.append_nil]
  | enqueue p cannot accepted entries => rw [entries, List.nil_append]
  | handOver active i sent left others hands =>
    rw [List.append_nil]
    exact hands.order room
  | transmit p i isOpen reads accepted outbox =>
    obtain ⟨active, here, nothing⟩ := clear reads isOpen
    rw [outbox, List.filter_append, List.filter_append]
    by_cases same : (c.entry p).room = room
    -- Nothing waits for the room, so that nothing is overtaken.
    · have none_ : (c.outbox.entries.filter fun e => e.room == room) = [] := by
        rw [List.filter_eq_nil_iff]
        intro e he
        have tag : room = active := by rw [← same, entry, here, Option.getD_some]
        simpa [tag] using nothing e he
      rw [none_, List.append_nil, List.nil_append]
    · simp [same]

/-! ## Along a run -/

private theorem order_run (k : c.Known) (clear : c.Clear) (hs : List Happening)
    (handed : ∀ note ∈ c.record entrances hs, note = true) (room : RoomId) :
    ((c.record takes hs ++ (c.run hs).outbox.entries).filter fun e => e.room == room).Sublist
      ((c.outbox.entries ++ c.record sends hs).filter fun e => e.room == room) := by
  induction hs generalizing c with
  | nil => simp
  | cons h hs ih =>
    rw [record_cons] at handed
    have first := (c.step_exchanges h).order clear room
    have rest := ih (known_step k h)
      (clear_step k clear h fun note now => handed note (List.mem_append_left _ now))
      fun note later => handed note (List.mem_append_right _ later)
    rw [run_cons, record_cons, record_cons, List.append_assoc, ← List.append_assoc c.outbox.entries]
    simp only [List.filter_append] at first rest ⊢
    -- What waits after the first step is in the middle.
    have later := rest.append_left ((c.takes h).filter fun e => e.room == room)
    have sooner := first.append_right (((c.step h).record sends hs).filter fun e => e.room == room)
    simp only [List.append_assoc] at later sooner ⊢
    exact later.trans sooner

/-- Where nothing is dropped nothing is missing. -/
theorem order_run_of_retains (k : c.Known) (clear : c.Clear) (hs : List Happening)
    (retains : c.profile.flushPolicy = .retainOtherRooms)
    (handed : ∀ note ∈ c.record entrances hs, note = true) (room : RoomId) :
    ((c.record takes hs ++ (c.run hs).outbox.entries).filter fun e => e.room == room) =
      (c.outbox.entries ++ c.record sends hs).filter fun e => e.room == room :=
  (order_run k clear hs handed room).eq_of_length
    ((balance_run retains hs).filter _).length_eq

/-- A client whose last link was handed what waited is clear. -/
theorem clear_run (k : c.Known) (notes : List Bool) (clear : notes.getLast? ≠ some false → c.Clear)
    (hs : List Happening) (last : (notes ++ c.record entrances hs).getLast? ≠ some false) :
    (c.run hs).Clear := by
  induction hs generalizing c notes with
  | nil => exact clear (by simpa using last)
  | cons h hs ih =>
    rw [record_cons, ← List.append_assoc] at last
    refine ih (known_step k h) _ (fun now => ?_) last
    -- Only a link that comes into use decides anew.
    cases found : c.findsLink h with
    | false =>
      have none_ : c.entrances h = [] := by simp [entrances, found]
      rw [none_, List.append_nil] at now
      exact clear_of_stays k (clear now) found
    | true =>
      have one : c.entrances h = [c.succeeds h && c.flushes] := by simp [entrances, found]
      rw [one, List.getLast?_concat] at now
      have handed : (c.succeeds h && c.flushes) = true := by
        cases note : c.succeeds h && c.flushes <;> simp_all
      rw [Bool.and_eq_true] at handed
      exact clear_of_enters handed.1 handed.2

/-- A client that has just been made knows of no links. -/
theorem known_start (profile : Profile) (backoff : Backoff) (outbox : Outbox) (chat : Chat)
    (disk : Disk) (clock : Timestamp) : (start profile backoff outbox chat disk clock).Known :=
  ⟨by simp [start], by simp [start]⟩

private theorem clear_start (profile : Profile) (backoff : Backoff) (outbox : Outbox) (chat : Chat)
    (disk : Disk) (clock : Timestamp) : (start profile backoff outbox chat disk clock).Clear := by
  intro reads
  simp [start, canSend, currentLink?] at reads

/-- A link that comes into use is that of an attempt, and only the file can be in the way. -/
theorem entrances_eq (s : c.standing.Sound) {h : Happening} (found : c.findsLink h = true) :
    ∃ room, c.room = some room ∧
      c.entrances h = [(c.outbox.flush c.disk fun e => e.room == room).2.2.isOk] := by
  have succeeds : c.succeeds h = true := (succeeds_eq s h).trans found
  have connecting : c.machine.state = .connecting := by
    simpa [Client.succeeds, found] using succeeds
  cases active : c.room with
  | none =>
    have idle : c.machine.state = .idle := s.idle_iff.2 (.inl active)
    simp [connecting] at idle
  | some room =>
    refine ⟨room, rfl, ?_⟩
    simp [entrances, found, succeeds, flushes, active]

/-- What is kept of the order in which payloads are sent. -/
structure KeepsOrder (c : Client) (hs : List Happening) : Prop where
  /-- A payload overtakes another one for the same room only on a link that was not handed what
  waited when it came into use. -/
  overtaken : ∀ past h later, hs = past ++ h :: later → (c.run past).overtakes h = true →
    (c.record entrances past).getLast? = some false
  /-- If every link was handed what waited, then what is taken for a room, followed by what still
  waits for it, comes in the order in which it waited at first and was sent. -/
  order : (∀ note ∈ c.record entrances hs, note = true) → ∀ room,
    ((c.record takes hs ++ (c.run hs).outbox.entries).filter fun e => e.room == room).Sublist
      ((c.outbox.entries ++ c.record sends hs).filter fun e => e.room == room)
  /-- Where nothing is dropped, nothing is missing either. -/
  whole : c.profile.flushPolicy = .retainOtherRooms →
    (∀ note ∈ c.record entrances hs, note = true) → ∀ room,
      ((c.record takes hs ++ (c.run hs).outbox.entries).filter fun e => e.room == room) =
        (c.outbox.entries ++ c.record sends hs).filter fun e => e.room == room
  /-- With fewer than `2 ^ 64` sessions only the file can keep a link from being handed what
  waits. -/
  handed : c.teardowns hs < 2 ^ 64 → ∀ past h later, hs = past ++ h :: later →
    (c.run past).findsLink h = true → ∃ room, (c.run past).room = some room ∧
      (c.run past).entrances h =
        [((c.run past).outbox.flush (c.run past).disk fun e => e.room == room).2.2.isOk]

/-- In every run, whatever becomes of the file, payloads keep their order but for those that wait
while a link is in use that was not handed what waited. -/
theorem run_keepsOrder (profile : Profile) (backoff : Backoff) (outbox : Outbox) (chat : Chat)
    (disk : Disk) (clock : Timestamp) (hs : List Happening) :
    (start profile backoff outbox chat disk clock).KeepsOrder hs := by
  have known := known_start profile backoff outbox chat disk clock
  have clear := clear_start profile backoff outbox chat disk clock
  refine ⟨fun past h later _ overtakes => ?_, fun handed => order_run known clear hs handed,
    fun retains handed => order_run_of_retains known clear hs retains handed,
    fun bound past h later split found => ?_⟩
  · by_contra last
    exact not_clear_of_overtakes overtakes (clear_run known [] (fun _ => clear) past last)
  · have sound := sound_run (sound_start profile backoff outbox chat disk clock) past (by
      rw [split, teardowns_append] at bound
      have zero : (start profile backoff outbox chat disk clock).epoch.toNat = 0 := rfl
      omega)
    exact entrances_eq sound.1 found

end Client

/-- The link on which the last payload overtakes two others was not handed what waited. Until it
came into use everything was in order. -/
theorem run_keepsOrder_detour :
    (Detour.cautious.run Detour.mishaps.dropLast).overtakes
        (.turn (.command (.send (Detour.note "fourth")))) = true ∧
      (Detour.cautious.record Client.entrances Detour.mishaps.dropLast).getLast? = some false ∧
      (∀ note ∈ Detour.cautious.record Client.entrances (Detour.mishaps.take 10), note = true) ∧
      ((Detour.cautious.record Client.takes (Detour.mishaps.take 10) ++
          (Detour.cautious.run (Detour.mishaps.take 10)).outbox.entries).filter
        fun e => e.room == Detour.lobby) =
        ["first", "second", "third"].map fun body => ⟨Detour.lobby, Detour.note body⟩ := by
  have overtakes : (Detour.cautious.run Detour.mishaps.dropLast).overtakes
      (.turn (.command (.send (Detour.note "fourth")))) = true := by decide
  have handed : ∀ note ∈ Detour.cautious.record Client.entrances (Detour.mishaps.take 10),
      note = true := by decide
  have whole :=
    Client.run_keepsOrder Detour.profile {} Detour.stored .empty Detour.unreliable .epoch
    Detour.mishaps
  have first :=
    Client.run_keepsOrder Detour.profile {} Detour.stored .empty Detour.unreliable .epoch
    (Detour.mishaps.take 10)
  exact ⟨overtakes, whole.overtaken _ _ [] rfl overtakes, handed,
    (first.whole rfl handed Detour.lobby).trans (by decide)⟩

end ChatClient
