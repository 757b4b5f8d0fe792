import ChatClient.Proofs.Session.Course
import ChatClient.Proofs.Session.Growth

/-!
# What a client hears

The chat of a client is what the texts make of it that were taken from its links, one after the
other, each in the room of its link. Nothing else that happens changes the chat, and the changes
that the texts make are announced, all of them and nothing else.

From each link the texts are taken in the order in which they were pushed, and the end of a link is
noticed only after its last text. A link that was left is never listened to again: what is taken
later comes from links with a later session.

## Main definitions

* `Knowledge`, `Knowledge.hear`: what a client knows from texts, and what one more text makes of it
* `Client.heard`: the texts that are taken in a run
* `Client.Told`: the invariant

## Main results

* `step_told`: what one step makes known
* `reading_is_recent`: texts are taken from links of the current session and later ones only
* `run_listens`: after every run the chat is what the texts have made of it
-/

namespace ChatClient

/-- What a client knows from the texts that it has taken. -/
structure Knowledge where
  chat : Chat
  /-- How many identifiers were given out to messages without one. -/
  minted : Nat

namespace Knowledge

/-- What a text makes of the knowledge, in the room of its link, with the changes that it makes. A
text without meaning makes none. -/
def hear (user : UserId) (k : Knowledge) (r : Reading) : Knowledge × List ChatUpdate :=
  match Inbound.decode r.text with
  | .error _ => (k, [])
  | .ok event =>
    let told := k.chat.apply r.room user event r.time (MessageId.minted k.minted)
    (⟨told.1, if event.needsId then k.minted + 1 else k.minted⟩, told.2)

/-- What texts make of the knowledge one after the other. -/
def hearAll (user : UserId) (k : Knowledge) (rs : List Reading) : Knowledge :=
  rs.foldl (fun k r => (k.hear user r).1) k

/-- The changes that texts make one after the other, for each text its own. -/
def updates (user : UserId) : Knowledge → List Reading → List (List ChatUpdate)
  | _, [] => []
  | k, r :: rs => (k.hear user r).2 :: updates user (k.hear user r).1 rs

variable (user : UserId) (k : Knowledge)

private theorem hearAll_append (rs rs' : List Reading) :
    k.hearAll user (rs ++ rs') = (k.hearAll user rs).hearAll user rs' :=
  List.foldl_append

private theorem updates_append (rs rs' : List Reading) :
    k.updates user (rs ++ rs') = k.updates user rs ++ (k.hearAll user rs).updates user rs' := by
  induction rs generalizing k with
  | nil => rfl
  | cons r rs ih => exact congrArg ((k.hear user r).2 :: ·) (ih _)

end Knowledge

/-- The texts that were taken from a link. -/
def textsFrom (link : Nat) (rs : List Reading) : List String :=
  (rs.filter fun r => r.link == link).map Reading.text

@[simp] theorem textsFrom_append (link : Nat) (rs rs' : List Reading) :
    textsFrom link (rs ++ rs') = textsFrom link rs ++ textsFrom link rs' := by
  simp [textsFrom]

/-- The command gives up the active room: for another one, for none, or for good. -/
def SessionCommand.givesUp (active : Option RoomId) : SessionCommand → Bool
  | .select room => room.isNone || room != active
  | .shutdown => true
  | _ => false

namespace Client

variable (c : Client)

def knowledge : Knowledge := ⟨c.chat, c.minted⟩

/-- The text that is taken when this happens to the client. -/
def hears (c : Client) : Happening → List Reading
  | .turn .listen => if c.stopped then [] else c.reading?.toList
  | _ => []

/-- The texts that are taken in a run, in the order in which they are. -/
def heard (hs : List Happening) : List Reading := c.record hears hs

/-! ## What tells nothing -/

private theorem exists_transmitAll_eq (es : List QueueEntry) :
    ∃ n, (c.transmitAll es).1 = { c with toNetwork := n } := by
  induction es generalizing c with
  | nil => exact ⟨c.toNetwork, rfl⟩
  | cons e es ih =>
    obtain ⟨n, one⟩ : ∃ n, (c.transmit e.payload.frame).1 = { c with toNetwork := n } := by
      rw [transmit.eq_def]
      split
      · exact ⟨c.toNetwork, rfl⟩
      · exact ⟨_, rfl⟩
    rw [transmitAll]
    split
    · next c' h =>
      rw [h] at one
      obtain rfl : c' = { c with toNetwork := n } := one
      exact ih { c with toNetwork := n }
    · next h =>
      rw [h] at one
      exact ⟨n, one⟩

/-- To send what waits changes the network and the outbox only. -/
theorem exists_flushQueue_eq :
    ∃ n q d, c.flushQueue = { c with toNetwork := n, outbox := q, disk := d } := by
  rw [flushQueue.eq_def]
  split
  · exact ⟨c.toNetwork, c.outbox, c.disk, rfl⟩
  · next room _ =>
    dsimp only
    split
    · exact ⟨c.toNetwork, _, _, rfl⟩
    · next entries _ =>
      obtain ⟨q, d, dropped⟩ : ∃ q d,
          (c.withOutbox (c.outbox.flush c.disk fun e => e.room == room)).dropOthers =
            { c with outbox := q, disk := d } := by
        rw [dropOthers.eq_def]
        split
        · exact ⟨_, _, rfl⟩
        · exact ⟨_, _, rfl⟩
      obtain ⟨n, sent⟩ := exists_transmitAll_eq { c with outbox := q, disk := d } entries
      rw [dropped, transmitOrRequeue]
      split
      · next h =>
        rw [h] at sent
        exact ⟨n, q, d, sent⟩
      · next c' left _ h =>
        rw [h] at sent
        obtain rfl : c' = { c with toNetwork := n, outbox := q, disk := d } := sent
        exact ⟨n, _, _, rfl⟩

/-- What the machine asks for changes neither the chat nor what is announced of it. -/
theorem exists_execute_eq (action : Option ConnectionAction) :
    ∃ n q d pending timer, c.execute action =
      { c with toNetwork := n, outbox := q, disk := d, pending := pending, timer := timer } := by
  rw [execute.eq_def]
  split
  · exact ⟨_, _, _, _, _, rfl⟩
  · rw [connect]
    split
    · exact ⟨_, _, _, _, _, rfl⟩
    · exact ⟨_, _, _, _, _, rfl⟩
  · obtain ⟨n, q, d, flushed⟩ := c.exists_flushQueue_eq
    exact ⟨n, q, d, c.pending, c.timer, flushed⟩
  · exact ⟨_, _, _, _, _, rfl⟩

/-- What the texts have told the client, and what it has announced of it. -/
def noted : Knowledge × List ChatUpdate := (c.knowledge, c.feed)

private theorem noted_execute (action : Option ConnectionAction) :
    (c.execute action).noted = c.noted := by
  obtain ⟨n, q, d, pending, timer, done⟩ := c.exists_execute_eq action
  rw [done]
  rfl

private theorem noted_proceed (transition : Machine → Machine × Option ConnectionAction) :
    (c.proceed transition).noted = c.noted :=
  noted_execute { c with machine := (transition c.machine).1 } _

private theorem noted_announce (transition : Machine → Machine × Option ConnectionAction) :
    (c.announce transition).noted = c.noted :=
  noted_execute { c with machine := (transition c.machine).1 : Client }.publish _

private theorem noted_handleCommand (command : SessionCommand) :
    (c.handleCommand command).noted = c.noted := by
  have transmitted (f : Wire.Frame) : (c.transmit f).1.noted = c.noted := by
    rw [transmit.eq_def]
    split <;> rfl
  -- Texts are noted only when they arrive.
  cases command with
  | select room =>
    change (c.select room).noted = c.noted
    rw [select]
    split
    · rfl
    · cases room with
      | none => rfl
      | some room => exact noted_proceed { c.teardown with room := some room } Machine.start
  | send p =>
    have sent := transmitted p.frame
    change (c.send p).noted = c.noted
    rw [send]
    split
    · split <;> next h =>
        rw [h] at sent
        exact sent
    · rfl
  | typing on =>
    change (c.sendTyping on).noted = c.noted
    rw [sendTyping.eq_def]
    split
    · rfl
    · split
      · exact transmitted _
      · rfl
  | shutdown => rfl

private theorem noted_outcome : (c.outcome?.getD c).noted = c.noted := by
  rw [outcome?.eq_def]
  split
  · rfl
  · next o os _ =>
    change (handleOutcome { c with outcomes := os } o).noted = c.noted
    rw [handleOutcome]
    split
    · split
      · next i _ =>
          exact noted_announce { c with outcomes := os, pending := none, link := some i } _
      · exact noted_announce { c with outcomes := os, pending := none } _
    · rfl

private theorem noted_timer : (c.timer?.getD c).noted = c.noted := by
  rw [timer?.eq_def]
  split
  · rfl
  · split
    · exact noted_proceed { c with timer := none } Machine.timerElapsed
    · rfl

private theorem noted_handleLinkClosed : c.handleLinkClosed.noted = c.noted :=
  noted_proceed { c with link := none } Machine.closed

/-! ## A text that is taken -/

/-- What is read is the next text on the link in use, with the room of the link and the time. -/
theorem reading_eq_some {r : Reading} (h : c.reading? = some r) :
    ∃ l, c.link = some r.link ∧ c.links[r.link]? = some l ∧ l.pushed[l.taken]? = some r.text ∧
      r.room = l.room ∧ r.time = c.clock := by
  rw [reading?] at h
  obtain ⟨i, held, h⟩ := Option.bind_eq_some_iff.1 h
  obtain ⟨l, hl, h⟩ := Option.bind_eq_some_iff.1 h
  obtain ⟨text, next, h⟩ := Option.bind_eq_some_iff.1 h
  obtain rfl := Option.some.inj h
  exact ⟨l, held, hl, next, rfl, rfl⟩

/-- To handle a text is to hear it in the active room. -/
theorem noted_handleText {r : Reading} (active : c.room = some r.room) (time : r.time = c.clock) :
    (c.handleText r.text).noted =
      ((c.knowledge.hear c.profile.user r).1, c.feed ++ (c.knowledge.hear c.profile.user r).2) := by
  rw [handleText, Knowledge.hear, active, time]
  cases Inbound.decode r.text with
  | error e => simp [noted]
  | ok event => rfl

private theorem handleText_of_error {s : String} {e : Wire.DecodeProblem}
    (problem : Inbound.decode s = .error e) : c.handleText s = c := by
  rw [handleText, problem]
  cases c.room <;> rfl

/-! ## What a step makes known -/

variable {c}

/-- A step takes a text, which is handled, or it takes none. -/
theorem hears_cases (c : Client) (h : Happening) :
    hears c h = [] ∨ ∃ r, hears c h = [r] ∧ c.reading? = some r ∧
      c.step h = { c with toNetwork := c.toNetwork.onLink r.link Link.take }.handleText r.text := by
  -- Only a client that listens takes a text.
  cases listens : h.listens with
  | false =>
    left
    unfold hears
    split
    · simp [Happening.listens] at listens
    · rfl
  | true =>
    obtain rfl : h = .turn .listen := by
      unfold Happening.listens at listens
      split at listens
      · rfl
      · contradiction
    cases running : c.stopped with
    | true => simp [hears, running]
    | false =>
      cases taken : c.reading? with
      | none => simp [hears, taken]
      | some r =>
        refine .inr ⟨r, by simp [hears, running, taken], rfl, ?_⟩
        rw [step_of_running running]
        simp only [listen?, taken]
        rfl

/-- Without a text nothing becomes known, and no link is listened to. -/
theorem step_silent {h : Happening} (silent : hears c h = []) :
    (c.step h).noted = c.noted ∧ c.toNetwork.Grows false (c.step h).toNetwork := by
  cases h with
  | turn t =>
    cases running : c.stopped with
    | true =>
      rw [step_of_stopped running]
      exact ⟨rfl, .refl _⟩
    | false =>
      -- Only listening takes anything from a link.
      have still (u : Turn) (h : Happening.listens (.turn u) = false) :
          c.toNetwork.Grows false (c.step (.turn u)).toNetwork := c.grows_step_of_not_listen h
      cases t with
      | listen =>
        have none_ : c.reading? = none := by simpa [hears, running] using silent
        rw [step_of_running running]
        simp only [listen?, none_]
        split
        · split
          · exact ⟨c.noted_handleLinkClosed, c.grows_handle .linkClosed⟩
          · exact ⟨rfl, .refl _⟩
        · exact ⟨rfl, .refl _⟩
      | command command =>
        refine ⟨?_, still _ rfl⟩
        rw [step_of_running running]
        exact c.noted_handleCommand command
      | outcome =>
        refine ⟨?_, still _ rfl⟩
        rw [step_of_running running]
        exact c.noted_outcome
      | timer =>
        refine ⟨?_, still _ rfl⟩
        rw [step_of_running running]
        exact c.noted_timer
  | _ => exact ⟨rfl, c.grows_step_of_not_listen rfl⟩

/-- After texts were taken the chat is what they have made of it, their changes have been announced,
and from each link they are the first that were pushed on it. -/
structure Told (c₀ c : Client) (rs : List Reading) : Prop where
  profile : c.profile = c₀.profile
  knowledge : c.knowledge = c₀.knowledge.hearAll c₀.profile.user rs
  feed : c.feed = c₀.feed ++ (c₀.knowledge.updates c₀.profile.user rs).flatten
  taken_le : ∀ (i : Nat) (l : Link), c.links[i]? = some l → l.taken ≤ l.pushed.length
  texts : ∀ (i : Nat) (l : Link), c.links[i]? = some l → textsFrom i rs = l.pushed.take l.taken
  rooms : ∀ r ∈ rs, ∃ l, c.links[r.link]? = some l ∧ r.room = l.room

variable {c₀ : Client} {rs : List Reading}

private theorem rooms_of_grows {c' : Client} {reading : Bool}
    (grows : c.toNetwork.Grows reading c'.toNetwork)
    (rooms : ∀ r ∈ rs, ∃ l, c.links[r.link]? = some l ∧ r.room = l.room) :
    ∀ r ∈ rs, ∃ l, c'.links[r.link]? = some l ∧ r.room = l.room := by
  intro r hr
  obtain ⟨l, hl, same⟩ := rooms r hr
  obtain ⟨l', hl', grown⟩ := grows.links _ _ hl
  exact ⟨l', hl', same.trans grown.room.symm⟩

/-- Where no text is taken all stays as it was told, though links may come and more be pushed on
them. -/
theorem Told.silent {c' : Client} (t : Told c₀ c rs) (profile : c'.profile = c.profile)
    (noted : c'.noted = c.noted) (grows : c.toNetwork.Grows false c'.toNetwork) :
    Told c₀ c' rs := by
  have links : ∀ (i : Nat) (l' : Link), c'.links[i]? = some l' →
      l'.taken ≤ l'.pushed.length ∧ textsFrom i rs = l'.pushed.take l'.taken := by
    intro i l' hl'
    cases hl : c.links[i]? with
    | some l =>
      obtain ⟨k, hk, grown⟩ := grows.links i l hl
      obtain rfl := Option.some.inj (hk.symm.trans hl')
      have inside := t.taken_le i l hl
      -- What is pushed comes after what was taken.
      obtain ⟨more, pushed⟩ := grown.pushed
      rw [grown.taken rfl, ← pushed, List.take_append_of_le_length inside, List.length_append]
      exact ⟨by omega, t.texts i l hl⟩
    | none =>
      -- Nothing was taken from a link that did not exist.
      have fresh := grows.fresh rfl i l' hl hl'
      have untouched : textsFrom i rs = [] := by
        rw [textsFrom, List.map_eq_nil_iff, List.filter_eq_nil_iff]
        intro r hr here
        obtain ⟨l, some_, -⟩ := t.rooms r hr
        rw [beq_iff_eq.1 here, hl] at some_
        contradiction
      rw [fresh, untouched]
      exact ⟨Nat.zero_le _, rfl⟩
  have knowledge : c'.knowledge = c.knowledge := congrArg Prod.fst noted
  have feed : c'.feed = c.feed := congrArg Prod.snd noted
  exact ⟨profile.trans t.profile, knowledge.trans t.knowledge, feed.trans t.feed,
    fun i l hl => (links i l hl).1, fun i l hl => (links i l hl).2, rooms_of_grows grows t.rooms⟩

/-- From a link one text more is taken, the next one, and none from the others. -/
theorem Told.texts_take (t : Told c₀ c rs) {r : Reading} {l : Link} (hl : c.links[r.link]? = some l)
    (next : l.pushed[l.taken]? = some r.text) {i : Nat} {l' : Link}
    (hl' : (c.links.modify r.link Link.take)[i]? = some l') :
    l'.taken ≤ l'.pushed.length ∧ textsFrom i (rs ++ [r]) = l'.pushed.take l'.taken := by
  by_cases same : r.link = i
  · subst same
    obtain rfl : l.take = l' := by
      rw [List.getElem?_modify_eq, hl] at hl'
      exact Option.some.inj hl'
    have inside : l.taken < l.pushed.length := (List.getElem?_eq_some_iff.1 next).1
    have mine : textsFrom r.link [r] = [r.text] := by simp [textsFrom]
    refine ⟨inside, ?_⟩
    rw [textsFrom_append, t.texts _ l hl, mine]
    simp [Link.take, List.take_add_one, next]
  · rw [List.getElem?_modify_ne _ _ same] at hl'
    have other : textsFrom i [r] = [] := by simp [textsFrom, same]
    rw [textsFrom_append, other, List.append_nil]
    exact ⟨t.taken_le i l' hl', t.texts i l' hl'⟩

/-- A text is heard in the room of its link, which is the active one. -/
theorem Told.reading (t : Told c₀ c rs) (s : c.standing.Sound) {r : Reading}
    (taken : c.reading? = some r) :
    Told c₀ ({ c with toNetwork := c.toNetwork.onLink r.link Link.take }.handleText r.text)
      (rs ++ [r]) := by
  obtain ⟨l, held, hl, next, room, time⟩ := c.reading_eq_some taken
  obtain ⟨k, hk, -, active⟩ := exists_held s held
  obtain rfl := Option.some.inj (hl.symm.trans hk)
  -- The client looks at its own room and finds that of the link.
  rw [← room] at active
  let c' : Client := { c with toNetwork := c.toNetwork.onLink r.link Link.take }
  have noted : (c'.handleText r.text).noted =
      ((c.knowledge.hear c.profile.user r).1, c.feed ++ (c.knowledge.hear c.profile.user r).2) :=
    noted_handleText c' active time
  have network : (c'.handleText r.text).toNetwork = c.toNetwork.onLink r.link Link.take :=
    c'.toNetwork_handleText r.text
  have links : (c'.handleText r.text).links = c.links.modify r.link Link.take :=
    congrArg Network.links network
  have profile : (c'.handleText r.text).profile = c.profile :=
    congrArg Standing.profile (c'.standing_handleText r.text)
  rw [t.profile] at noted
  have known : (c'.handleText r.text).knowledge = (c.knowledge.hear c₀.profile.user r).1 :=
    congrArg Prod.fst noted
  have told : (c'.handleText r.text).feed = c.feed ++ (c.knowledge.hear c₀.profile.user r).2 :=
    congrArg Prod.snd noted
  refine ⟨profile.trans t.profile, ?_, ?_, ?_, ?_, ?_⟩
  · rw [Knowledge.hearAll_append, ← t.knowledge]
    exact known
  · rw [Knowledge.updates_append, ← t.knowledge, List.flatten_append, ← List.append_assoc, ← t.feed]
    exact told.trans (by simp [Knowledge.updates])
  · intro i l' hl'
    rw [links] at hl'
    exact (t.texts_take hl next hl').1
  · intro i l' hl'
    rw [links] at hl'
    exact (t.texts_take hl next hl').2
  · have grows : c.toNetwork.Grows true (c'.handleText r.text).toNetwork := by
      rw [network]
      exact c.toNetwork.grows_onLink _ Link.grows_take
    apply rooms_of_grows grows
    intro r' hr'
    rcases List.mem_append.1 hr' with old | new
    · exact t.rooms r' old
    · obtain rfl := List.mem_singleton.1 new
      exact ⟨l, hl, room⟩

/-- A step makes known just what is heard in it. -/
theorem step_told (t : Told c₀ c rs) (s : c.standing.Sound) (h : Happening) :
    Told c₀ (c.step h) (rs ++ hears c h) := by
  rcases hears_cases c h with silent | ⟨r, one, taken, after⟩
  · obtain ⟨noted, grows⟩ := step_silent silent
    rw [silent, List.append_nil]
    have profile : (c.step h).profile = c.profile := (step_moves s h).profile_eq
    exact t.silent profile noted grows
  · rw [one, after]
    exact t.reading s taken

/-- What is known after a run is what was known before and what was heard in the run. -/
theorem told_run (t : Told c₀ c rs) (s : c.standing.Sound) (hs : List Happening)
    (bound : c.epoch.toNat + c.teardowns hs < 2 ^ 64) : Told c₀ (c.run hs) (rs ++ c.heard hs) := by
  induction hs generalizing c rs with
  | nil => simpa [heard] using t
  | cons h hs ih =>
    obtain ⟨-, sound, rest⟩ := sound_cons s bound
    have told := ih (step_told t s h) sound rest
    rw [run_cons, heard, record_cons, ← List.append_assoc]
    exact told

/-! ## Links that are listened to -/

/-- Texts are taken from links of the current session and of later ones only. -/
theorem reading_is_recent (s : c.standing.Sound) (hs : List Happening)
    (bound : c.epoch.toNat + c.teardowns hs < 2 ^ 64) :
    ∀ r ∈ c.heard hs, ∃ l, (c.run hs).links[r.link]? = some l ∧ c.epoch ≤ l.epoch := by
  induction hs generalizing c with
  | nil => simp [heard]
  | cons h hs ih =>
    intro r hr
    obtain ⟨first, sound, rest⟩ := sound_cons s bound
    rw [heard, record_cons] at hr
    rcases List.mem_append.1 hr with now | later
    -- A text that is taken now is taken from the link in use.
    · rcases hears_cases c h with silent | ⟨r', one, taken, -⟩
      · simp [silent] at now
      · obtain rfl : r = r' := by simpa [one] using now
        obtain ⟨l, held, hl, -⟩ := c.reading_eq_some taken
        obtain ⟨k, hk, current, -⟩ := exists_held s held
        obtain ⟨l', hl', grown⟩ := (c.grows_run (h :: hs)).links _ _ hk
        exact ⟨l', hl', by rw [grown.epoch, current]; exact UInt64.le_refl _⟩
    · obtain ⟨l, hl, recent⟩ := ih sound rest r later
      have epoch := toNat_epoch_step s h first
      refine ⟨l, hl, ?_⟩
      rw [UInt64.le_iff_toNat_le] at recent ⊢
      omega

/-- A command that gives up the active room ends the session. -/
theorem leaves_of_givesUp (s : c.standing.Sound) (running : c.stopped = false)
    {command : SessionCommand} (gives : command.givesUp c.room = true) :
    c.leaves (.turn (.command command)) = true := by
  cases command with
  | select room =>
    have different : c.stays room = false := by
      rw [stays]
      cases room with
      | none =>
        -- A client without a room is idle, so that it does not count as having none already.
        by_cases away : c.room = none
        · have idle : c.machine.state = .idle := s.idle_iff.2 (.inl away)
          simp [idle]
        · simp [Ne.symm away]
      | some room =>
        have other : some room ≠ c.room := by simpa [SessionCommand.givesUp] using gives
        simp [other]
    simp [leaves, running, different]
  | shutdown => simp [leaves, running]
  | _ => simp [SessionCommand.givesUp] at gives

/-- An open client begins to wait only when its link has ended and nothing on it is left to take. -/
theorem ended_of_reconnecting (s : c.standing.Sound) (isOpen : c.machine.state = .open)
    {h : Happening} {n : UInt32} (waits : (c.step h).machine.state = .reconnecting n) :
    ∃ i l, c.link = some i ∧ c.links[i]? = some l ∧ l.ended = true ∧ l.pushed.length ≤ l.taken := by
  -- Where the standing is as it was, the client is still open.
  have unchanged {c' : Client} (standing : c'.standing = c.standing) :
      c'.machine.state ≠ .reconnecting n := by
    have machine : c'.machine = c.machine := congrArg Standing.machine standing
    rw [machine, isOpen]
    simp
  obtain rfl := (step_moves s h).listens_of_reconnecting isOpen waits
  cases running : c.stopped with
  | true =>
    rw [step_of_stopped running] at waits
    exact absurd waits (unchanged rfl)
  | false =>
    rw [step_of_running running] at waits
    simp only [listen?] at waits
    split at waits
    · next r _ =>
      have standing := (standing_handleText { c with
        toNetwork := c.toNetwork.onLink r.link Link.take } r.text).trans
          (standing_onLink c r.link (f := Link.take) fun _ => rfl)
      exact absurd waits (unchanged standing)
    · next none_ =>
      split at waits
      · next l held =>
        split at waits
        · next ended =>
          rw [currentLink?] at held
          obtain ⟨i, link, hl⟩ := Option.bind_eq_some_iff.1 held
          refine ⟨i, l, link, hl, ended, ?_⟩
          cases next_ : l.pushed[l.taken]? with
          | none => exact List.getElem?_eq_none_iff.1 next_
          | some text => simp [reading?, link, hl, Link.next?, next_] at none_
        · exact absurd waits (unchanged rfl)
      · exact absurd waits (unchanged rfl)

/-! ## Along a run -/

/-- In the beginning nothing was heard. -/
theorem told_start (profile : Profile) (backoff : Backoff) (outbox : Outbox) (chat : Chat)
    (disk : Disk) (clock : Timestamp) :
    Told (start profile backoff outbox chat disk clock)
      (start profile backoff outbox chat disk clock) [] := by
  refine ⟨rfl, rfl, ?_, ?_, ?_, ?_⟩ <;> simp [start, Knowledge.updates]

/-- What the texts have made known to a client by the end of a run. -/
structure Listened (c : Client) (hs : List Happening) : Prop where
  /-- The chat is what the texts have made of it, each in its room and at its time. -/
  knowledge_eq : (c.run hs).knowledge = c.knowledge.hearAll c.profile.user (c.heard hs)
  /-- What was announced are the changes that the texts have made, one text after the other. -/
  feed_eq : (c.run hs).feed =
    c.feed ++ (c.knowledge.updates c.profile.user (c.heard hs)).flatten
  /-- The room of a text is the one that its link was opened for. -/
  room_eq : ∀ r ∈ c.heard hs, ∃ l, (c.run hs).links[r.link]? = some l ∧ r.room = l.room
  texts_prefix : ∀ (i : Nat) (l : Link), (c.run hs).links[i]? = some l →
    textsFrom i (c.heard hs) <+: l.pushed
  /-- A client that is about to lose its link has taken everything from it. -/
  lost : ∀ (h : Happening) (n : UInt32), (c.run hs).machine.state = .open →
    ((c.run hs).step h).machine.state = .reconnecting n →
    ∃ i l, (c.run hs).link = some i ∧ (c.run hs).links[i]? = some l ∧ l.ended = true ∧
      textsFrom i (c.heard hs) = l.pushed
  /-- A text without meaning is taken from its link, and nothing else changes. -/
  rejected : ∀ (r : Reading) (e : Wire.DecodeProblem), hears (c.run hs) (.turn .listen) = [r] →
    Inbound.decode r.text = .error e →
    (c.run hs).step (.turn .listen) =
      { c.run hs with toNetwork := (c.run hs).toNetwork.onLink r.link Link.take }
  /-- When the active room was given up nothing is taken any more from the links that there were,
  nor from one that opens for the session that has ended or for one before. -/
  left : ∀ (hs₁ : List Happening) (command : SessionCommand) (hs₂ : List Happening),
    hs = hs₁ ++ .turn (.command command) :: hs₂ → command.givesUp (c.run hs₁).room = true →
    ∀ r ∈ (c.run (hs₁ ++ [.turn (.command command)])).heard hs₂,
      command ≠ .shutdown ∧ (c.run hs₁).links.length ≤ r.link ∧
      ∃ l, (c.run hs).links[r.link]? = some l ∧ (c.run hs₁).epoch < l.epoch

private theorem heard_of_stopped (stopped : c.stopped = true) (hs : List Happening) :
    c.heard hs = [] := by
  induction hs generalizing c with
  | nil => rfl
  | cons h hs ih =>
    have deaf : hears c h = [] := by
      unfold hears
      split
      · exact if_pos stopped
      · rfl
    rw [heard, record_cons, deaf, List.nil_append]
    exact ih (stopped_step stopped h)

/-- After a session has ended only links of later sessions are listened to. -/
theorem heard_of_leaves (s : c.standing.Sound) {h : Happening} (leaves : c.leaves h = true)
    (hs : List Happening) (bound : c.epoch.toNat + c.teardowns (h :: hs) < 2 ^ 64) :
    ∀ r ∈ (c.step h).heard hs, c.links.length ≤ r.link ∧
      ∃ l, (c.run (h :: hs)).links[r.link]? = some l ∧ c.epoch < l.epoch := by
  intro r hr
  obtain ⟨first, sound, rest⟩ := sound_cons s bound
  have epoch := toNat_epoch_step s h first
  rw [leaves, Bool.toNat_true] at epoch
  obtain ⟨l, hl, recent⟩ := reading_is_recent sound hs rest r hr
  have later : c.epoch < l.epoch := by
    rw [UInt64.le_iff_toNat_le] at recent
    rw [UInt64.lt_iff_toNat_lt]
    omega
  refine ⟨?_, l, hl, later⟩
  by_contra inside
  -- A link that there was belongs to a session that has ended by now.
  obtain ⟨old, hold⟩ : ∃ old, c.links[r.link]? = some old :=
    ⟨_, List.getElem?_eq_getElem (by omega)⟩
  obtain ⟨l', hl', grown⟩ := (c.grows_run (h :: hs)).links _ _ hold
  obtain rfl := Option.some.inj (hl.symm.trans hl')
  have past : old.epoch ≤ c.epoch :=
    (s.origins old.origin (List.mem_map_of_mem (List.mem_of_getElem? hold))).1
  rw [grown.epoch] at later
  rw [UInt64.lt_iff_toNat_lt] at later
  rw [UInt64.le_iff_toNat_le] at past
  omega

/-- After everything that can happen in whatever order, the chat is what the texts have made of it
that were taken from links, in the order in which they were and each in the room of its link. The
changes that were announced are theirs, all that a link has brought is heard before its end is
noticed, and nothing of it is heard once its room was given up.

The numbers of the sessions must not run out. They have 64 bits, and an outcome that has waited
through `2 ^ 64` sessions would be taken for one of the session, so that a room which was given up
is heard again in the room that is active then. -/
theorem run_listens (profile : Profile) (backoff : Backoff) (outbox : Outbox) (chat : Chat)
    (disk : Disk) (clock : Timestamp) (hs : List Happening)
    (bound : (start profile backoff outbox chat disk clock).teardowns hs < 2 ^ 64) :
    (start profile backoff outbox chat disk clock).Listened hs := by
  have s₀ := sound_start profile backoff outbox chat disk clock
  have t₀ := told_start profile backoff outbox chat disk clock
  have zero : (start profile backoff outbox chat disk clock).epoch.toNat = 0 := rfl
  generalize start profile backoff outbox chat disk clock = c at s₀ t₀ zero bound ⊢
  have t : Told c (c.run hs) (c.heard hs) := told_run t₀ s₀ hs (by omega)
  have s : (c.run hs).standing.Sound := (sound_run s₀ hs (by omega)).1
  refine ⟨t.knowledge, t.feed, t.rooms, ?_, ?_, ?_, ?_⟩
  · intro i l hl
    rw [t.texts i l hl]
    exact List.take_prefix _ _
  · intro h n isOpen waits
    obtain ⟨i, l, held, hl, ended, all⟩ := ended_of_reconnecting s isOpen waits
    refine ⟨i, l, held, hl, ended, ?_⟩
    rw [t.texts i l hl, List.take_of_length_le all]
  · intro r e one problem
    rcases hears_cases (c.run hs) (.turn .listen) with silent | ⟨r', one', -, after⟩
    · rw [silent] at one
      contradiction
    · obtain rfl : r' = r := by simpa using one'.symm.trans one
      rw [after, handleText_of_error _ problem]
  · intro hs₁ command hs₂ split gives r hr
    subst split
    rw [teardowns_append] at bound
    obtain ⟨s₁, epoch⟩ := sound_run s₀ hs₁ (by omega)
    rw [run_append, run_cons, run_nil] at hr
    cases running : (c.run hs₁).stopped with
    | true =>
      rw [heard_of_stopped (stopped_step running _)] at hr
      contradiction
    | false =>
      have leaves := leaves_of_givesUp s₁ running gives
      rw [run_append]
      refine ⟨?_, heard_of_leaves s₁ leaves hs₂ (by omega) r hr⟩
      -- A client that has stopped hears nothing at all.
      rintro rfl
      rw [step_of_running running] at hr
      rw [heard_of_stopped rfl] at hr
      contradiction

end Client

namespace Detour

/-- The lobby is heard after the attic was left, which has something to say as well. -/
def listening : List Happening := [
  .turn (.command (.select (some attic))), .settle 0 (.accepted none), .turn .outcome,
  .push 0 "from the attic", .turn (.command (.select (some lobby))), .settle 1 (.accepted none),
  .turn .outcome, .push 1 "from the lobby", .hangUp 1, .turn .listen]

end Detour

theorem run_listens_detour :
    Detour.client.teardowns Detour.listening < 2 ^ 64 ∧ Detour.client.Listened Detour.listening ∧
      (Detour.client.heard Detour.listening).map Reading.text = ["from the lobby"] := by
  have bound : Detour.client.teardowns Detour.listening < 2 ^ 64 := by decide
  have listened := Client.run_listens Detour.profile {} {} .empty {} .epoch Detour.listening bound
  exact ⟨bound, listened, by decide⟩

end ChatClient
