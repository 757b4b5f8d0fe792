import ChatClient.Proofs.Session.Listening
import ChatClient.Proofs.Session.Talk

/-!
# Nothing outlives its session

What a client begins in a session belongs to the room of that session and ends with it. Attempts are
made for the active room, one at a time, and what is said is said on a link of that room. A link
that came out of an attempt is in use, or it was closed, or its server has ended it; none is
forgotten, even if it comes after its room was left. A client without a room, or one that has
stopped, is at rest until a room is selected.

## Main definitions

* `Client.Accounted`: no link is forgotten
* `Client.Resting`: the client has no room, or has stopped
* `Client.Confined`: what is begun in a step is for the active room
* `Client.Contained`: nothing outlives its session in a run

## Main results

* `accounted_step`, `resting_step`: what a step keeps
* `run_contained`: nothing outlives its session in any run
-/

namespace ChatClient

namespace Standing

variable {s : Standing}

/-- No attempt is forgotten. -/
theorem Moves.length_le {h : Happening} {ends : Bool} {s' : Standing} (moves : s.Moves h ends s') :
    s.attempts.length ≤ s'.attempts.length := by
  cases moves with
  | part | stop => exact Nat.le_of_eq length_withdrawn.symm
  | enter =>
    rw [calling, List.length_append]
    exact Nat.le_add_right_of_le (Nat.le_of_eq length_withdrawn.symm)
  | retry =>
    rw [calling, List.length_append]
    exact Nat.le_add_right _ _
  | settle => exact Nat.le_of_eq (List.length_set ..).symm
  | _ => exact Nat.le_refl _

/-- An attempt that was not there before is for the active room, and its outcome is waited for. -/
theorem Moves.begun {h : Happening} {ends : Bool} {s' : Standing} (moves : s.Moves h ends s')
    {k : Nat} {a : Attempt} (here : s'.attempts[k]? = some a) (new : s.attempts.length ≤ k) :
    s'.pending = some k ∧ ∃ room, s'.room = some room ∧ a.endpoint = s.profile.endpoint room := by
  have inside := (List.getElem?_eq_some_iff.1 here).1
  -- An attempt beyond those that there were is the one that was just added.
  have last (as : List Attempt) (b : Attempt) (length : as.length = s.attempts.length)
      (h : (as ++ [b])[k]? = some a) : as.length = k ∧ b = a := by
    have inside := (List.getElem?_eq_some_iff.1 h).1
    rw [List.length_append, List.length_singleton] at inside
    obtain rfl : as.length = k := by omega
    exact ⟨rfl, by simpa using h⟩
  cases moves with
  | part | stop =>
    change k < s.withdrawn.length at inside
    rw [length_withdrawn] at inside
    omega
  | enter room b _ _ _ endpoint =>
    obtain ⟨rfl, rfl⟩ := last s.withdrawn b length_withdrawn here
    exact ⟨rfl, room, rfl, endpoint⟩
  | retry room b _ _ active _ _ endpoint =>
    obtain ⟨rfl, rfl⟩ := last s.attempts b rfl here
    exact ⟨rfl, room, active, endpoint⟩
  | settle =>
    rw [List.length_set] at inside
    omega
  | _ =>
    change k < s.attempts.length at inside
    omega

/-- Only the selection of a room makes one active. -/
theorem Moves.room_eq {h : Happening} {ends : Bool} {s' : Standing} (moves : s.Moves h ends s')
    (none_ : s.room = none) (noSelection : ∀ room, h ≠ .turn (.command (.select (some room)))) :
    s'.room = none := by
  cases moves with
  | part => rfl
  | enter room => exact absurd rfl (noSelection room)
  | retry room _ _ _ active =>
    rw [none_] at active
    contradiction
  | _ => exact none_

end Standing

namespace Network

/-- The client has closed the link of the given number. -/
def IsClosed (n : Network) (i : Nat) : Prop := ∀ l, n.links[i]? = some l → l.closed = true

/-- A link that is closed stays closed. -/
theorem IsClosed.grows {n n' : Network} {reading : Bool} {i : Nat} (grows : n.Grows reading n')
    (inside : i < n.links.length) (closed : IsClosed n i) : IsClosed n' i := by
  intro l' hl'
  have hl := List.getElem?_eq_getElem inside
  obtain ⟨k, hk, grown⟩ := grows.links i _ hl
  obtain rfl := Option.some.inj (hk.symm.trans hl')
  exact grown.closed (closed _ hl)

/-- To close a link leaves it closed. -/
theorem isClosed_onLink (n : Network) (i : Nat) : IsClosed (n.onLink i Link.close) i := by
  intro l hl
  rw [onLink, List.getElem?_modify_eq] at hl
  obtain ⟨k, -, rfl⟩ := Option.map_eq_some_iff.1 hl
  rfl

/-- Outcomes that are let go have their links closed. -/
theorem isClosed_dropOutcomes (n : Network) {o : Outcome} (ho : o ∈ n.outcomes) {i : Nat}
    (link : o.link = some i) (inside : i < n.links.length) : IsClosed n.dropOutcomes i := by
  have dropped (os : List Outcome) (ho : o ∈ os) (m : Network) (inside : i < m.links.length) :
      IsClosed (os.foldl dropOutcome m) i := by
    induction os generalizing m with
    | nil => contradiction
    | cons o' os ih =>
      -- Once closed a link stays so while the other outcomes are let go.
      have longer := length_le_of_grows (m.grows_dropOutcome o')
      rw [List.foldl_cons]
      rcases List.mem_cons.1 ho with rfl | later
      · have closed : IsClosed (m.dropOutcome o) i := by
          rw [dropOutcome, link]
          exact isClosed_onLink m i
        exact closed.grows (grows_foldl_dropOutcome os _) (by omega)
      · exact ih later _ (by omega)
  exact dropped n.outcomes ho n inside

private theorem length_dropOutcomes (n : Network) :
    n.dropOutcomes.links.length = n.links.length := by
  have dropped (os : List Outcome) (m : Network) :
      (os.foldl dropOutcome m).links.length = m.links.length := by
    induction os generalizing m with
    | nil => rfl
    | cons o os ih =>
      rw [List.foldl_cons, ih, dropOutcome.eq_def]
      split
      · rfl
      · exact List.length_modify ..
  exact dropped n.outcomes n

/-- A link that opens comes with an outcome. -/
theorem exists_outcome_settleLate (n : Network) (j : Nat) (h : Handshake) {i : Nat}
    (new : n.links.length ≤ i) (inside : i < (n.settleLate j h).links.length) :
    ∃ o ∈ (n.settleLate j h).outcomes, o.link = some i := by
  rw [settleLate.eq_def] at inside ⊢
  split at inside <;> try omega
  split at inside <;> try omega
  next a _ unsettled =>
    rw [if_neg unsettled]
    cases h with
    | refused =>
      change i < n.links.length at inside
      omega
    | accepted accepts =>
      simp only [conclude, List.length_append, List.length_singleton] at inside
      obtain rfl : n.links.length = i := by omega
      exact ⟨_, List.mem_append_right _ (List.mem_singleton_self _), rfl⟩

end Network

namespace Client

variable {c : Client}

/-! ## Attempts and frames -/

/-- What is begun in a step is for the room that is active then: a new attempt, made as the profile
says and while no earlier one runs, and the frames that are taken. -/
structure Confined (profile : Profile) (c : Client) (h : Happening) : Prop where
  attempt : ∀ (k : Nat) (a : Attempt), (c.step h).attempts[k]? = some a → c.attempts.length ≤ k →
    (∃ room, (c.step h).room = some room ∧
      a.endpoint = ⟨profile.serverUrl, room, profile.credential⟩) ∧
    ∀ (j : Nat) (b : Attempt), (c.step h).attempts[j]? = some b → j < k → b.status ≠ .running
  frame : ∃ new, (c.step h).accepted = c.accepted ++ new ∧
    ∀ p ∈ new, ∃ l, (c.step h).links[p.1]? = some l ∧ (c.step h).room = some l.room

/-- What a client does in a step it does for the session in which it is then. -/
theorem confined_step (s : c.standing.Sound) (h : Happening)
    (bound : c.epoch.toNat + (c.leaves h).toNat < 2 ^ 64) : Confined c.profile c h := by
  have moves := step_moves s h
  have sound : (c.step h).standing.Sound := moves.sound s bound
  refine ⟨?_, ?_⟩
  · intro k a here new
    obtain ⟨pending, room, active, endpoint⟩ := moves.begun here new
    refine ⟨⟨room, active, endpoint⟩, ?_⟩
    intro j b hb before running
    -- The attempt that runs is the one that is waited for.
    have other := (sound.running j b hb running).1
    rw [pending] at other
    have same := Option.some.inj other
    omega
  · obtain ⟨new, accepted, held⟩ := c.step_says h
    refine ⟨new, accepted, ?_⟩
    intro p hp
    obtain ⟨l, hl, -, active⟩ := exists_held sound (held p hp)
    exact ⟨l, hl, active⟩

/-! ## Links -/

/-- Every link that came out of an attempt is in use, or its outcome has not been looked at, or it
was closed by the client or ended by its server. -/
def Accounted (c : Client) : Prop :=
  ∀ (i : Nat) (l : Link), c.links[i]? = some l →
    c.link = some i ∨ (∃ o ∈ c.outcomes, o.link = some i) ∨ l.closed = true ∨ l.ended = true

/-- The link in use is closed when the session ends. -/
theorem isClosed_withdraw {i : Nat} (held : c.link = some i) : Network.IsClosed c.withdraw i := by
  rw [withdraw, held]
  exact Network.isClosed_onLink _ i

/-- When a session ends, its link is closed. -/
theorem isClosed_of_leaves {h : Happening} (leaves : c.leaves h = true) {i : Nat}
    (held : c.link = some i) (inside : i < c.links.length) :
    Network.IsClosed (c.step h).toNetwork i := by
  have closed := isClosed_withdraw held
  have longer := Network.length_le_of_grows c.grows_withdraw
  unfold Client.leaves at leaves
  split at leaves
  -- A session is ended by a selection or for good; both begin with what is withdrawn.
  · next room =>
    rw [Bool.and_eq_true, Bool.not_eq_true', Bool.not_eq_true'] at leaves
    rw [step_of_running leaves.1]
    exact closed.grows (c.grows_select_of_not_stays leaves.2) (by omega)
  · rw [Bool.not_eq_true'] at leaves
    rw [step_of_running leaves]
    exact closed.grows c.withdraw.grows_dropOutcomes (by omega)
  · contradiction

/-- A link stays in use until it is closed or has ended. -/
theorem held_step (s : c.standing.Sound) (h : Happening) {i : Nat} {l' : Link}
    (held : c.link = some i) (hl' : (c.step h).links[i]? = some l') :
    (c.step h).link = some i ∨ l'.closed = true ∨ l'.ended = true := by
  obtain ⟨l, hl, -⟩ := exists_held s held
  have isOpen : c.machine.state = .open := s.open_iff.2 (by simp [standing, held])
  -- A client that holds a link is open, which rules out most moves.
  have other {state : ConnectionState} (busy : c.machine.state = state)
      (different : state ≠ .open) : False := different (busy.symm.trans isOpen)
  have moves := step_moves s h
  cases leaves : c.leaves h with
  | true =>
    have closed := isClosed_of_leaves leaves held (List.getElem?_eq_some_iff.1 hl).1
    exact .inr (.inl (closed l' hl'))
  | false =>
    rw [leaves] at moves
    generalize after : (c.step h).standing = s' at moves
    have link : (c.step h).link = s'.link := congrArg Standing.link after
    rw [link]
    cases moves with
    | stay | forget | settle => exact .inl held
    | succeed _ _ _ _ _ _ connecting => exact (other connecting (by simp)).elim
    | fail _ _ _ _ _ _ connecting => exact (other connecting (by simp)).elim
    | retry _ _ _ reconnecting => exact (other reconnecting (by simp)).elim
    | lose =>
      have waits : (c.step (.turn .listen)).machine.state = .reconnecting c.machine.attempts :=
        congrArg (fun s : Standing => s.machine.state) after
      obtain ⟨j, k, held', hk, ended, -⟩ := ended_of_reconnecting s isOpen waits
      obtain rfl := Option.some.inj (held'.symm.trans held)
      obtain ⟨k', hk', grown⟩ := (c.grows_step (.turn .listen)).links j k hk
      obtain rfl := Option.some.inj (hk'.symm.trans hl')
      exact .inr (.inr (grown.ended ended))

private theorem running_of_outcome (s : c.standing.Sound) {o : Outcome} (ho : o ∈ c.outcomes) :
    c.stopped = false := by
  by_contra stopped
  have nil : c.outcomes = [] := s.outcomes_eq_nil (by simpa [standing] using stopped)
  rw [nil] at ho
  contradiction

/-- The link of an outcome comes into use or is closed when the outcome is looked at. -/
theorem awaited_step (s : c.standing.Sound) (h : Happening) {o : Outcome} (ho : o ∈ c.outcomes)
    {i : Nat} (link : o.link = some i) (inside : i < c.links.length) :
    (c.step h).link = some i ∨ (∃ o ∈ (c.step h).outcomes, o.link = some i) ∨
      (c.step h).toNetwork.IsClosed i := by
  have moves := step_moves s h
  generalize after : (c.step h).standing = s' at moves
  generalize c.leaves h = ends at moves
  have link_eq : (c.step h).link = s'.link := congrArg Standing.link after
  have outcomes_eq : (c.step h).outcomes = s'.outcomes := congrArg Standing.outcomes after
  rw [link_eq, outcomes_eq]
  -- The outcome stays where it is, unless it is the oldest one and looked at now, or all outcomes
  -- are dropped.
  cases moves with
  | stay | part | enter | lose | retry => exact .inr (.inl ⟨o, ho, link⟩)
  | stop running =>
    rw [step_of_running running]
    have longer := Network.length_le_of_grows c.grows_withdraw
    have torn : c.withdraw.outcomes = c.outcomes := congrArg Standing.outcomes c.standing_teardown
    exact .inr (.inr (c.withdraw.isClosed_dropOutcomes (torn ▸ ho) link (by omega)))
  | forget o' os oldest old =>
    change c.outcomes = o' :: os at oldest
    change o'.epoch ≠ c.epoch at old
    rw [oldest] at ho
    rcases List.mem_cons.1 ho with rfl | later
    · right; right
      rw [step_of_running (running_of_outcome s (oldest ▸ ho))]
      simp only [outcome?, oldest]
      change (handleOutcome { c with outcomes := os } o).toNetwork.IsClosed i
      rw [handleOutcome, if_neg old, Network.dropOutcome, link]
      exact Network.isClosed_onLink _ i
    · exact .inr (.inl ⟨o, later, link⟩)
  | succeed o' os j oldest current link' =>
    change c.outcomes = o' :: os at oldest
    rw [oldest] at ho
    rcases List.mem_cons.1 ho with rfl | later
    · exact .inl (link'.symm.trans link)
    · exact .inr (.inl ⟨o, later, link⟩)
  | fail o' os due oldest current link' =>
    change c.outcomes = o' :: os at oldest
    rw [oldest] at ho
    rcases List.mem_cons.1 ho with rfl | later
    · rw [link'] at link
      contradiction
    · exact .inr (.inl ⟨o, later, link⟩)
  | settle =>
    refine .inr (.inl ⟨o, ?_, link⟩)
    change o ∈ if c.stopped then [] else c.outcomes ++ [_]
    rw [running_of_outcome s ho]
    exact List.mem_append_left _ ho

/-- A link comes with an outcome, which a client that has stopped lets go at once. -/
theorem fresh_settle (j : Nat) (h : Handshake) {i : Nat} {l' : Link} (new : c.links[i]? = none)
    (hl' : (c.step (.settle j h)).links[i]? = some l') :
    (∃ o ∈ (c.step (.settle j h)).outcomes, o.link = some i) ∨ l'.closed = true := by
  have awaited : i < (c.toNetwork.settleLate j h).links.length →
      ∃ o ∈ (c.toNetwork.settleLate j h).outcomes, o.link = some i :=
    c.toNetwork.exists_outcome_settleLate j h (List.getElem?_eq_none_iff.1 new)
  have inside := (List.getElem?_eq_some_iff.1 hl').1
  cases stopped : c.stopped with
  | false =>
    have network : (c.step (.settle j h)).toNetwork = c.toNetwork.settleLate j h := by
      simp [step, stopped]
    rw [network] at inside ⊢
    exact .inl (awaited inside)
  | true =>
    have network :
        (c.step (.settle j h)).toNetwork = (c.toNetwork.settleLate j h).dropOutcomes := by
      simp [step, stopped]
    rw [network] at inside hl'
    rw [Network.length_dropOutcomes] at inside
    obtain ⟨o, ho, link⟩ := awaited inside
    exact .inr (Network.isClosed_dropOutcomes _ ho link inside l' hl')

private theorem fresh_step (s : c.standing.Sound) (h : Happening) {i : Nat} {l' : Link}
    (new : c.links[i]? = none) (hl' : (c.step h).links[i]? = some l') :
    (∃ o ∈ (c.step h).outcomes, o.link = some i) ∨ l'.closed = true := by
  have moves := step_moves s h
  have inside := (List.getElem?_eq_some_iff.1 hl').1
  have beyond := List.getElem?_eq_none_iff.1 new
  generalize after : (c.step h).standing = s' at moves
  generalize c.leaves h = ends at moves
  have length : (c.step h).links.length = s'.origins.length := by
    rw [← after]
    exact (List.length_map _).symm
  have origins : c.standing.origins.length = c.links.length := List.length_map _
  rw [length] at inside
  cases moves with
  | settle j h => exact fresh_settle j h new hl'
  | _ =>
    change i < c.standing.origins.length at inside
    omega

/-- No link is forgotten: it is in use, its outcome is still to be looked at, or it is closed. -/
theorem accounted_step (a : c.Accounted) (s : c.standing.Sound) (h : Happening) :
    (c.step h).Accounted := by
  intro i l' hl'
  cases hl : c.links[i]? with
  | none =>
    rcases fresh_step s h hl hl' with awaited | closed
    · exact .inr (.inl awaited)
    · exact .inr (.inr (.inl closed))
  | some l =>
    obtain ⟨k, hk, grown⟩ := (c.grows_step h).links i l hl
    obtain rfl := Option.some.inj (hk.symm.trans hl')
    rcases a i l hl with held | ⟨o, ho, link⟩ | closed | ended
    · rcases held_step s h held hl' with still | gone
      · exact .inl still
      · exact .inr (.inr gone)
    · have inside := (List.getElem?_eq_some_iff.1 hl).1
      rcases awaited_step s h ho link inside with used | awaited | closed
      · exact .inl used
      · exact .inr (.inl awaited)
      · exact .inr (.inr (.inl (closed k hl')))
    · exact .inr (.inr (.inl (grown.closed closed)))
    · exact .inr (.inr (.inr (grown.ended ended)))

/-! ## Rest -/

/-- The client has no room, or it has stopped. -/
def Resting (c : Client) : Prop := c.room = none ∨ c.stopped = true

/-- Only the selection of a room ends the rest of a client. -/
theorem resting_step (s : c.standing.Sound) (resting : c.Resting) {h : Happening}
    (noSelection : c.stopped = true ∨ ∀ room, h ≠ .turn (.command (.select (some room)))) :
    (c.step h).Resting := by
  by_cases stopped : c.stopped = true
  · exact .inr (stopped_step stopped h)
  · have away : c.room = none := resting.resolve_right stopped
    have noRoom : (c.step h).room = none :=
      (step_moves s h).room_eq away (noSelection.resolve_left stopped)
    exact .inl noRoom

/-- The client is at rest, and has begun nothing and said nothing since an earlier moment. -/
structure RestsSince (before after : Client) : Prop where
  attempts : after.attempts.length = before.attempts.length
  accepted : after.accepted = before.accepted
  timer : after.timer = none
  link : after.link = none
  state : after.machine.state = .idle
  published : after.published = .idle

private theorem restsSince_self (s : c.standing.Sound) (resting : c.Resting) : RestsSince c c := by
  have idle : c.machine.state = .idle := s.idle_iff.2 resting
  have timer := s.timer_eq_none (by simp [standing, idle])
  have link := s.link_eq_none (by simp [standing, idle])
  exact ⟨rfl, rfl, timer, link, idle, s.published_eq.trans idle⟩

private theorem restsSince_step (s : c.standing.Sound) (resting : c.Resting) {h : Happening}
    (noSelection : c.stopped = true ∨ ∀ room, h ≠ .turn (.command (.select (some room))))
    (sound : (c.step h).standing.Sound) : RestsSince c (c.step h) := by
  have rests := restsSince_self sound (resting_step s resting noSelection)
  refine ⟨?_, ?_, rests.timer, rests.link, rests.state, rests.published⟩
  · have moves := step_moves s h
    have most : (c.step h).attempts.length ≤ c.attempts.length := by
      by_contra more
      -- The outcome of a new attempt would be waited for.
      obtain ⟨pending, -⟩ := moves.begun (k := c.attempts.length)
        (List.getElem?_eq_getElem (by simpa [standing] using more)) (Nat.le_refl _)
      have connecting : (c.step h).machine.state = .connecting :=
        sound.connecting_iff.2 (by rw [pending]; rfl)
      rw [rests.state] at connecting
      contradiction
    exact Nat.le_antisymm most moves.length_le
  · obtain ⟨new, accepted, held⟩ := c.step_says h
    cases new with
    | nil => rw [accepted, List.append_nil]
    | cons p new =>
      -- A frame would have been taken by a link in use.
      have link := held p List.mem_cons_self
      rw [rests.link] at link
      contradiction

/-- A client at rest stays so until a room is selected, and for ever if it has stopped. -/
theorem restsSince_run (s : c.standing.Sound) (resting : c.Resting) (hs : List Happening)
    (noSelection : c.stopped = true ∨
      ∀ room, Happening.turn (.command (.select (some room))) ∉ hs)
    (bound : c.epoch.toNat + c.teardowns hs < 2 ^ 64) : RestsSince c (c.run hs) := by
  induction hs generalizing c with
  | nil => exact restsSince_self s resting
  | cons h hs ih =>
    obtain ⟨-, sound, remaining⟩ := sound_cons s bound
    have now : c.stopped = true ∨ ∀ room, h ≠ .turn (.command (.select (some room))) :=
      noSelection.imp_right fun none_ room same => none_ room (same ▸ List.mem_cons_self)
    have later : (c.step h).stopped = true ∨
        ∀ room, Happening.turn (.command (.select (some room))) ∉ hs :=
      noSelection.imp (fun stopped => stopped_step stopped h) fun none_ room selected =>
        none_ room (List.mem_cons_of_mem _ selected)
    have step := restsSince_step s resting now sound
    have rest := ih sound (resting_step s resting now) later remaining
    exact ⟨rest.attempts.trans step.attempts, rest.accepted.trans step.accepted, rest.timer,
      rest.link, rest.state, rest.published⟩

/-! ## Along a run -/

private theorem accounted_run (a : c.Accounted) (s : c.standing.Sound) (hs : List Happening)
    (bound : c.epoch.toNat + c.teardowns hs < 2 ^ 64) : (c.run hs).Accounted := by
  induction hs generalizing c with
  | nil => exact a
  | cons h hs ih =>
    obtain ⟨-, sound, rest⟩ := sound_cons s bound
    exact ih (accounted_step a s h) sound rest

/-- Nothing outlives its session. -/
structure Contained (c : Client) (hs : List Happening) : Prop where
  /-- Every step begins what is for the active room only. -/
  confined : ∀ (hs₁ : List Happening) (h : Happening) (hs₂ : List Happening),
    hs = hs₁ ++ h :: hs₂ → Confined c.profile (c.run hs₁) h
  /-- A link whose outcome was looked at is the one in use, or was closed, or has ended. -/
  links : ∀ (i : Nat) (l : Link), (c.run hs).links[i]? = some l →
    (∀ o ∈ (c.run hs).outcomes, o.link ≠ some i) →
    (c.run hs).link = some i ∨ l.closed = true ∨ l.ended = true
  /-- After its room was given up for none the client rests until one is selected, and after it has
  stopped it rests for ever. -/
  rests : ∀ (hs₁ : List Happening) (command : SessionCommand) (hs₂ : List Happening),
    hs = hs₁ ++ .turn (.command command) :: hs₂ →
    (command = .shutdown ∨ command = .select none ∧
      ∀ room, Happening.turn (.command (.select (some room))) ∉ hs₂) →
    RestsSince (c.run (hs₁ ++ [.turn (.command command)])) (c.run hs)

private theorem stopped_shutdown (c : Client) :
    (c.step (.turn (.command .shutdown))).stopped = true := by
  cases running : c.stopped with
  | true =>
    rw [step_of_stopped running]
    exact running
  | false =>
    rw [step_of_running running]
    rfl

private theorem resting_select_none (c : Client) :
    (c.step (.turn (.command (.select none)))).Resting := by
  cases running : c.stopped with
  | true => exact .inr (stopped_step running _)
  | false =>
    rw [step_of_running running]
    change (c.select none).Resting
    cases stays : c.stays none with
    | true =>
      rw [select, if_pos stays]
      rw [Client.stays, Bool.and_eq_true, decide_eq_true_iff] at stays
      exact .inl stays.1.symm
    | false =>
      have room : (c.select none).room = none :=
        congrArg Standing.room (standing_select_none c stays)
      exact .inl room

/-- After everything that can happen in whatever order nothing has outlived its session: attempts
were made for the room that was active, one at a time and as the profile says, frames were taken on
links of that room, no link was forgotten, and without a room or after it has stopped the client is
at rest. The numbers of the sessions must not run out, or an old outcome would be taken for a new
one. -/
theorem run_contained (profile : Profile) (backoff : Backoff) (outbox : Outbox) (chat : Chat)
    (disk : Disk) (clock : Timestamp) (hs : List Happening)
    (bound : (start profile backoff outbox chat disk clock).teardowns hs < 2 ^ 64) :
    (start profile backoff outbox chat disk clock).Contained hs := by
  have s₀ := sound_start profile backoff outbox chat disk clock
  have t₀ := told_start profile backoff outbox chat disk clock
  have a₀ : (start profile backoff outbox chat disk clock).Accounted := by
    intro i l hl
    simp [start] at hl
  have zero : (start profile backoff outbox chat disk clock).epoch.toNat = 0 := rfl
  -- Only these facts about the start are used from here on.
  generalize start profile backoff outbox chat disk clock = c at s₀ t₀ a₀ zero bound ⊢
  refine ⟨?_, ?_, ?_⟩
  · intro hs₁ h hs₂ split
    subst split
    rw [teardowns_append] at bound
    rw [teardowns_cons] at bound
    obtain ⟨s₁, epoch⟩ := sound_run s₀ hs₁ (by omega)
    have same : (c.run hs₁).profile = c.profile := (told_run t₀ s₀ hs₁ (by omega)).profile
    have confined := confined_step s₁ h (by omega)
    rw [same] at confined
    exact confined
  · intro i l hl looked
    rcases accounted_run a₀ s₀ hs (by omega) i l hl with held | ⟨o, ho, link⟩ | gone
    · exact .inl held
    · exact absurd link (looked o ho)
    · exact .inr gone
  · intro hs₁ command hs₂ split ends
    subst split
    rw [teardowns_append] at bound
    obtain ⟨s₁, epoch⟩ := sound_run s₀ hs₁ (by omega)
    have bound₁ : (c.run hs₁).epoch.toNat +
        (c.run hs₁).teardowns (.turn (.command command) :: hs₂) < 2 ^ 64 := by omega
    obtain ⟨-, s₂, rest⟩ := sound_cons s₁ bound₁
    rw [run_append, run_append, run_cons, run_cons, run_nil]
    rcases ends with rfl | ⟨rfl, noSelection⟩
    · have stopped := stopped_shutdown (c.run hs₁)
      exact restsSince_run s₂ (.inr stopped) hs₂ (.inl stopped) rest
    · exact restsSince_run s₂ (resting_select_none (c.run hs₁)) hs₂ (.inr noSelection) rest

end Client

namespace Detour

/-- The client gives up a room that does not answer, and leaves another one for good. -/
def leaving : List Happening := [
  .turn (.command (.select (some attic))), .turn (.command (.select none)),
  .settle 0 (.accepted none), .turn .outcome, .turn (.command (.select (some lobby))),
  .settle 1 (.accepted none), .turn .outcome, .turn (.command (.typing true)),
  .turn (.command .shutdown), .pass 5000, .turn .timer]

end Detour

theorem run_contained_detour :
    Detour.client.teardowns Detour.leaving < 2 ^ 64 ∧ Detour.client.Contained Detour.leaving ∧
      (Detour.client.run Detour.leaving).links.map Link.closed = [true, true] := by
  have bound : Detour.client.teardowns Detour.leaving < 2 ^ 64 := by decide
  have contained := Client.run_contained Detour.profile {} {} .empty {} .epoch Detour.leaving bound
  exact ⟨bound, contained, by decide⟩

end ChatClient
