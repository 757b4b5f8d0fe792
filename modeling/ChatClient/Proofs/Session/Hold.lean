import ChatClient.Proofs.Session.Listening
import ChatClient.Proofs.Session.Pace
import ChatClient.Proofs.Session.Untouched

/-!
# What a client does with one of its links

A client hands frames to a link, takes texts from it, and lets go of it when it leaves the room of
the link or has left it already. It also finds that the link has ended. All else that a client does
leaves the link alone. A link that the client has let go of, or whose end it has found, it never
comes back to.

Links are meant here on which the server either takes all frames or none any more.

## Main definitions

* `Client.letsGo`, `Client.loses`, `Client.hearsFrom`, `Client.saysTo`: what a client does with a
  link
* `Client.Wants`: the link is in use or may come into use

## Main results

* `getElem?_step`: what becomes of a link in a step
* `saysTo_of_deaf`: nothing is said on a link whose server takes no more frames
* `wants_of_step`: the client does not come back to a link
-/

namespace ChatClient

/-- The server takes any number of frames, or none any more. -/
def Link.Plain (l : Link) : Prop := l.accepts = none ∨ l.accepts = some 0

/-- A server that takes any number of frames has not come nearer to an end with one of them. -/
theorem Link.Plain.accept {l : Link} (plain : l.Plain) (reads : l.reads = true) : l.accept = l := by
  rcases plain with all | none_
  · rw [Link.accept, all]
    obtain ⟨room, epoch, accepts⟩ := l
    obtain rfl : accepts = none := all
    rfl
  · simp [Link.reads, none_] at reads

/-- The world does something to the link with the given number. -/
def Happening.actsOn (i : Nat) : Happening → Bool
  | .push j _ | .deafen j | .hangUp j => j == i
  | _ => false

namespace Network

variable {n n' : Network} {i j : Nat} {l : Link}

/-! ## Links that are left alone -/

/-- What is done to a link is done to it. -/
theorem getElem?_onLink_self (n : Network) (i : Nat) (f : Link → Link) :
    (n.onLink i f).links[i]? = n.links[i]?.map f := by
  rw [onLink, List.getElem?_modify_eq]
  rfl

private theorem getElem?_onLink_of_ne (other : j ≠ i) (f : Link → Link) :
    (n.onLink j f).links[i]? = n.links[i]? := by
  rw [onLink, List.getElem?_modify_ne _ _ other]

/-- The link is left alone, and nothing is said on it that its server does not take. -/
def Steady (i : Nat) (n n' : Network) : Prop :=
  ∀ l, n.links[i]? = some l → l.Plain → n'.links[i]? = some l ∧
    ∃ new, n'.accepted = n.accepted ++ new ∧ (l.reads = false → ∀ p ∈ new, p.1 ≠ i)

/-- Nothing is said at all. -/
theorem steady_of_getElem?_eq (link : n'.links[i]? = n.links[i]?)
    (accepted : n'.accepted = n.accepted) : Steady i n n' := by
  intro l hl _
  exact ⟨link.trans hl, [], by rw [accepted, List.append_nil], by simp⟩

/-- A link that is left alone twice is left alone. -/
theorem Steady.trans {n'' : Network} (h : Steady i n n') (h' : Steady i n' n'') :
    Steady i n n'' := by
  intro l hl plain
  obtain ⟨hl', new, accepted, silent⟩ := h l hl plain
  obtain ⟨hl'', more, accepted', silent'⟩ := h' l hl' plain
  refine ⟨hl'', new ++ more, by rw [accepted', accepted, List.append_assoc], ?_⟩
  intro deaf
  exact List.forall_mem_append.2 ⟨silent deaf, silent' deaf⟩

private theorem steady_transmit (n : Network) (j : Nat) (f : Wire.Frame) :
    Steady i n (n.transmit j f).1 := by
  rw [transmit]
  split
  · exact steady_of_getElem?_eq rfl rfl
  · next k hk =>
    split
    · next reads =>
      intro l hl plain
      by_cases here : j = i
      · subst here
        obtain rfl := Option.some.inj (hk.symm.trans hl)
        refine ⟨?_, [(j, f)], rfl, fun deaf => by rw [reads] at deaf; contradiction⟩
        rw [plain.accept reads, List.getElem?_set_self (List.getElem?_eq_some_iff.1 hk).1]
      · refine ⟨?_, [(j, f)], rfl, fun _ p said => ?_⟩
        · rw [List.getElem?_set_ne here, hl]
        · rw [List.mem_singleton.1 said]
          exact here
    · exact steady_of_getElem?_eq rfl rfl

private theorem conduct_steady (i : Nat) : Conduct (Steady i) where
  same links accepted := steady_of_getElem?_eq (by rw [links]) accepted
  trans := Steady.trans
  sent := steady_transmit

private theorem steady_onLink_of_ne (other : j ≠ i) (f : Link → Link) : Steady i n (n.onLink j f) :=
  steady_of_getElem?_eq (getElem?_onLink_of_ne other f) rfl

/-- A link that opens comes after those that there are. -/
theorem steady_settleLate (inside : i < n.links.length) (k : Nat) (h : Handshake) :
    Steady i n (n.settleLate k h) := by
  rw [settleLate]
  split
  · split
    · exact steady_of_getElem?_eq rfl rfl
    · cases h with
      | refused => exact steady_of_getElem?_eq rfl rfl
      | accepted accepts => exact steady_of_getElem?_eq (List.getElem?_append_left inside) rfl
  · exact steady_of_getElem?_eq rfl rfl

/-! ## Outcomes that are let go -/

/-- The links of outcomes that are let go are closed, and no others. -/
theorem getElem?_dropOutcomes (n : Network) (i : Nat) :
    n.dropOutcomes.links[i]? =
      if n.outcomes.any (·.link == some i) then n.links[i]?.map Link.close else n.links[i]? := by
  have dropped (os : List Outcome) (m : Network) :
      (os.foldl dropOutcome m).links[i]? =
        if os.any (·.link == some i) then m.links[i]?.map Link.close else m.links[i]? := by
    induction os generalizing m with
    | nil => rfl
    | cons o os ih =>
      have first : (m.dropOutcome o).links[i]? =
          if o.link == some i then m.links[i]?.map Link.close else m.links[i]? := by
        rw [dropOutcome]
        cases link : o.link with
        | none => rfl
        | some j =>
          by_cases here : j = i
          · simp [here, getElem?_onLink_self]
          · simp [here, getElem?_onLink_of_ne here]
      rw [List.foldl_cons, ih, first, List.any_cons]
      -- A link that is closed twice is closed.
      have twice : (m.links[i]?.map Link.close).map Link.close = m.links[i]?.map Link.close := by
        cases m.links[i]? <;> rfl
      cases o.link == some i <;> cases os.any (·.link == some i) <;> simp [twice]
  exact dropped n.outcomes n

private theorem steady_dropOutcomes (others : n.outcomes.any (·.link == some i) = false) :
    Steady i n n.dropOutcomes := by
  refine steady_of_getElem?_eq ?_ (Client.accepted_dropOutcomes n)
  rw [getElem?_dropOutcomes, others]
  rfl

end Network

namespace Client

open Network (Steady steady_of_getElem?_eq conduct_steady)

variable {c : Client} {i : Nat} {l : Link} {h : Happening}

/-! ## What is done with a link -/

/-- The client lets go of the link. It leaves the room of the link, or finds that it has left it. -/
def letsGo (c : Client) (i : Nat) : Happening → Bool
  | .turn (.command (.select room)) => !c.stopped && !c.stays room && c.link == some i
  | .turn (.command .shutdown) =>
    !c.stopped && (c.link == some i || c.outcomes.any (·.link == some i))
  | .turn .outcome =>
    !c.stopped && c.outcomes.head?.any fun o => o.epoch != c.epoch && o.link == some i
  | _ => false

/-- The client finds that the link has ended. -/
def loses (c : Client) (i : Nat) : Happening → Bool
  | .turn .listen => !c.stopped && c.findsEnd && c.link == some i
  | _ => false

/-- The client takes a text from the link. -/
def hearsFrom (c : Client) (i : Nat) (h : Happening) : Bool := (hears c h).any (·.link == i)

/-- The frames that the server of the link takes. -/
def saysTo (c : Client) (i : Nat) (h : Happening) : List Wire.Frame :=
  (((c.step h).accepted.drop c.accepted.length).filter (·.1 == i)).map Prod.snd

/-- The link is in use, or there is an outcome that tells of it. -/
def Wants (c : Client) (i : Nat) : Prop := c.link = some i ∨ ∃ o ∈ c.outcomes, o.link = some i

private theorem hears_of_ne (other : h ≠ .turn .listen) : hears c h = [] := by
  unfold hears
  split
  · contradiction
  · rfl

/-- A client lets go of a link when it leaves the room of the link, when it shuts down, and when it
looks at an outcome that tells of the link but belongs to a session that is over. -/
theorem letsGo_cases (letsGo : c.letsGo i h = true) : c.stopped = false ∧
    ((∃ room, h = .turn (.command (.select room)) ∧ c.stays room = false ∧ c.link = some i) ∨
      (h = .turn (.command .shutdown) ∧ c.Wants i) ∨
      (h = .turn .outcome ∧
        ∃ o os, c.outcomes = o :: os ∧ o.epoch ≠ c.epoch ∧ o.link = some i)) := by
  unfold Client.letsGo at letsGo
  split at letsGo
  · next room =>
    simp only [Bool.and_eq_true, Bool.not_eq_true', beq_iff_eq] at letsGo
    obtain ⟨⟨running, moves⟩, held⟩ := letsGo
    exact ⟨running, .inl ⟨room, rfl, moves, held⟩⟩
  · rw [Bool.and_eq_true, Bool.not_eq_true'] at letsGo
    exact ⟨letsGo.1, .inr (.inl ⟨rfl, by simpa [Wants] using letsGo.2⟩)⟩
  · simp only [Bool.and_eq_true, Bool.not_eq_true', Option.any_eq_true, bne_iff_ne,
      beq_iff_eq] at letsGo
    obtain ⟨running, o, oldest, old, link⟩ := letsGo
    obtain ⟨os, queued⟩ := List.head?_eq_some_iff.1 oldest
    exact ⟨running, .inr (.inr ⟨rfl, o, os, queued, old, link⟩)⟩
  · contradiction

private theorem step_outcome_of_queued {o : Outcome} {os : List Outcome}
    (running : c.stopped = false) (queued : c.outcomes = o :: os) :
    c.step (.turn .outcome) = handleOutcome { c with outcomes := os } o := by
  rw [step_of_running running]
  simp only [outcome?, queued]
  rfl

/-! ## Steps that leave a link alone -/

private theorem steady_abort (n : Network) (k : Nat) : Steady i n (n.abort k) :=
  steady_of_getElem?_eq rfl rfl

private theorem steady_withdraw (other : c.link ≠ some i) : Steady i c.toNetwork c.withdraw := by
  rw [withdraw]
  cases held : c.link with
  | none =>
    cases c.pending with
    | none => exact steady_of_getElem?_eq rfl rfl
    | some k => exact steady_abort c.toNetwork k
  | some j =>
    have apart : j ≠ i := fun same => other (by rw [held, same])
    cases c.pending with
    | none => exact Network.steady_onLink_of_ne apart _
    | some k => exact (steady_abort c.toNetwork k).trans (Network.steady_onLink_of_ne apart _)

private theorem outcomes_withdraw (c : Client) : c.withdraw.outcomes = c.outcomes := by
  rw [withdraw]
  cases c.link <;> cases c.pending <;> rfl

private theorem steady_command (running : c.stopped = false) {command : SessionCommand}
    (kept : c.letsGo i (.turn (.command command)) = false) :
    Steady i c.toNetwork (c.handleCommand command).toNetwork := by
  cases command with
  | select room =>
    change Steady i c.toNetwork (c.select room).toNetwork
    rw [select]
    split
    · exact steady_of_getElem?_eq rfl rfl
    · next moves =>
      have other : c.link ≠ some i := by simpa [letsGo, running, moves] using kept
      exact (steady_withdraw other).trans ((conduct_steady i).begin { c.teardown with room })
  | send p => exact (conduct_steady i).send c p
  | typing on => exact (conduct_steady i).sendTyping c on
  | shutdown =>
    simp only [letsGo, running, Bool.not_false, Bool.true_and, Bool.or_eq_false_iff] at kept
    have other : c.link ≠ some i := by simpa using kept.1
    refine (steady_withdraw other).trans (Network.steady_dropOutcomes ?_)
    rw [outcomes_withdraw]
    exact kept.2

private theorem steady_outcome (running : c.stopped = false)
    (kept : c.letsGo i (.turn .outcome) = false) :
    Steady i c.toNetwork (c.outcome?.getD c).toNetwork := by
  rw [outcome?]
  cases queued : c.outcomes with
  | nil => exact steady_of_getElem?_eq rfl rfl
  | cons o os =>
    change Steady i c.toNetwork (handleOutcome { c with outcomes := os } o).toNetwork
    by_cases current : o.epoch = c.epoch
    · exact (conduct_steady i).outcome { c with outcomes := os } current
    · rw [handleOutcome, if_neg current]
      have other : o.link ≠ some i := by simpa [letsGo, running, queued, current] using kept
      change Steady i c.toNetwork (Network.dropOutcome { c.toNetwork with outcomes := os } o)
      rw [Network.dropOutcome]
      cases link : o.link with
      | none => exact steady_of_getElem?_eq rfl rfl
      | some j =>
        have apart : j ≠ i := fun same => other (by rw [link, same])
        exact steady_of_getElem?_eq (Network.getElem?_onLink_of_ne apart _) rfl

/-- An attempt that is settled opens a new link at most. A client that has stopped closes that
one. -/
theorem steady_settle (u : c.Untouched) (inside : i < c.links.length) (k : Nat) (h : Handshake) :
    Steady i c.toNetwork (c.step (.settle k h)).toNetwork := by
  have settled : Steady i c.toNetwork (c.toNetwork.settleLate k h) :=
    Network.steady_settleLate inside k h
  change Steady i c.toNetwork (if c.stopped then _ else _)
  split
  · next stopped =>
    refine settled.trans (Network.steady_dropOutcomes ?_)
    rcases outcomes_settleLate c.toNetwork k h with same | ⟨o, more, new⟩
    · rw [same, u.idle stopped]
      rfl
    · have other : o.link ≠ some i := fun link => by
        have beyond := (new i link).1
        omega
      rw [more, u.idle stopped]
      simpa using other
  · exact settled

/-- Where the client neither listens nor lets go of a link the link is left alone. -/
theorem steady_step (u : c.Untouched) (inside : i < c.links.length) (apart : h.actsOn i = false)
    (still : h ≠ .turn .listen) (kept : c.letsGo i h = false) :
    Steady i c.toNetwork (c.step h).toNetwork := by
  cases h with
  | turn t =>
    cases running : c.stopped with
    | true =>
      rw [step_of_stopped running]
      exact steady_of_getElem?_eq rfl rfl
    | false =>
      rw [step_of_running running]
      cases t with
      | command command => exact steady_command running kept
      | outcome => exact steady_outcome running kept
      | listen => contradiction
      | timer => exact (conduct_steady i).timer c
  | settle k h => exact steady_settle u inside k h
  | push j text => exact Network.steady_onLink_of_ne (by simpa [Happening.actsOn] using apart) _
  | deafen j => exact Network.steady_onLink_of_ne (by simpa [Happening.actsOn] using apart) _
  | hangUp j => exact Network.steady_onLink_of_ne (by simpa [Happening.actsOn] using apart) _
  | pass | clock | disk => exact steady_of_getElem?_eq rfl rfl

/-! ## Steps that do not -/

/-- A link that is let go of is closed. -/
theorem getElem?_step_of_letsGo (hl : c.links[i]? = some l) (plain : l.Plain)
    (letsGo : c.letsGo i h = true) : (c.step h).links[i]? = some l.close := by
  have withdrawn (held : c.link = some i) : c.withdraw.links[i]? = some l.close := by
    have gaveUp : c.withdraw.links = c.links.modify i Link.close := by
      rw [withdraw, held]
      cases c.pending <;> rfl
    rw [gaveUp, List.getElem?_modify_eq, hl]
    rfl
  obtain ⟨running, ⟨room, rfl, moves, held⟩ | ⟨rfl, wants⟩ | ⟨rfl, o, os, queued, old, link⟩⟩ :=
    letsGo_cases letsGo
  · rw [step_of_running running]
    change (c.select room).links[i]? = _
    rw [select, moves]
    have begun := (conduct_steady i).begin { c.teardown with room }
    exact (begun _ (withdrawn held) plain).1
  · rw [step_of_running running]
    change c.withdraw.dropOutcomes.links[i]? = _
    rw [Network.getElem?_dropOutcomes, outcomes_withdraw]
    -- The link may be in use, or an outcome may tell of it, or both.
    by_cases held : c.link = some i
    · rw [withdrawn held]
      split <;> rfl
    · have awaited : c.outcomes.any (·.link == some i) = true := by
        simpa using wants.resolve_left held
      rw [if_pos awaited, (steady_withdraw held l hl plain).1]
      rfl
  · rw [step_outcome_of_queued running queued, handleOutcome, if_neg old, Network.dropOutcome, link]
    simp only [Network.getElem?_onLink_self, hl, Option.map_some]

/-- From a link that is listened to a text is taken, if one is. -/
theorem getElem?_step_listen (hl : c.links[i]? = some l) (plain : l.Plain) :
    (c.step (.turn .listen)).links[i]? =
      some (if c.hearsFrom i (.turn .listen) then l.take else l) := by
  rcases hears_cases c (.turn .listen) with silent | ⟨r, one, taken, after⟩
  · have same : Steady i c.toNetwork (c.step (.turn .listen)).toNetwork := by
      cases running : c.stopped with
      | true =>
        rw [step_of_stopped running]
        exact steady_of_getElem?_eq rfl rfl
      | false =>
        have none_ : c.reading? = none := by simpa [hears, running] using silent
        rw [step_of_running running]
        simp only [listen?, none_]
        split
        · split
          · exact (conduct_steady i).linkClosed c
          · exact steady_of_getElem?_eq rfl rfl
        · exact steady_of_getElem?_eq rfl rfl
    rw [(same l hl plain).1, hearsFrom, silent]
    rfl
  · rw [after, toNetwork_handleText, hearsFrom, one]
    by_cases here : r.link = i
    · subst here
      simp [Network.getElem?_onLink_self, hl]
    · simp [Network.getElem?_onLink_of_ne here, hl, here]

/-- What becomes of a link in a step, as far as the client is concerned. -/
theorem getElem?_step (u : c.Untouched) (hl : c.links[i]? = some l) (plain : l.Plain)
    (apart : h.actsOn i = false) :
    (c.step h).links[i]? =
      some (if c.letsGo i h then l.close else if c.hearsFrom i h then l.take else l) := by
  cases letsGo : c.letsGo i h with
  | true => exact getElem?_step_of_letsGo hl plain letsGo
  | false =>
    by_cases listens : h = .turn .listen
    · subst listens
      exact getElem?_step_listen hl plain
    · have inside := (List.getElem?_eq_some_iff.1 hl).1
      rw [(steady_step u inside apart listens letsGo l hl plain).1, hearsFrom, hears_of_ne listens]
      rfl

/-! ## A client does not come back to a link -/

/-- A client lets go only of links that it has or that it may come to have. -/
theorem wants_of_letsGo (letsGo : c.letsGo i h = true) : c.Wants i := by
  obtain ⟨-, ⟨room, -, -, held⟩ | ⟨-, wants⟩ | ⟨-, o, os, queued, -, link⟩⟩ := letsGo_cases letsGo
  · exact .inl held
  · exact wants
  · exact .inr ⟨o, by simp [queued], link⟩

/-- The end that a client finds is the end of its link. -/
theorem wants_of_loses (loses : c.loses i h = true) : c.Wants i := by
  unfold Client.loses at loses
  split at loses
  · simp only [Bool.and_eq_true, beq_iff_eq] at loses
    exact .inl loses.2
  · contradiction

/-- A client hears only its own link. -/
theorem wants_of_hearsFrom (hearsFrom : c.hearsFrom i h = true) : c.Wants i := by
  rcases hears_cases c h with silent | ⟨r, one, taken, -⟩
  · simp [Client.hearsFrom, silent] at hearsFrom
  · obtain ⟨l, held, -⟩ := c.reading_eq_some taken
    have here : r.link = i := by simpa [Client.hearsFrom, one] using hearsFrom
    exact .inl (here ▸ held)

/-- Only who listens finds the end of a link. -/
theorem listens_of_loses (loses : c.loses i h = true) : h = .turn .listen := by
  unfold Client.loses at loses
  split at loses
  · rfl
  · contradiction

/-- Only who listens takes a text from a link. -/
theorem listens_of_hearsFrom (hearsFrom : c.hearsFrom i h = true) : h = .turn .listen := by
  by_contra other
  rw [Client.hearsFrom, hears_of_ne other] at hearsFrom
  contradiction

/-- The end of a link is found when no text is left on it. -/
theorem next_of_loses (hl : c.links[i]? = some l) (loses : c.loses i h = true) :
    l.next? = none ∧ l.ended = true ∧ c.hearsFrom i h = false := by
  obtain rfl := listens_of_loses loses
  simp only [Client.loses, findsEnd, Bool.and_eq_true, Bool.not_eq_true', beq_iff_eq] at loses
  obtain ⟨⟨running, silent, ended⟩, held⟩ := loses
  have none_ : c.reading? = none := Option.isNone_iff_eq_none.1 silent
  refine ⟨?_, ?_, ?_⟩
  · by_contra some_left
    obtain ⟨text, next⟩ := Option.ne_none_iff_exists'.1 some_left
    have reading : c.reading? = some ⟨i, l.room, text, c.clock⟩ := by
      simp [reading?, held, hl, next]
    rw [none_] at reading
    contradiction
  · simpa [currentLink?, held, hl] using ended
  · simp [Client.hearsFrom, hears, running, none_]

/-- Where a text is taken there was one to take. -/
theorem next_of_hearsFrom (hl : c.links[i]? = some l) (hearsFrom : c.hearsFrom i h = true) :
    ∃ text, l.next? = some text := by
  rcases hears_cases c h with silent | ⟨r, one, taken, -⟩
  · simp [Client.hearsFrom, silent] at hearsFrom
  · have here : r.link = i := by simpa [Client.hearsFrom, one] using hearsFrom
    obtain ⟨l', -, hl', next, -⟩ := c.reading_eq_some taken
    rw [here, hl] at hl'
    obtain rfl := Option.some.inj hl'
    exact ⟨r.text, next⟩

/-- A link that is no longer in use is not awaited either. -/
theorem not_wants_of_released (u : c.Untouched) (inside : i < c.links.length)
    (held : c.link = some i) (released : (c.step h).link = none) : ¬ (c.step h).Wants i := by
  rintro (again | ⟨o, ho, link⟩)
  · rw [released] at again
    contradiction
  · rcases mem_outcomes_step h ho with old | new
    · exact u.free o old i link held
    · have beyond := new i link
      omega

private theorem link_select_of_not_stays {room : Option RoomId} (moves : c.stays room = false) :
    (c.select room).link = none := by
  cases room with
  | none => exact congrArg Standing.link (c.standing_select_none moves)
  | some room => exact congrArg Standing.link (c.standing_select_some moves)

private theorem link_handleLinkClosed (c : Client) : c.handleLinkClosed.link = none := by
  have lost := quiet_proceed { c with link := none } Machine.closed (by
    rw [Machine.closed]
    split <;> simp)
  rcases lost.link with gone | ⟨same, -⟩
  · exact gone
  · exact same

/-- The client does not want a link that it has let go of. -/
theorem not_wants_of_letsGo (u : c.Untouched) (inside : i < c.links.length)
    (letsGo : c.letsGo i h = true) : ¬ (c.step h).Wants i := by
  obtain ⟨running, ⟨room, rfl, moves, held⟩ | ⟨rfl, -⟩ | ⟨rfl, o, os, queued, old, link⟩⟩ :=
    letsGo_cases letsGo
  · apply not_wants_of_released u inside held
    rw [step_of_running running]
    exact link_select_of_not_stays moves
  · rw [step_of_running running]
    rintro (again | ⟨o, ho, -⟩)
    · contradiction
    · contradiction
  · have standing : (c.step (.turn .outcome)).standing = { c with outcomes := os }.standing := by
      rw [step_outcome_of_queued running queued]
      exact standing_handleOutcome_old { c with outcomes := os } old
    -- No two outcomes tell of one link, and none tells of the link in use.
    have apart := u.distinct
    rw [queued, List.filterMap_cons_some link, List.nodup_cons] at apart
    rintro (again | ⟨o', ho', link'⟩)
    · have held : c.link = some i := (congrArg Standing.link standing).symm.trans again
      exact u.free o (by simp [queued]) i link held
    · have outcomes : (c.step (.turn .outcome)).outcomes = os := congrArg Standing.outcomes standing
      rw [outcomes] at ho'
      exact apart.1 (List.mem_filterMap.2 ⟨o', ho', link'⟩)

/-- Nor does it want one whose end it has found. -/
theorem not_wants_of_loses (u : c.Untouched) (inside : i < c.links.length)
    (loses : c.loses i h = true) : ¬ (c.step h).Wants i := by
  unfold Client.loses at loses
  split at loses
  · simp only [Bool.and_eq_true, Bool.not_eq_true', beq_iff_eq] at loses
    obtain ⟨⟨running, ended⟩, held⟩ := loses
    apply not_wants_of_released u inside held
    rcases step_listen_cases running with ⟨goesOn, -⟩ | ⟨-, lost⟩
    · rw [ended] at goesOn
      contradiction
    · rw [lost]
      exact link_handleLinkClosed c
  · contradiction

/-- A link that the client wants it has wanted before, and has neither let go of nor lost. -/
theorem wants_of_step (u : c.Untouched) (inside : i < c.links.length) (wants : (c.step h).Wants i) :
    c.Wants i ∧ c.letsGo i h = false ∧ c.loses i h = false := by
  refine ⟨?_, ?_, ?_⟩
  · rcases wants with held | ⟨o, ho, link⟩
    · rcases c.link_step h with (gone | ⟨same, -⟩) | ⟨-, o, os, queued, -, used⟩
      · rw [gone] at held
        contradiction
      · exact .inl (same.symm.trans held)
      · exact .inr ⟨o, by simp [queued], used.symm.trans held⟩
    · rcases mem_outcomes_step h ho with old | new
      · exact .inr ⟨o, old, link⟩
      · have beyond := new i link
        omega
  · by_contra letsGo
    exact not_wants_of_letsGo u inside (by simpa using letsGo) wants
  · by_contra loses
    exact not_wants_of_loses u inside (by simpa using loses) wants

/-! ## What is said on a link -/

/-- What is said to a link is found among the frames that have come to be taken. -/
theorem saysTo_of_accepted {new : List (Nat × Wire.Frame)}
    (accepted : (c.step h).accepted = c.accepted ++ new) :
    c.saysTo i h = (new.filter (·.1 == i)).map Prod.snd := by
  rw [saysTo, accepted, List.drop_left]

/-- Frames are taken on links that the client wants. -/
theorem wants_of_saysTo (some_said : c.saysTo i h ≠ []) : (c.step h).Wants i := by
  obtain ⟨new, accepted, held⟩ := c.step_says h
  rw [saysTo_of_accepted accepted] at some_said
  have taken : new.filter (·.1 == i) ≠ [] := fun none_ => some_said (by simp [none_])
  obtain ⟨p, mem⟩ := List.exists_mem_of_ne_nil _ taken
  obtain ⟨said, here⟩ := List.mem_filter.1 mem
  exact .inl ((held p said).trans (congrArg some (beq_iff_eq.1 here)))

/-- Nothing is said where the client listens, and nothing on a link that it lets go of. -/
theorem saysTo_of_letsGo (u : c.Untouched) (inside : i < c.links.length)
    (letsGo : c.letsGo i h = true) : c.saysTo i h = [] := by
  by_contra some_said
  exact not_wants_of_letsGo u inside letsGo (wants_of_saysTo some_said)

/-- A client that listens says nothing. -/
theorem saysTo_listen (c : Client) (i : Nat) : c.saysTo i (.turn .listen) = [] := by
  have accepted := (c.step_quiet (h := .turn .listen) rfl).accepted
  rw [saysTo_of_accepted (accepted.trans (List.append_nil _).symm)]
  rfl

/-- On a link whose server takes no more frames none is taken. -/
theorem saysTo_of_deaf (u : c.Untouched) (hl : c.links[i]? = some l) (plain : l.Plain)
    (deaf : l.reads = false) (apart : h.actsOn i = false) : c.saysTo i h = [] := by
  have inside := (List.getElem?_eq_some_iff.1 hl).1
  cases letsGo : c.letsGo i h with
  | true => exact saysTo_of_letsGo u inside letsGo
  | false =>
    by_cases listens : h = .turn .listen
    · subst listens
      exact c.saysTo_listen i
    · obtain ⟨-, new, accepted, silent⟩ := steady_step u inside apart listens letsGo l hl plain
      rw [saysTo_of_accepted accepted, List.map_eq_nil_iff, List.filter_eq_nil_iff]
      intro p said
      simpa using silent deaf p said

end Client

end ChatClient
