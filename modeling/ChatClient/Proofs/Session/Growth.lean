import ChatClient.Proofs.Session.Conduct

/-!
# The record of the network grows

Links are never forgotten and keep their numbers. What has happened to one cannot be undone: texts
that were pushed stay, a link that has ended or was closed stays so, and a server that takes no more
frames does not take any later. The frames that were taken stay where they are in the record.

Texts are taken from a link in one kind of step only, so the relations say whether they may be.

## Main definitions

* `Link.Grows`, `Network.Grows`

## Main results

* `grows_step`, `grows_run`: the record grows with every step and along every run
-/

namespace ChatClient

/-- What may become of a link while texts are taken from it, or while they are not. -/
structure Link.Grows (reading : Bool) (l l' : Link) : Prop where
  room : l'.room = l.room
  epoch : l'.epoch = l.epoch
  reads : l'.reads = true → l.reads = true
  pushed : l.pushed <+: l'.pushed
  final : l.ended = true → l'.pushed = l.pushed
  ended : l.ended = true → l'.ended = true
  closed : l.closed = true → l'.closed = true
  taken : reading = false → l'.taken = l.taken

namespace Link

variable {reading : Bool}

theorem Grows.refl (l : Link) : l.Grows reading l :=
  ⟨rfl, rfl, id, List.prefix_rfl, fun _ => rfl, id, id, fun _ => rfl⟩

theorem Grows.trans {l l' l'' : Link} (h : l.Grows reading l') (h' : l'.Grows reading l'') :
    l.Grows reading l'' where
  room := h'.room.trans h.room
  epoch := h'.epoch.trans h.epoch
  reads := fun reads => h.reads (h'.reads reads)
  pushed := h.pushed.trans h'.pushed
  final := fun ended => (h'.final (h.ended ended)).trans (h.final ended)
  ended := fun ended => h'.ended (h.ended ended)
  closed := fun closed => h'.closed (h.closed closed)
  taken := fun still => (h'.taken still).trans (h.taken still)

theorem Grows.weaken {l l' : Link} (h : l.Grows reading l') : l.Grows true l' :=
  ⟨h.room, h.epoch, h.reads, h.pushed, h.final, h.ended, h.closed, by simp⟩

private theorem grows_accept (l : Link) : l.Grows false l.accept where
  room := rfl
  epoch := rfl
  reads := by
    unfold reads accept
    cases l.accepts with
    | none => exact id
    | some k => cases k <;> simp
  pushed := List.prefix_rfl
  final _ := rfl
  ended := id
  closed := id
  taken _ := rfl

/-- To take a text is the one thing that only a client that listens does. -/
theorem grows_take (l : Link) : l.Grows true l.take :=
  ⟨rfl, rfl, id, List.prefix_rfl, fun _ => rfl, id, id, by simp⟩

private theorem grows_close (l : Link) : l.Grows false l.close :=
  ⟨rfl, rfl, id, List.prefix_rfl, fun _ => rfl, id, fun _ => rfl, fun _ => rfl⟩

private theorem grows_deafen (l : Link) : l.Grows false l.deafen :=
  ⟨rfl, rfl, by simp [reads, deafen], List.prefix_rfl, fun _ => rfl, id, id, fun _ => rfl⟩

private theorem grows_hangUp (l : Link) : l.Grows false l.hangUp :=
  ⟨rfl, rfl, id, List.prefix_rfl, fun _ => rfl, fun _ => rfl, id, fun _ => rfl⟩

private theorem grows_push (l : Link) (text : String) (listening : l.listening = true) :
    l.Grows false (l.push text) where
  room := rfl
  epoch := rfl
  reads := id
  pushed := List.prefix_append _ _
  final ended := by simp [Link.listening, ended] at listening
  ended := id
  closed := id
  taken _ := rfl

end Link

/-- What may become of the record. From a link that is new nothing was taken yet. -/
structure Network.Grows (reading : Bool) (n n' : Network) : Prop where
  links : ∀ (i : Nat) (l : Link), n.links[i]? = some l →
    ∃ l', n'.links[i]? = some l' ∧ l.Grows reading l'
  fresh : reading = false → ∀ (i : Nat) (l' : Link), n.links[i]? = none → n'.links[i]? = some l' →
    l'.taken = 0
  accepted : n.accepted <+: n'.accepted

namespace Network

variable {reading : Bool}

/-- Nothing has become of the links. -/
theorem grows_of_links_eq {n n' : Network} (links : n'.links = n.links)
    (accepted : n'.accepted = n.accepted) : n.Grows reading n' where
  links i l hl := ⟨l, by rw [links, hl], .refl l⟩
  fresh _ i l' none_ some_ := by
    rw [links, none_] at some_
    contradiction
  accepted := by simp only [accepted, List.prefix_rfl]

theorem Grows.refl (n : Network) : n.Grows reading n := grows_of_links_eq rfl rfl

theorem Grows.trans {n n' n'' : Network} (h : n.Grows reading n') (h' : n'.Grows reading n'') :
    n.Grows reading n'' where
  links i l hl := by
    obtain ⟨l', hl', first⟩ := h.links i l hl
    obtain ⟨l'', hl'', second⟩ := h'.links i l' hl'
    exact ⟨l'', hl'', first.trans second⟩
  fresh still i l'' none_ hl'' := by
    -- The link is new in the first part or in the second.
    cases hl' : n'.links[i]? with
    | none => exact h'.fresh still i l'' hl' hl''
    | some l' =>
      obtain ⟨k, hk, second⟩ := h'.links i l' hl'
      obtain rfl := Option.some.inj (hk.symm.trans hl'')
      exact (second.taken still).trans (h.fresh still i l' none_ hl')
  accepted := h.accepted.trans h'.accepted

theorem Grows.weaken {n n' : Network} (h : n.Grows reading n') : n.Grows true n' where
  links i l hl := by
    obtain ⟨l', hl', grown⟩ := h.links i l hl
    exact ⟨l', hl', grown.weaken⟩
  fresh := by simp
  accepted := h.accepted

/-- No link is forgotten. -/
theorem length_le_of_grows {n n' : Network} (grows : n.Grows reading n') :
    n.links.length ≤ n'.links.length := by
  by_contra fewer
  have inside : n'.links.length < n.links.length := by omega
  obtain ⟨l, hl, -⟩ := grows.links _ _ (List.getElem?_eq_getElem inside)
  rw [List.getElem?_eq_none (by omega)] at hl
  contradiction

/-- If one link grows and the others stay, the network grows. -/
theorem grows_onLink (n : Network) (i : Nat) {f : Link → Link}
    (h : ∀ l : Link, l.Grows reading (f l)) :
    n.Grows reading (n.onLink i f) where
  links j l hl := by
    refine ⟨if i = j then f l else l, ?_, ?_⟩
    · simp only [onLink, List.getElem?_modify, hl]
      rfl
    · split
      · exact h l
      · exact .refl l
  fresh _ j l' none_ some_ := by
    rw [onLink, List.getElem?_modify, none_] at some_
    contradiction
  accepted := List.prefix_rfl

private theorem grows_transmit (n : Network) (i : Nat) (f : Wire.Frame) :
    n.Grows false (n.transmit i f).1 := by
  rw [transmit]
  split
  · exact .refl n
  · next l hl =>
    split
    · refine ⟨fun j k hk => ?_, fun _ j l' none_ some_ => ?_, List.prefix_append _ _⟩
      -- The link has taken a frame; all others are as they were.
      · by_cases hij : i = j
        · subst hij
          obtain rfl := Option.some.inj (hl.symm.trans hk)
          exact ⟨l.accept, by simp [(List.getElem?_eq_some_iff.1 hl).1], l.grows_accept⟩
        · exact ⟨k, by rw [List.getElem?_set_ne hij, hk], .refl k⟩
      · by_cases hij : i = j
        · rw [← hij, hl] at none_
          contradiction
        · rw [List.getElem?_set_ne hij, none_] at some_
          contradiction
    · exact .refl n

/-- Where no text is taken and no link is closed the record grows. -/
theorem conduct_grows : Conduct (Grows false) := ⟨grows_of_links_eq, Grows.trans, grows_transmit⟩

private theorem grows_conclude (n : Network) (i : Nat) (a : Attempt) (h : Handshake) :
    n.Grows false (n.conclude i a h) := by
  cases h with
  | accepted accepts =>
    -- The new link comes after those that there are, with nothing taken from it.
    refine ⟨fun j l hl => ⟨l, ?_, .refl l⟩, fun _ j l' none_ some_ => ?_, List.prefix_rfl⟩
    · simp only [conclude]
      rw [List.getElem?_append_left (List.getElem?_eq_some_iff.1 hl).1, hl]
    · simp only [conclude] at some_
      rw [List.getElem?_append_right (List.getElem?_eq_none_iff.1 none_)] at some_
      obtain rfl := List.mem_singleton.1 (List.mem_of_getElem? some_)
      rfl
  | refused => exact grows_of_links_eq rfl rfl

private theorem grows_settleLate (n : Network) (i : Nat) (h : Handshake) :
    n.Grows false (n.settleLate i h) := by
  rw [settleLate]
  split
  · split
    · exact .refl n
    · exact n.grows_conclude _ _ h
  · exact .refl n

/-- Its link is closed, and nothing else happens to it. -/
theorem grows_dropOutcome (n : Network) (o : Outcome) : n.Grows false (n.dropOutcome o) := by
  rw [dropOutcome]
  split
  · exact .refl n
  · exact n.grows_onLink _ Link.grows_close

theorem grows_foldl_dropOutcome (os : List Outcome) (n : Network) :
    n.Grows false (os.foldl dropOutcome n) := by
  induction os generalizing n with
  | nil => exact .refl n
  | cons o os ih => exact (n.grows_dropOutcome o).trans (ih _)

theorem grows_dropOutcomes (n : Network) : n.Grows false n.dropOutcomes :=
  (grows_foldl_dropOutcome n.outcomes n).trans (grows_of_links_eq rfl rfl)

end Network

/-- The client listens to its link. -/
def Happening.listens : Happening → Bool
  | .turn .listen => true
  | _ => false

/-! ## What the client does -/

namespace Client

open Network (Grows conduct_grows)

variable (c : Client)

/-- A client that leaves closes its link and takes nothing from it. -/
theorem grows_withdraw : c.toNetwork.Grows false c.withdraw := by
  have gaveUp (i : Nat) : c.toNetwork.Grows false (c.toNetwork.abort i) :=
    Network.grows_of_links_eq rfl rfl
  rw [withdraw]
  cases c.pending with
  | none =>
    cases c.link with
    | none => exact .refl _
    | some i => exact c.toNetwork.grows_onLink i Link.grows_close
  | some j =>
    cases c.link with
    | none => exact gaveUp j
    | some i => exact (gaveUp j).trans (Network.grows_onLink _ i Link.grows_close)

/-- What is left of the network when a session ends is what the next one begins with. -/
theorem grows_select_of_not_stays {room : Option RoomId} (h : c.stays room = false) :
    c.withdraw.Grows false (c.select room).toNetwork := by
  rw [select, h]
  cases room with
  | none => exact .refl _
  | some room => exact conduct_grows.begin { c.teardown with room := some room }

private theorem grows_select (room : Option RoomId) :
    c.toNetwork.Grows false (c.select room).toNetwork := by
  cases stays : c.stays room with
  | true =>
    rw [select, if_pos stays]
    exact .refl _
  | false => exact c.grows_withdraw.trans (c.grows_select_of_not_stays stays)

/-- To make sense of a text is no business of the network. -/
theorem toNetwork_handleText (s : String) : (c.handleText s).toNetwork = c.toNetwork := by
  rw [handleText]
  split <;> rfl

/-- Whatever happens to the client, the record only grows. -/
theorem grows_handle (e : Event) : c.toNetwork.Grows false (c.handle e).toNetwork := by
  cases e with
  | command command =>
    cases command with
    | select room => exact c.grows_select room
    | send p => exact conduct_grows.send c p
    | typing on => exact conduct_grows.sendTyping c on
    | shutdown => exact c.grows_withdraw.trans (Network.grows_dropOutcomes _)
  | outcome o =>
    by_cases current : o.epoch = c.epoch
    · exact conduct_grows.outcome c current
    · change Grows false _ (c.handleOutcome o).toNetwork
      rw [handleOutcome, if_neg current]
      exact c.toNetwork.grows_dropOutcome o
  | text s =>
    change Grows false _ (c.handleText s).toNetwork
    rw [toNetwork_handleText]
    exact .refl _
  | linkClosed => exact conduct_grows.linkClosed c
  | timer => exact conduct_grows.proceed { c with timer := none } _

private theorem grows_outcome : c.toNetwork.Grows false (c.outcome?.getD c).toNetwork := by
  rw [outcome?]
  cases c.outcomes with
  | nil => exact .refl _
  | cons o os =>
    have popped : c.toNetwork.Grows false { c.toNetwork with outcomes := os } :=
      Network.grows_of_links_eq rfl rfl
    exact popped.trans (grows_handle { c with outcomes := os } (.outcome o))

private theorem grows_settle (i : Nat) (h : Handshake) :
    c.toNetwork.Grows false (c.step (.settle i h)).toNetwork := by
  have settled := c.toNetwork.grows_settleLate i h
  change Grows false _ (if c.stopped then _ else _)
  split
  · exact settled.trans (Network.grows_dropOutcomes _)
  · exact settled

/-- A step in which no text is taken. -/
theorem grows_step_of_not_listen {h : Happening} (still : h.listens = false) :
    c.toNetwork.Grows false (c.step h).toNetwork := by
  cases h with
  | turn t =>
    cases running : c.stopped with
    | true =>
      rw [step_of_stopped running]
      exact .refl _
    | false =>
      rw [step_of_running running]
      cases t with
      | command command => exact c.grows_handle (.command command)
      | outcome => exact c.grows_outcome
      | listen => simp [Happening.listens] at still
      | timer => exact conduct_grows.timer c
  | settle i h => exact c.grows_settle i h
  | push i text =>
    refine c.toNetwork.grows_onLink i fun l => ?_
    split
    · next listening => exact l.grows_push text listening
    · exact .refl l
  | deafen i => exact c.toNetwork.grows_onLink i Link.grows_deafen
  | hangUp i => exact c.toNetwork.grows_onLink i Link.grows_hangUp
  | pass ms => exact .refl _
  | clock time => exact .refl _
  | disk d => exact .refl _

private theorem grows_listen : c.toNetwork.Grows true (c.listen?.getD c).toNetwork := by
  rw [listen?]
  split
  -- The one place where a text is taken.
  · next r _ =>
    have taken := c.toNetwork.grows_onLink r.link Link.grows_take
    have told := grows_handle { c with toNetwork := c.toNetwork.onLink r.link Link.take }
      (.text r.text)
    exact taken.trans told.weaken
  · split
    · split
      · exact (c.grows_handle .linkClosed).weaken
      · exact .refl _
    · exact .refl _

/-- In every step the network grows. -/
theorem grows_step (h : Happening) : c.toNetwork.Grows true (c.step h).toNetwork := by
  cases listens : h.listens with
  | false => exact (c.grows_step_of_not_listen listens).weaken
  | true =>
    cases running : c.stopped with
    | true =>
      unfold Happening.listens at listens
      split at listens
      · rw [step_of_stopped running]
        exact .refl _
      · contradiction
    | false =>
      unfold Happening.listens at listens
      split at listens
      · rw [step_of_running running]
        exact c.grows_listen
      · contradiction

/-- It grows along every run. -/
theorem grows_run (hs : List Happening) : c.toNetwork.Grows true (c.run hs).toNetwork := by
  induction hs generalizing c with
  | nil => exact .refl _
  | cons h hs ih => exact (c.grows_step h).trans (ih _)

end Client

end ChatClient
