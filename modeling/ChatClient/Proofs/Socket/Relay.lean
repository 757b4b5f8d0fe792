import ChatClient.Proofs.Socket.Reader
import ChatClient.Proofs.Socket.Writer

/-!
# What a bridge carries

However the workers and the client take turns, the bridge loses nothing, puts nothing in another
order and makes nothing up. The client is offered the texts that the socket says before its end, up
to the first that it does not take any more, and then its channel ends. The socket is given the
frames that the client was allowed to send, and a close after the last of them, once the client has
given up the link. This goes on until the socket fails, and from then on the client cannot send any
more.

None of this waits for ever. Two turns of a worker for each thing that it has to carry are enough,
and it does not matter what is done between them.

## Main definitions

* `Bridge.Hears`: what the client has of the texts that arrive
* `Bridge.Speaks`: what the socket has of the frames of the client

## Main results

* `run_relays`: both hold along every run
-/

namespace ChatClient.Bridge

variable {arrived : List SocketEvent} {t : List Notice} {b : Bridge}

/-- What the client has of the texts that arrive, after what was noted. -/
structure Hears (arrived : List SocketEvent) (t : List Notice) (b : Bridge) : Prop where
  /-- Texts are offered in their order, and one that is refused comes next. -/
  ordered : t.filterMap Notice.offered? ++ t.filterMap Notice.refused? <+: spoken arrived
  taken : t.filterMap Notice.taken? <+: t.filterMap Notice.offered?
  /-- One text at most is refused, by a client that has let go of the link, and the channel ends
  with it. -/
  refused : t.filterMap Notice.refused? ≠ [] →
    (∃ s, t.filterMap Notice.refused? = [s]) ∧ b.link ≠ .held ∧ b.inbound.fed = false
  /-- Without that the channel ends with the socket, and everything has been offered then. -/
  ended : b.inbound.fed = false → t.filterMap Notice.refused? = [] →
    t.filterMap Notice.offered? = spoken arrived ∧ ∃ e ∈ arrived, e.ends = true
  silent : b.inbound.fed = false ∨ b.link ≠ .held →
    ∀ ds, (b.trace ds).filterMap Notice.offered? = []
  /-- The client finds the texts one after the other, and the end of the channel after all of
  them. -/
  found : b.link = .held → (b.act .recv).2 =
    match (t.filterMap Notice.offered?)[(t.filterMap Notice.taken?).length]? with
    | some s => some (.taken s)
    | none => if b.inbound.fed then none else some .ended
  /-- With two turns of the reader for each thing that arrives, all is offered unless a text is
  refused, and the end of the socket is found. -/
  complete : ∀ ds, 2 * arrived.length ≤ ds.count .read →
    (t ++ b.trace ds).filterMap Notice.refused? = [] →
    (t ++ b.trace ds).filterMap Notice.offered? = spoken arrived ∧
      ((∃ e ∈ arrived, e.ends = true) → (b.run ds).inbound.fed = false)

/-- What the socket has of the frames of the client, after what was noted. -/
structure Speaks (t : List Notice) (b : Bridge) : Prop where
  /-- Frames are written in the order in which they were accepted, with a close at the end, and one
  that fails comes next. -/
  ordered : t.filterMap Notice.written? ++ t.filterMap Notice.failed? <+:
    (t.filterMap Notice.accepted?).map .text ++ [.close]
  failure : t.filterMap Notice.failed? = [] ∨ ∃ w, t.filterMap Notice.failed? = [w]
  closed : .close ∈ t.filterMap Notice.written? ∨
    .close ∈ t.filterMap Notice.failed? → b.link = .dropped
  /-- The client can send until something has failed. -/
  answer : b.link = .held → ∀ s,
    (b.act (.send s)).2 =
      some (if t.filterMap Notice.failed? = [] then .accepted s else .rejected s)
  silent : t.filterMap Notice.failed? ≠ [] → ∀ ds,
    (b.trace ds).filterMap Notice.written? = [] ∧ (b.trace ds).filterMap Notice.accepted? = []
  /-- With two turns of the writer for each frame, all that were accepted are written, even if the
  client gives up the link next. -/
  complete : ∀ ds, 2 * (t.filterMap Notice.accepted?).length ≤ ds.countP Deed.isWrite →
    (t ++ b.trace ds).filterMap Notice.failed? = [] →
    (t.filterMap Notice.accepted?).map .text <+: (t ++ b.trace ds).filterMap Notice.written?
  /-- When it has given up the link, two turns more are enough for the close. -/
  closing : b.link = .dropped → ∀ ds,
    2 * ((t.filterMap Notice.accepted?).length + 1) ≤ ds.countP Deed.isWrite →
    (t ++ b.trace ds).filterMap Notice.failed? = [] →
    (t ++ b.trace ds).filterMap Notice.written? =
      (t.filterMap Notice.accepted?).map .text ++ [.close]

/-! ## What the client hears -/

private theorem Reads.done_of_ended (h : Reads arrived t b) (ended : b.inbound.fed = false) :
    b.reader = .done := by
  have fed := h.fed
  rw [ended] at fed
  simpa using fed

private theorem Reads.ended_of_done (h : Reads arrived t b) (done : b.reader = .done) :
    b.inbound.fed = false := by
  simpa [done] using h.fed

private theorem Reads.offered_eq (h : Reads arrived t b)
    (refused : t.filterMap Notice.refused? = []) (left : b.unspoken = []) :
    t.filterMap Notice.offered? = spoken arrived := by
  obtain ⟨rest, plan, same⟩ := h.plan
  rw [plan, refused, same refused, left, List.append_nil, List.append_nil]

/-- What holds of the reader is all that is promised to the client. `near` says that the reader was
not given more to read than what arrives. -/
theorem Reads.hears (h : Reads arrived t b) (near : b.toRead ≤ 2 * arrived.length) :
    Hears arrived t b where
  ordered := by
    obtain ⟨rest, plan, -⟩ := h.plan
    exact ⟨rest, plan.symm⟩
  taken := ⟨_, h.queue.symm⟩
  refused some_refused := by
    obtain ⟨once, done, free⟩ := h.refusal.resolve_left some_refused
    exact ⟨once, free, h.ended_of_done done⟩
  ended ended refused := by
    have done := h.done_of_ended ended
    exact ⟨h.offered_eq refused (by rw [unspoken, done]), h.behind done refused⟩
  silent gone := h.silent (gone.imp_left h.done_of_ended)
  found := h.recv_eq
  complete ds turns refused := by
    have later := h.run ds
    have through : (b.run ds).toRead = 0 := by
      have left := toRead_run b ds
      omega
    -- The reader has ended its work, or else it has come to the end of what arrives and waits for
    -- more.
    obtain done | ⟨listening, empty⟩ := toRead_eq_zero through
    · exact ⟨later.offered_eq refused (by rw [unspoken, done]), fun _ => later.ended_of_done done⟩
    · refine ⟨later.offered_eq refused (by rw [unspoken, listening, empty]; rfl), fun ends => ?_⟩
      simpa [empty] using later.ahead (by simp [listening]) ends

/-! ## What the client says -/

/-- What holds of the writer is all that is promised of the socket. -/
theorem Writes.speaks (h : Writes t b) : Speaks t b where
  ordered := by
    obtain ⟨rest, plan, -⟩ := h.plan
    exact ⟨rest, plan.symm⟩
  failure := h.failure.imp_right (·.1)
  closed := h.dropped_of_close
  answer := h.send_eq
  silent := h.silent
  complete ds turns fine := by
    have far := h.due_le_run (.inl (Nat.le_refl _)) ds fine turns
    have accepted : (t.filterMap Notice.accepted?).map .text <+:
        ((t ++ b.trace ds).filterMap Notice.accepted?).map SocketWrite.text ++ [.close] := by
      simp [List.filterMap_append, List.append_assoc]
    exact List.prefix_of_prefix_length_le accepted ((h.run ds).in_order) (by simpa using far)
  closing dropped ds turns fine := by
    have far := h.due_le_run (.inr ⟨dropped, Nat.le_refl _⟩) ds fine turns
    -- No frame is accepted meanwhile, so the close comes right after those that were.
    have accepted :
        (t ++ b.trace ds).filterMap Notice.accepted? = t.filterMap Notice.accepted? := by
      rw [List.filterMap_append, accepted_of_dropped dropped, List.append_nil]
    have written := (h.run ds).in_order
    rw [accepted] at written
    exact written.eq_of_length_le (by simpa using far)

/-- Whatever arrives on the socket, and however the workers and the client take turns, the client
hears it and the socket is told what the client says. -/
theorem run_relays (arrived : List SocketEvent) (ds : List Deed) :
    Hears arrived ((start arrived).trace ds) ((start arrived).run ds) ∧
      Speaks ((start arrived).trace ds) ((start arrived).run ds) := by
  have reads := (reads_start arrived).run ds
  have writes := (writes_start arrived).run ds
  have near := toRead_run (start arrived) ds
  exact ⟨reads.hears (by simp [start, toRead] at near ⊢; omega), writes.speaks⟩

end ChatClient.Bridge

namespace ChatClient

/-! ### A detour

The client sends two frames and gives up the link before either is written. One text has come to it
by then, and the next finds nobody to take it. -/

namespace Detour

def murmurs : List SocketEvent := [.text "who", .ping [7], .text "is there", .close]

def interrupted : List Bridge.Deed := [
  .read, .send "knock", .read, .write true, .recv, .read, .send "hello", .read, .drop, .read]

def errand : List Bridge.Deed := List.replicate 6 (.write true)

end Detour

theorem run_relays_detour :
    let t := (Bridge.start Detour.murmurs).trace Detour.interrupted
    let b := (Bridge.start Detour.murmurs).run Detour.interrupted
    t.filterMap Bridge.Notice.offered? = ["who"] ∧
      t.filterMap Bridge.Notice.refused? = ["is there"] ∧
      b.inbound.fed = false ∧
      t.filterMap Bridge.Notice.written? = [] ∧
      (t ++ b.trace Detour.errand).filterMap Bridge.Notice.written? =
        [.text "knock", .text "hello", .close] := by
  obtain ⟨hears, speaks⟩ := Bridge.run_relays Detour.murmurs Detour.interrupted
  have refused : ((Bridge.start Detour.murmurs).trace Detour.interrupted).filterMap
      Bridge.Notice.refused? = ["is there"] := rfl
  obtain ⟨-, -, ended⟩ := hears.refused (by simp [refused])
  have written := speaks.closing rfl Detour.errand (by decide) rfl
  exact ⟨rfl, refused, ended, rfl, written⟩

end ChatClient
