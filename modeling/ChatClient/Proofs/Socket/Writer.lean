import ChatClient.Proofs.Socket.Workers

/-!
# From the client to the socket

What the writer has written and what it still has to write are together all that the client was
allowed to send, and a close after it. So the frames are written in the order in which they were
accepted, and the socket is closed after the last of them, which the writer can only know when the
client has given up the link. Where the socket does not take a frame, nothing comes after it, and
from then on the client is told that there is nobody to write its frames.

A frame that was accepted is written whatever the client does next. It takes the writer two turns,
one to pick it up and one to write it.

## Main definitions

* `Bridge.unwritten`: what the writer still has to write
* `Bridge.Writes`: what holds of the writer and its channel
* `Bridge.progress`: how far the writer has come

## Main results

* `Writes.run`: it holds along every run
* `Writes.send_eq`: what becomes of a frame
* `Writes.due_le_run`: how many turns the writer needs
-/

namespace ChatClient.Bridge

variable {t : List Notice} {b b' : Bridge} {d : Deed} {n : Option Notice}

/-! ## The writer and its channel -/

/-- What the writer still has to write. -/
def unwritten (b : Bridge) : List SocketWrite :=
  match b.writer with
  | .waiting => b.outbound.items.map .text ++ [.close]
  | .writing s => .text s :: (b.outbound.items.map .text ++ [.close])
  | .closing => [.close]
  | .done => []

/-- What holds of the writer and its channel, and of what was noted. -/
structure Writes (t : List Notice) (b : Bridge) : Prop where
  /-- What was written, what failed and what is left are the frames that were accepted, and a
  close. -/
  plan : ∃ rest, (t.filterMap Notice.accepted?).map .text ++ [.close] =
      t.filterMap Notice.written? ++ t.filterMap Notice.failed? ++ rest ∧
    (t.filterMap Notice.failed? = [] → rest = b.unwritten)
  failure : t.filterMap Notice.failed? = [] ∨
    (∃ w, t.filterMap Notice.failed? = [w]) ∧ b.writer = .done
  /-- The writer ends its work after a frame that failed, or when the client has given up the
  link. -/
  ending : b.writer = .closing ∨ b.writer = .done →
    (∃ s, t.filterMap Notice.failed? = [.text s]) ∨ b.link = .dropped
  fed : b.outbound.fed = true ↔ b.link ≠ .dropped
  tapped : b.outbound.tapped = true ↔ b.writer ≠ .done

/-- Nothing was accepted yet, and the close is all that is still to be written. -/
theorem writes_start (arrived : List SocketEvent) : Writes [] (start arrived) where
  plan := ⟨_, rfl, fun _ => rfl⟩
  failure := .inl rfl
  ending ends := by simp [start] at ends
  fed := by simp [start]
  tapped := by simp [start]

/-- Nothing changes for the writer where neither it nor the client with its frames has a part. -/
theorem Writes.frame (h : Writes t b) (writer : b'.writer = b.writer)
    (outbound : b'.outbound = b.outbound) (link : b'.link = .dropped ↔ b.link = .dropped)
    (accepted : n.bind Notice.accepted? = none) (written : n.bind Notice.written? = none)
    (failed : n.bind Notice.failed? = none) :
    Writes (t ++ n.toList) b' := by
  have unwritten : b'.unwritten = b.unwritten := by
    rw [Bridge.unwritten, Bridge.unwritten, writer, outbound]
  obtain ⟨h₁, h₂, h₃, h₄, h₅⟩ := h
  constructor <;> simp only [filterMap_concat, accepted, written, failed,
    Option.toList_none, List.append_nil, writer, outbound, link, unwritten, ne_eq] <;> assumption

/-- As long as the writer works, nothing has failed, and it has written all but what is left. -/
theorem Writes.of_working (h : Writes t b) (working : b.writer ≠ .done) :
    t.filterMap Notice.failed? = [] ∧ (t.filterMap Notice.accepted?).map .text ++ [.close] =
      t.filterMap Notice.written? ++ b.unwritten := by
  have failed : t.filterMap Notice.failed? = [] :=
    h.failure.resolve_right fun stopped => working stopped.2
  obtain ⟨rest, plan, left⟩ := h.plan
  rw [failed, List.append_nil, left failed] at plan
  exact ⟨failed, plan⟩

/-- The writer does not come to an end as long as the client has the link and nothing has failed. -/
theorem Writes.of_held (h : Writes t b) (held : b.link = .held)
    (failed : t.filterMap Notice.failed? = []) :
    b.writer ≠ .closing ∧ b.writer ≠ .done := by
  refine not_or.1 fun ends => ?_
  obtain ⟨s, once⟩ | dropped := h.ending ends
  · simp [failed] at once
  · simp [held] at dropped

/-! ### One deed after another -/

/-- The writer takes a frame of the client out of the channel. It is still to be written. -/
theorem Writes.pick (h : Writes t b) {s : String} {items : List String}
    (waiting : b.writer = .waiting) (next : b.outbound.items = s :: items) :
    Writes t { b with writer := .writing s, outbound := { b.outbound with items } } := by
  obtain ⟨failed, plan⟩ := h.of_working (by simp [waiting])
  have left : b.unwritten = .text s :: (items.map .text ++ [.close]) := by
    simp [unwritten, waiting, next]
  exact {
    plan := ⟨_, by rw [failed, List.append_nil, plan, left]; rfl, fun _ => rfl⟩
    failure := .inl failed
    ending := by simp
    fed := h.fed
    tapped := by simp [h.tapped.2 (by simp [waiting])] }

/-- The writer finds the channel empty and given up, so that only the close is left. -/
theorem Writes.finish (h : Writes t b) (waiting : b.writer = .waiting)
    (empty : b.outbound.items = []) (dead : b.outbound.live = false) :
    Writes t { b with writer := .closing } := by
  obtain ⟨failed, plan⟩ := h.of_working (by simp [waiting])
  have left : b.unwritten = [.close] := by simp [unwritten, waiting, empty]
  have tapped : b.outbound.tapped = true := h.tapped.2 (by simp [waiting])
  have dropped : b.link = .dropped := by
    have fed : ¬ b.outbound.fed = true := by simpa [Channel.live, tapped] using dead
    exact not_not.1 fun dropped => fed (h.fed.2 dropped)
  exact {
    plan := ⟨_, by rw [failed, List.append_nil, plan, left]; rfl, fun _ => rfl⟩
    failure := .inl failed
    ending := fun _ => .inr dropped
    fed := h.fed
    tapped := by simp [tapped] }

/-- The frame that the writer holds goes to the socket. -/
theorem Writes.written (h : Writes t b) {s : String} (writing : b.writer = .writing s) :
    Writes (t ++ [Notice.written (.text s)]) { b with writer := .waiting } := by
  obtain ⟨failed, plan⟩ := h.of_working (by simp [writing])
  have left : b.unwritten = .text s :: (b.outbound.items.map .text ++ [.close]) := by
    simp [unwritten, writing]
  have failed' : (t ++ [Notice.written (.text s)]).filterMap Notice.failed? = [] := by
    simpa [Notice.failed?] using failed
  exact {
    plan := by
      refine ⟨b.outbound.items.map .text ++ [.close], ?_, fun _ => rfl⟩
      rw [failed']
      simp [plan, left, List.filterMap_cons, Notice.accepted?, Notice.written?]
    failure := .inl failed'
    ending := by simp
    fed := h.fed
    tapped := by simp [h.tapped.2 (by simp [writing])] }

/-- The socket does not take the frame. The writer ends its work and leaves the channel. -/
theorem Writes.failed (h : Writes t b) {s : String} (writing : b.writer = .writing s) :
    Writes (t ++ [Notice.failed (.text s)]) b.endWriting := by
  obtain ⟨failed, plan⟩ := h.of_working (by simp [writing])
  have left : b.unwritten = .text s :: (b.outbound.items.map .text ++ [.close]) := by
    simp [unwritten, writing]
  have failed' : (t ++ [Notice.failed (.text s)]).filterMap Notice.failed? = [.text s] := by
    simp [failed, Notice.failed?]
  exact {
    plan := by
      refine ⟨b.outbound.items.map .text ++ [.close], ?_, by simp [failed']⟩
      rw [failed']
      simp [plan, left, List.filterMap_cons, Notice.accepted?, Notice.written?]
    failure := .inr ⟨⟨_, failed'⟩, rfl⟩
    ending := fun _ => .inl ⟨s, failed'⟩
    fed := h.fed
    tapped := by simp [endWriting, Channel.endTap] }

/-- The last turn of the writer, be the socket closed by it or not. -/
theorem Writes.finished (h : Writes t b) (closing : b.writer = .closing) (ok : Bool) :
    Writes (t ++ [if ok then Notice.written .close else Notice.failed .close]) b.endWriting := by
  obtain ⟨failed, plan⟩ := h.of_working (by simp [closing])
  have left : b.unwritten = [.close] := by simp [unwritten, closing]
  have dropped : b.link = .dropped :=
    (h.ending (.inl closing)).resolve_left fun ⟨s, once⟩ => by simp [failed] at once
  rw [left] at plan
  exact {
    plan := by
      refine ⟨[], ?_, fun _ => rfl⟩
      cases ok <;>
        simp [plan, failed, List.filterMap_cons, Notice.accepted?, Notice.written?, Notice.failed?]
    failure := by cases ok <;> simp [failed, Notice.failed?, endWriting]
    ending := fun _ => .inr dropped
    fed := h.fed
    tapped := by simp [endWriting, Channel.endTap] }

/-- A frame of the client comes after all that the writer still has to write, except for the
close. -/
theorem Writes.accept (h : Writes t b) {s : String} (held : b.link = .held)
    (tapped : b.outbound.tapped = true) :
    Writes (t ++ [Notice.accepted s])
      { b with outbound := { b.outbound with items := b.outbound.items ++ [s] } } := by
  have working : b.writer ≠ .done := h.tapped.1 tapped
  obtain ⟨failed, plan⟩ := h.of_working working
  have early : b.writer ≠ .closing := (h.of_held held failed).1
  have failed' : (t ++ [Notice.accepted s]).filterMap Notice.failed? = [] := by
    simpa [Notice.failed?] using failed
  -- The new frame comes before the close, which is still to be written.
  obtain ⟨frames, before, after⟩ : ∃ frames, b.unwritten = frames ++ [.close] ∧
      { b with outbound := { b.outbound with items := b.outbound.items ++ [s] } }.unwritten =
        frames ++ [.text s] ++ [.close] := by
    cases writer : b.writer with
    | waiting => exact ⟨b.outbound.items.map .text, by rw [unwritten, writer], by simp [unwritten]⟩
    | writing s' =>
      exact ⟨.text s' :: b.outbound.items.map .text,
        by simp [unwritten, writer], by simp [unwritten]⟩
    | closing => exact absurd writer early
    | done => exact absurd writer working
  rw [before, ← List.append_assoc] at plan
  have frames_eq := List.append_cancel_right plan
  exact {
    plan := by
      refine ⟨_, ?_, fun _ => rfl⟩
      rw [failed', after]
      simp [frames_eq, Notice.accepted?, Notice.written?]
    failure := .inl failed'
    ending := fun ends => absurd ends (by simp [early, working])
    fed := h.fed
    tapped := h.tapped }

/-- Nothing is written or lost when the client gives up the link. -/
theorem Writes.drop (h : Writes t b) : Writes t b.drop where
  plan := h.plan
  failure := h.failure
  ending _ := .inr rfl
  fed := by simp [Bridge.drop, Channel.endFeed]
  tapped := h.tapped

/-- Every deed keeps what holds of the writer. -/
theorem Writes.step (h : Writes t b) (does : b.Does d n b') : Writes (t ++ n.toList) b' := by
  cases does with
  | pick ok s items waiting next => simpa using h.pick waiting next
  | finish ok waiting empty dead => simpa using h.finish waiting empty dead
  | written s writing => exact h.written writing
  | failed s writing => exact h.failed writing
  | closed closing => exact h.finished closing true
  | unclosed closing => exact h.finished closing false
  | accept s held tapped => exact h.accept held tapped
  | drop => simpa using h.drop
  | close held => exact h.frame rfl rfl (by simp [held]) rfl rfl rfl
  | hear e => cases e <;> exact h.frame rfl rfl .rfl rfl rfl rfl
  -- The texts that arrive and the client that takes them have no part in it.
  | _ => exact h.frame rfl rfl .rfl rfl rfl rfl

/-- So does every run. -/
theorem Writes.run (h : Writes t b) (ds : List Deed) : Writes (t ++ b.trace ds) (b.run ds) :=
  run_keeps h (fun _ _ _ _ _ kept does => kept.step does) ds

/-! ## What follows -/

/-- What becomes of a frame: it is accepted unless a frame before it has failed. -/
theorem Writes.send_eq (h : Writes t b) (held : b.link = .held) (s : String) :
    (b.act (.send s)).2 =
      some (if t.filterMap Notice.failed? = [] then .accepted s else .rejected s) := by
  rw [act, send, if_pos held]
  by_cases failed : t.filterMap Notice.failed? = []
  · rw [Channel.put?_of_tapped (h.tapped.2 (h.of_held held failed).2), if_pos failed]
  · have closed : b.outbound.tapped = false := by
      simpa [(h.failure.resolve_left failed).2] using h.tapped
    rw [Channel.put?_of_closed closed, if_neg failed]

/-- What was written is the beginning of what was accepted, with a close at its end. -/
theorem Writes.in_order (h : Writes t b) :
    t.filterMap Notice.written? <+: (t.filterMap Notice.accepted?).map .text ++ [.close] := by
  obtain ⟨rest, plan, -⟩ := h.plan
  exact ⟨_, by rw [plan, List.append_assoc]⟩

/-- A close is written last, after every frame that was accepted. -/
theorem Writes.eq_of_close_mem (h : Writes t b) (closed : .close ∈ t.filterMap Notice.written?) :
    t.filterMap Notice.written? = (t.filterMap Notice.accepted?).map .text ++ [.close] := by
  refine (List.prefix_concat_iff.1 h.in_order).resolve_right fun early => ?_
  simpa using early.subset closed

/-- A close is written, or fails to be, only when the client has given up the link. -/
theorem Writes.dropped_of_close (h : Writes t b)
    (closed : .close ∈ t.filterMap Notice.written? ∨ .close ∈ t.filterMap Notice.failed?) :
    b.link = .dropped := by
  rcases closed with written | failed
  -- Nothing is left after a close that is written, and so the writer has ended its work.
  · obtain ⟨rest, plan, left⟩ := h.plan
    have all := h.eq_of_close_mem written
    rw [← all, List.append_assoc, List.self_eq_append_right, List.append_eq_nil_iff] at plan
    have done : b.writer = .done := by
      have none_left : b.unwritten = [] := (left plan.1).symm.trans plan.2
      cases writer : b.writer <;> simp [unwritten, writer] at none_left ⊢
    refine (h.ending (.inr done)).resolve_left fun ⟨s, once⟩ => ?_
    simp [plan.1] at once
  -- Of what fails there is only one, and here it is no frame.
  · have done := (h.failure.resolve_left (List.ne_nil_of_mem failed)).2
    refine (h.ending (.inr done)).resolve_left fun ⟨s, once⟩ => ?_
    simp [once] at failed

/-- After a failure nothing is written or accepted any more. -/
theorem Writes.silent (h : Writes t b) (failed : t.filterMap Notice.failed? ≠ []) (ds : List Deed) :
    (b.trace ds).filterMap Notice.written? = [] ∧ (b.trace ds).filterMap Notice.accepted? = [] := by
  have done := (h.failure.resolve_left failed).2
  have closed : b.outbound.tapped = false := by simpa [done] using h.tapped
  -- That the writer is done and its channel closed lasts, whatever happens.
  have quiet : ∀ x ∈ b.trace ds, x.written? = none ∧ x.accepted? = none := by
    refine forall_mem_trace (P := fun b => b.writer = .done ∧ b.outbound.tapped = false)
      ⟨done, closed⟩ (fun b d n b' ⟨done, closed⟩ does => ?_) ds
    cases does with
    | pick _ _ _ waiting => simp [done] at waiting
    | finish _ waiting => simp [done] at waiting
    | written _ writing => simp [done] at writing
    | failed _ writing => simp [done] at writing
    | closed closing => simp [done] at closing
    | unclosed closing => simp [done] at closing
    | accept _ _ tapped => simp [closed] at tapped
    | hear e => cases e <;> exact ⟨⟨done, closed⟩, by simp⟩
    | drop => exact ⟨⟨done, closed⟩, by simp⟩
    | _ => exact ⟨⟨done, closed⟩, by simp [Notice.written?, Notice.accepted?]⟩
  simp only [List.filterMap_eq_nil_iff]
  exact ⟨fun x mem => (quiet x mem).1, fun x mem => (quiet x mem).2⟩

private theorem dropped_step (dropped : b.link = .dropped) (does : b.Does d n b') :
    b'.link = .dropped ∧ n.bind Notice.accepted? = none := by
  cases does with
  | accept s held => simp [dropped] at held
  | close held => simp [dropped] at held
  | hear e => cases e <;> exact ⟨dropped, rfl⟩
  | drop => exact ⟨rfl, rfl⟩
  | _ => exact ⟨dropped, rfl⟩

/-- When the client has given up the link, nothing is accepted any more. -/
theorem accepted_of_dropped (dropped : b.link = .dropped) (ds : List Deed) :
    (b.trace ds).filterMap Notice.accepted? = [] := by
  rw [List.filterMap_eq_nil_iff]
  refine forall_mem_trace (P := fun b => b.link = .dropped) dropped
    (fun b d n b' dropped does => ?_) ds
  obtain ⟨stays, none_⟩ := dropped_step dropped does
  exact ⟨stays, by simpa using none_⟩

/-! ## How long it takes -/

def Deed.isWrite : Deed → Bool
  | .write _ => true
  | _ => false

/-- One turn is behind a writer that knows what it writes next. -/
def Writer.phase : Writer → Nat
  | .writing _ | .closing => 1
  | .waiting | .done => 0

private theorem Writer.phase_le_one (w : Writer) : w.phase ≤ 1 := by
  cases w <;> simp [phase]

/-- How many turns the writer has made use of. -/
def progress (t : List Notice) (b : Bridge) : Nat :=
  2 * (t.filterMap Notice.written?).length + b.writer.phase

/-- So much is going to be written unless the socket fails, whatever else happens. -/
def Due (m : Nat) (t : List Notice) (b : Bridge) : Prop :=
  m ≤ (t.filterMap Notice.accepted?).length ∨
    b.link = .dropped ∧ m ≤ (t.filterMap Notice.accepted?).length + 1

variable {m : Nat}

/-- What is due stays due, since what was accepted is never taken back. -/
theorem Due.step (due : Due m t b) (does : b.Does d n b') : Due m (t ++ n.toList) b' := by
  have grown : (t.filterMap Notice.accepted?).length ≤
    ((t ++ n.toList).filterMap Notice.accepted?).length := by
    simp
  refine due.imp (fun due => Nat.le_trans due grown) fun ⟨dropped, due⟩ => ?_
  exact ⟨(dropped_step dropped does).1, by omega⟩

/-- A turn that comes to nothing finds all written that is due. -/
theorem Writes.due_le_of_rests (h : Writes t b) (due : Due m t b)
    (fine : t.filterMap Notice.failed? = []) {ok : Bool} (rests : b.Rests (.write ok)) :
    m ≤ (t.filterMap Notice.written?).length := by
  obtain ⟨rest, plan, left⟩ := h.plan
  rw [fine, List.append_nil, left fine] at plan
  have plan := congrArg List.length plan
  simp only [List.length_append, List.length_map, List.length_singleton] at plan
  obtain done | ⟨waiting, empty, live⟩ := rests
  · have none_left : b.unwritten.length = 0 := by rw [unwritten, done]; rfl
    have most : m ≤ (t.filterMap Notice.accepted?).length + 1 :=
      due.elim (fun due => by omega) (·.2)
    omega
  · have one_left : b.unwritten.length = 1 := by simp [unwritten, waiting, empty]
    have kept : b.link ≠ .dropped := h.fed.1 (by simp [Channel.live] at live; exact live.1)
    have most : m ≤ (t.filterMap Notice.accepted?).length := due.resolve_right fun due => kept due.1
    omega

private theorem progress_frame (writer : b'.writer = b.writer)
    (written : n.bind Notice.written? = none) :
    progress t b ≤ progress (t ++ n.toList) b' := by
  rw [progress, progress, filterMap_concat, written, writer]
  simp

/-- The writer makes use of every turn, until all that is due is written. -/
theorem Writes.progress_step (h : Writes t b) (due : Due m t b) (does : b.Does d n b')
    (fine : (t ++ n.toList).filterMap Notice.failed? = []) :
    2 * m ≤ progress (t ++ n.toList) b' ∨
      progress t b + [d].countP Deed.isWrite ≤ progress (t ++ n.toList) b' := by
  cases does with
  | rest d rests =>
    cases d with
    | write ok =>
      have enough := h.due_le_of_rests due (by simpa using fine) rests
      exact .inl (by rw [progress, Option.toList_none, List.append_nil]; omega)
    | _ => exact .inr (progress_frame rfl rfl)
  | pick _ _ _ waiting => simp [progress, waiting, Writer.phase, Deed.isWrite]
  | finish _ waiting => simp [progress, waiting, Writer.phase, Deed.isWrite]
  | written _ writing =>
    simp [progress, writing, Writer.phase, Deed.isWrite, Notice.written?]
    omega
  | closed closing =>
    simp [progress, closing, Writer.phase, endWriting, Deed.isWrite, Notice.written?]
    omega
  -- A failure was noted, which is excluded here.
  | failed => simp [Notice.failed?] at fine
  | unclosed => simp [Notice.failed?] at fine
  | hear e => cases e <;> exact .inr (progress_frame rfl rfl)
  | _ => exact .inr (progress_frame rfl rfl)

private theorem Writes.progress_run (h : Writes t b) (due : Due m t b) (ds : List Deed)
    (fine : (t ++ b.trace ds).filterMap Notice.failed? = []) :
    2 * m ≤ progress (t ++ b.trace ds) (b.run ds) ∨
      progress t b + ds.countP Deed.isWrite ≤ progress (t ++ b.trace ds) (b.run ds) := by
  -- Once all that is due is written, this stays so, since what is written is never taken back.
  induction ds generalizing t b with
  | nil => exact .inr (by simp)
  | cons d ds ih =>
    rw [trace_cons, ← List.append_assoc] at fine ⊢
    have fine' : (t ++ (b.act d).2.toList).filterMap Notice.failed? = [] := by
      rw [List.filterMap_append, List.append_eq_nil_iff] at fine
      exact fine.1
    have does := b.act_does d
    have first := h.progress_step due does fine'
    have rest := ih (h.step does) (due.step does) fine
    rw [run_cons, ← List.singleton_append, List.countP_append]
    omega

/-- With two turns for each thing that is due, the writer has written it. -/
theorem Writes.due_le_run (h : Writes t b) (due : Due m t b) (ds : List Deed)
    (fine : (t ++ b.trace ds).filterMap Notice.failed? = [])
    (turns : 2 * m ≤ ds.countP Deed.isWrite) :
    m ≤ ((t ++ b.trace ds).filterMap Notice.written?).length := by
  have far := h.progress_run due ds fine
  have phase := (b.run ds).writer.phase_le_one
  rw [progress] at far
  omega

end ChatClient.Bridge
