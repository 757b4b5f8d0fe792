import ChatClient.Proofs.Chat.Announcements
import ChatClient.Proofs.Chat.Log

/-!
# Announcements of nothing

Edits and deletions are announced if there is a message with their identifier. It is not asked
whether the message is another one afterwards, and it need not be: it may have been deleted already,
or edited with the same words at the same time. Then something is announced although nothing has
changed.

Nothing else is announced in vain. A message that comes makes the log longer, and who is typing is
only announced if it has changed. So it can be said exactly which announcements are in vain: by what
the messages are, and also by what has happened to them since they came.

## Main definitions

* `Message.Bears`: the message is already as the amendment would make it
* `Amendment.Made`: so are all messages with the identifier, and there are some
* `Amendment.Concludes`: a message becomes so by a row of amendments
* `Chat.heard`: what is known if news is all there was

## Main results

* `Chat.Learns.in_vain_iff`: when nothing changes and yet something is announced
* `Amendment.made_iff_repeats`: when an amendment has been made already
* `Chat.apply_changes_iff`: both of a chat that has only heard news
-/

namespace ChatClient

/-! ## Amendments that change nothing -/

/-- The message is already as the amendment would make it. -/
def Message.Bears (m : Message) : Amendment → Prop
  | .edit body now => m.body = body ∧ m.edited = true ∧ m.updatedAt = some now
  | .delete => m.body = deletedBody ∧ m.deleted = true

private theorem Message.amend_eq_self_iff {m : Message} {a : Amendment} :
    m.amend a = m ↔ m.Bears a := by
  cases m
  cases a with
  | edit body now => simp [amend, edit, Bears, eq_comm, and_comm]
  | delete => simp [amend, delete, Bears, eq_comm]

/-- There are messages with the identifier, and the amendment would change none of them. -/
def Amendment.Made (a : Amendment) (id : MessageId) (log : List Message) : Prop :=
  (∃ m ∈ log, m.id = id) ∧ ∀ m ∈ log, m.id = id → m.Bears a

private theorem LogChange.amendment_applyTo_eq_self_iff {log : List Message} {id : MessageId}
    {a : Amendment} :
    (amendment id a).applyTo log = log ↔ ∀ m ∈ log, m.id = id → m.Bears a := by
  calc (amendment id a).applyTo log = log
      ↔ log.map (fun m => if m.id = id then m.amend a else m) = log.map fun m => m := by
        rw [List.map_id', applyTo]
    _ ↔ ∀ m ∈ log, (if m.id = id then m.amend a else m) = m := List.map_inj_left
    _ ↔ ∀ m ∈ log, m.id = id → m.Bears a :=
        forall₂_congr fun m _ => by rw [ite_eq_right_iff, Message.amend_eq_self_iff]

namespace Chat

variable {chat after : Chat} {localUser : UserId} {n : News} {told : List ChatUpdate}

/-- Something is announced although nothing has changed, exactly if the news is an amendment that
has been made already. -/
theorem Learns.in_vain_iff (h : chat.Learns localUser n after told) :
    told ≠ [] ∧ after.log n.room = chat.log n.room ∧ after.typing n.room = chat.typing n.room ↔
      ∃ id a, n.change? = some (.amendment id a) ∧ a.Made id (chat.log n.room) := by
  cases does : n.change? with
  | none =>
    -- Nothing but who is typing can be announced.
    refine iff_of_false ?_ (by simp)
    rintro ⟨announced, -, still⟩
    rw [h.told_eq, does] at announced
    exact announced (if_pos still)
  | some change =>
    rw [h.log_of_change does]
    cases change with
    | arrival m =>
      refine iff_of_false ?_ (by simp)
      rintro ⟨-, same, -⟩
      simp [LogChange.applyTo] at same
    | amendment id a =>
      have announced : told ≠ [] ↔ ∃ m ∈ chat.log n.room, m.id = id := by
        simp [h.told_of_amendment does, LogChange.announcements]
      rw [announced, LogChange.amendment_applyTo_eq_self_iff]
      constructor
      · rintro ⟨there, borne, -⟩
        exact ⟨id, a, rfl, there, borne⟩
      · rintro ⟨_, _, ⟨⟩, there, borne⟩
        exact ⟨there, borne, h.typing_of_amendment does⟩
    | replacement messages => exact absurd does (n.change?_ne_replacement messages)

end Chat

/-! ## What has happened to the messages -/

namespace Amendment

/-- A row of amendments ends so that this one makes no difference to a message that came without an
edit or a deletion. Its text must be the last one; and a deletion must be among them, or the last
edit must have the same time. -/
def Concludes (later : List Amendment) : Amendment → Prop
  | edit body now =>
    later.getLast?.map text = some body ∧ (later.filterMap time?).getLast? = some now
  | delete => later.getLast?.map text = some Message.deletedBody ∧ delete ∈ later

/-- Messages with the identifier have come, and what has happened to each of them ends so. -/
def Repeats (a : Amendment) (id : MessageId) (entries : List (Message × List Amendment)) : Prop :=
  (∃ e ∈ entries, e.1.id = id) ∧ ∀ e ∈ entries, e.1.id = id → a.Concludes e.2

variable {later : List Amendment} {a : Amendment}

private theorem exists_text_getLast? (mem : a ∈ later) : ∃ s, later.getLast?.map text = some s := by
  have nonempty : later ≠ [] := List.ne_nil_of_mem mem
  exact ⟨_, congrArg _ (List.getLast?_eq_some_getLast nonempty)⟩

private theorem exists_edit_of_time {now : Timestamp}
    (last : (later.filterMap time?).getLast? = some now) :
    ∃ body, edit body now ∈ later := by
  obtain ⟨a, mem, time⟩ := List.mem_filterMap.mp (List.mem_of_getLast? last)
  cases a with
  | edit body now' =>
    cases time
    exact ⟨body, mem⟩
  | delete => cases time

end Amendment

/-- The message has neither been edited nor deleted. -/
structure Message.Pristine (m : Message) : Prop where
  deleted : m.deleted = false
  edited : m.edited = false
  updatedAt : m.updatedAt = none

/-- A message comes without an edit or a deletion. -/
theorem Incoming.pristine_place (m : Incoming) (room : RoomId) (now : Timestamp)
    (fresh : MessageId) : (m.place room now fresh).Pristine :=
  ⟨rfl, rfl, rfl⟩

/-- The first amendment always makes a difference. -/
theorem Message.Pristine.amend_ne {m : Message} (pristine : m.Pristine) (a : Amendment) :
    m.amend a ≠ m := by
  rw [ne_eq, Message.amend_eq_self_iff]
  cases a with
  | edit body now =>
    rintro ⟨-, edited, -⟩
    exact Bool.false_ne_true (pristine.edited.symm.trans edited)
  | delete =>
    rintro ⟨-, deleted⟩
    exact Bool.false_ne_true (pristine.deleted.symm.trans deleted)

private theorem Message.Pristine.bears_iff {m m' : Message} (pristine : m.Pristine)
    {later : List Amendment} (amended : m.Amended later m') {a : Amendment} :
    m'.Bears a ↔ a.Concludes later := by
  have body : ∀ {s}, later.getLast?.map Amendment.text = some s → m'.body = s := by
    intro s last
    rw [amended.body, last, Option.getD_some]
  cases a with
  | edit text now =>
    have time : m'.updatedAt = (later.filterMap Amendment.time?).getLast? := by
      rw [amended.updatedAt, pristine.updatedAt, Option.or_none]
    constructor
    · -- The time shows that the message has been edited, so that its text is that of an amendment.
      rintro ⟨rfl, -, updated⟩
      rw [time] at updated
      obtain ⟨_, mem⟩ := Amendment.exists_edit_of_time updated
      obtain ⟨s, last⟩ := Amendment.exists_text_getLast? mem
      exact ⟨body last ▸ last, updated⟩
    · rintro ⟨last, updated⟩
      obtain ⟨text', mem⟩ := Amendment.exists_edit_of_time updated
      exact ⟨body last, amended.edited.mpr (.inr ⟨text', now, mem⟩), time.trans updated⟩
  | delete =>
    constructor
    · -- The message was not deleted when it came.
      rintro ⟨same, gone⟩
      have mem : Amendment.delete ∈ later := by
        simpa [pristine.deleted] using amended.deleted.mp gone
      obtain ⟨s, last⟩ := Amendment.exists_text_getLast? mem
      exact ⟨same ▸ body last ▸ last, mem⟩
    · rintro ⟨last, mem⟩
      exact ⟨body last, amended.deleted.mpr (.inr mem)⟩

/-- Whether the messages are as an amendment would make them can be seen from what has happened to
them. -/
theorem Amendment.made_iff_repeats {entries : List (Message × List Amendment)}
    (pristine : ∀ e ∈ entries, e.1.Pristine) (a : Amendment) (id : MessageId) :
    a.Made id (entries.map fun e => e.2.foldl Message.amend e.1) ↔ a.Repeats id entries := by
  have id_eq : ∀ e : Message × List Amendment, (e.2.foldl Message.amend e.1).id = e.1.id :=
    fun e => (e.1.amended_foldl e.2).id
  have bears : ∀ e ∈ entries, (e.2.foldl Message.amend e.1).Bears a ↔ a.Concludes e.2 :=
    fun e mem => (pristine e mem).bears_iff (e.1.amended_foldl e.2)
  have there : (∃ m ∈ entries.map fun e => e.2.foldl Message.amend e.1, m.id = id) ↔
      ∃ e ∈ entries, e.1.id = id := by
    simp only [List.mem_map, exists_exists_and_eq_and, id_eq]
  simp only [Made, Repeats, there, List.forall_mem_map, id_eq]
  refine and_congr_right' ?_
  exact forall₂_congr fun e mem => imp_congr_right fun _ => bears e mem

namespace LogChange

/-- Whatever has arrived is among the changes. -/
theorem arrival_of_mem_arrivals {changes : List LogChange} {e : Message × List Amendment}
    (mem : e ∈ arrivals changes) : arrival e.1 ∈ changes := by
  induction changes with
  | nil => cases mem
  | cons change later ih =>
    cases change with
    | arrival m =>
      rcases List.mem_cons.mp mem with rfl | mem
      · exact List.mem_cons_self
      · exact List.mem_cons_of_mem _ (ih mem)
    | amendment id a => exact List.mem_cons_of_mem _ (ih mem)
    | replacement messages => exact List.mem_cons_of_mem _ (ih mem)

end LogChange

/-! ## Chats that have only heard news -/

namespace News

/-- What the news does to the log of a room. -/
def changes (room : RoomId) (news : List News) : List LogChange :=
  (news.filter (·.room = room)).filterMap change?

variable {room : RoomId} {news : List News}

/-- The changes of a room are told news by news. -/
theorem changes_cons (n : News) (news : List News) :
    changes room (n :: news) =
      (if n.room = room then n.change?.toList else []) ++ changes room news := by
  by_cases here : n.room = room
  · cases does : n.change? <;> simp [changes, here, does]
  · simp [changes, here]

/-- So does every message that news has brought. -/
theorem pristine_of_arrival {m : Message} (mem : .arrival m ∈ changes room news) : m.Pristine := by
  obtain ⟨⟨room, event, now, fresh⟩, -, does⟩ := List.mem_filterMap.mp mem
  cases event <;> cases does
  exact Incoming.pristine_place _ room now fresh

private theorem replacement_not_mem_changes (messages : List Message) :
    .replacement messages ∉ changes room news := by
  intro mem
  obtain ⟨n, -, does⟩ := List.mem_filterMap.mp mem
  exact n.change?_ne_replacement messages does

end News

namespace Chat

/-- What is known if nothing but news has come, to whoever was the local user then. -/
def heard (past : List (UserId × News)) : Chat :=
  empty.callAll (past.map fun p => .apply p.1 p.2)

private theorem changes_append {room : RoomId} (deeds more : List Deed) :
    changes room (deeds ++ more) = changes room deeds ++ changes room more := by
  simp [changes]

private theorem changes_heard (room : RoomId) (past : List (UserId × News)) :
    changes room ((past.map fun p => Call.apply p.1 p.2).flatMap Call.deeds) =
      News.changes room (past.map Prod.snd) := by
  induction past with
  | nil => rfl
  | cons p past ih =>
    have first : changes room (Call.apply p.1 p.2).deeds =
        if p.2.room = room then p.2.change?.toList else [] := News.changes_deeds p.1 p.2 room
    rw [List.map_cons, List.flatMap_cons, changes_append, ih, first,
      List.map_cons, News.changes_cons]

/-- If a chat has only heard news, its log holds what has arrived and what has become of it. -/
theorem log_heard (past : List (UserId × News)) (room : RoomId) :
    (heard past).log room =
      (LogChange.arrivals (News.changes room (past.map Prod.snd))).map fun e =>
        e.2.foldl Message.amend e.1 := by
  rw [heard, log_callAll_eq, changes_heard, log_empty,
    LogChange.foldl_applyTo News.replacement_not_mem_changes]
  rfl

/-- If a chat has only heard news, nothing is announced without a change, unless the news is an
edit or a deletion that makes no difference to any of the messages with its identifier. Whether it
does can be seen from the messages, and also from what the earlier news has done to them since they
came. -/
theorem apply_changes_iff (past : List (UserId × News)) (localUser : UserId) (n : News) :
    let chat := heard past
    let learnt := chat.apply n.room localUser n.event n.now n.fresh
    ((learnt.2 ≠ [] → learnt.1.log n.room ≠ chat.log n.room ∨
          learnt.1.typing n.room ≠ chat.typing n.room) ↔
        ∀ id a, n.change? = some (.amendment id a) → ¬ a.Made id (chat.log n.room)) ∧
      ∀ id (a : Amendment), a.Made id (chat.log n.room) ↔
        a.Repeats id (LogChange.arrivals (News.changes n.room (past.map Prod.snd))) := by
  intro chat learnt
  have h : chat.Learns localUser n learnt.1 learnt.2 := rfl
  constructor
  · rw [ne_eq (learnt.1.log n.room), ne_eq (learnt.1.typing n.room), ← not_and_or, ← not_and,
      h.in_vain_iff]
    simp only [not_exists, not_and]
  · intro id a
    rw [log_heard]
    refine Amendment.made_iff_repeats (fun e mem => ?_) a id
    exact News.pristine_of_arrival (LogChange.arrival_of_mem_arrivals mem)

end Chat

/-! ### A detour

A message is deleted, and deleted again. -/

namespace Detour

def cellar : RoomId := ⟨"cellar", by decide⟩

def slip : MessageId := ⟨"8", by decide⟩

def hearsay (event : Inbound) : News := ⟨cellar, event, .epoch, slip⟩

def regrets : List (UserId × News) := [
  (erik, hearsay (.message ⟨some slip, dora, none, "nonsense", false, none, none⟩)),
  (erik, hearsay (.deleted slip))]

end Detour

/-- The second deletion is announced, although nothing changes. -/
theorem echoes_detour :
    let chat := Chat.heard Detour.regrets
    let learnt := chat.apply Detour.cellar Detour.erik (.deleted Detour.slip) ⟨1, 0⟩ Detour.slip
    learnt.2 = [.deleted Detour.cellar Detour.slip] ∧
      learnt.1.log Detour.cellar = chat.log Detour.cellar ∧
      learnt.1.typing Detour.cellar = chat.typing Detour.cellar := by
  decide

end ChatClient
