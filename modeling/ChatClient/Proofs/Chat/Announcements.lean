import ChatClient.Proofs.Chat.Typing
import Mathlib.Data.List.Forall2

/-!
# What is announced of a chat

Whoever shows a chat learns of its changes by announcements alone. So nothing may change without
one, and an announcement must be right about what has changed. News changes the log of its room in
one way at most, and what is announced of that comes first; if the list of those who type is another
one than before, it is announced last. All that is said here about announcements follows from this
one equation.

## Main definitions

* `News.change?`: what the news does to the log of its room
* `LogChange.announcements`, `Chat.typingAnnouncements`: what is announced of a log, and of those
  who type
* `Chat.Learns`: the news makes one chat into another, and this is announced
* `Chat.Tells`: the announcements are right, and they are complete

## Main results

* `Chat.Learns.told_eq`: what is announced of the news
* `Chat.apply_tells`: nothing changes in silence, and nothing is announced falsely
-/

namespace ChatClient

namespace ChatUpdate

/-- The room that the announcement is about. -/
def room : ChatUpdate → RoomId
  | appended room _ | edited room _ | deleted room _ | typing room _ => room

/-- The announcement is about the log of the room. -/
def aboutLog : ChatUpdate → Bool
  | appended _ _ | edited _ _ | deleted _ _ => true
  | typing _ _ => false

/-- The identifier of the messages that are said to be amended. -/
def amended? : ChatUpdate → Option MessageId
  | edited _ id | deleted _ id => some id
  | appended _ _ | typing _ _ => none

end ChatUpdate

/-! ## Changes of a log -/

/-- How it is announced that the messages with the identifier have been amended. -/
def Amendment.announcement (room : RoomId) (id : MessageId) : Amendment → ChatUpdate
  | edit _ _ => .edited room id
  | delete => .deleted room id

namespace LogChange

/-- What is announced of a change of the log. Amendments are announced if there is a message with
the identifier. -/
def announcements (room : RoomId) (log : List Message) : LogChange → List ChatUpdate
  | arrival m => [.appended room m]
  | amendment id a => if log.any (·.id == id) then [a.announcement room id] else []
  | replacement _ => []

variable {room : RoomId} {log : List Message} {change : LogChange} {u : ChatUpdate}

private theorem mem_announcements_amendment {id : MessageId} {a : Amendment} :
    u ∈ (amendment id a).announcements room log ↔
      (∃ m ∈ log, m.id = id) ∧ u = a.announcement room id := by
  by_cases there : ∃ m ∈ log, m.id = id <;> simp [announcements, there]

private theorem about_of_mem_announcements (mem : u ∈ change.announcements room log) :
    u.room = room ∧ u.aboutLog = true := by
  cases change with
  | arrival m =>
    obtain rfl := List.mem_singleton.mp mem
    exact ⟨rfl, rfl⟩
  | amendment id a =>
    obtain ⟨-, rfl⟩ := mem_announcements_amendment.mp mem
    cases a <;> exact ⟨rfl, rfl⟩
  | replacement messages => cases mem

private theorem arrival_of_appended {room' : RoomId} {m : Message}
    (mem : .appended room' m ∈ change.announcements room log) : change = .arrival m := by
  cases change with
  | arrival m' =>
    cases List.mem_singleton.mp mem
    rfl
  | amendment id a =>
    obtain ⟨-, same⟩ := mem_announcements_amendment.mp mem
    cases a <;> cases same
  | replacement messages => cases mem

private theorem amendment_of_amended {id : MessageId} (mem : u ∈ change.announcements room log)
    (names : u.amended? = some id) : ∃ a, change = .amendment id a := by
  cases change with
  | arrival m =>
    obtain rfl := List.mem_singleton.mp mem
    cases names
  | amendment id' a =>
    obtain ⟨-, rfl⟩ := mem_announcements_amendment.mp mem
    cases a <;> cases names <;> exact ⟨_, rfl⟩
  | replacement messages => cases mem

/-- A change that is not announced is none, as no message has the identifier. -/
theorem applyTo_of_unannounced (kept : ∀ messages, change ≠ .replacement messages)
    (silent : change.announcements room log = []) : change.applyTo log = log := by
  cases change with
  | arrival m => cases silent
  | amendment id a =>
    have nobody : ∀ m ∈ log, m.id ≠ id := by simpa [announcements] using silent
    calc (amendment id a).applyTo log = log.map fun m => m :=
          List.map_congr_left fun m mem => if_neg (nobody m mem)
      _ = log := List.map_id' log
  | replacement messages => exact absurd rfl (kept messages)

/-- Only messages with the identifier are amended. -/
theorem forall₂_amendment (log : List Message) (id : MessageId) (a : Amendment) :
    List.Forall₂ (fun m m' => m.id ≠ id → m' = m) log ((amendment id a).applyTo log) := by
  rw [applyTo, List.forall₂_map_right_iff, List.forall₂_same]
  exact fun m _ other => if_neg other

end LogChange

/-! ## Changes of those who type -/

/-- A report that changes the list makes its user join or leave. -/
theorem TypingReport.member_of_applyTo_ne {typing : List UserId} {r : TypingReport}
    (changed : r.applyTo typing ≠ typing) : ¬ (r.user ∈ r.applyTo typing ↔ r.user ∈ typing) := by
  rw [mem_applyTo, if_pos rfl]
  intro same
  obtain ⟨user, on⟩ := r
  -- Otherwise the user is in the list exactly if the report says so, and nothing has to be done.
  cases on with
  | true => exact changed (by simp [applyTo, same.mp rfl])
  | false =>
    have absent : user ∉ typing := fun mem => Bool.false_ne_true (same.mpr mem)
    refine changed (List.filter_eq_self.mpr fun u mem => ?_)
    simpa using fun own : u = user => absent (own ▸ mem)

namespace Chat

variable {chat : Chat} {room : RoomId}

/-- What is announced if some users were typing before and others are now. -/
def typingAnnouncements (room : RoomId) (before after : List UserId) : List ChatUpdate :=
  if after = before then [] else [.typing room after]

private theorem mem_typingAnnouncements {before after : List UserId} {u : ChatUpdate} :
    u ∈ typingAnnouncements room before after ↔ after ≠ before ∧ u = .typing room after := by
  by_cases same : after = before <;> simp [typingAnnouncements, same]

/-- What is noted about a user is announced exactly if it changes the list. -/
theorem typingUpdate_setTyping (user : UserId) (on : Bool) :
    typingUpdate room (chat.setTyping room user on) =
      typingAnnouncements room (chat.typing room)
        ((chat.setTyping room user on).1.typing room) := by
  by_cases known : chat.isTyping room user = on
  · have same : chat.setTyping room user on = (chat, false) := by simp [setTyping, known]
    simp [same, typingUpdate, typingAnnouncements]
  · have told : (chat.setTyping room user on).2 = true := by simp [setTyping, known]
    -- The list has changed, as it has changed for this user.
    have changed : (chat.setTyping room user on).1.typing room ≠ chat.typing room := by
      intro same
      have noted : (chat.setTyping room user on).1.isTyping room user = on :=
        chat.isTyping_setTyping user on
      exact known (by rwa [isTyping, same] at noted)
    rw [typingAnnouncements, if_neg changed]
    generalize chat.setTyping room user on = changed at told ⊢
    obtain ⟨chat', news⟩ := changed
    obtain rfl : news = true := told
    rfl

end Chat

/-! ## What news does, and what is announced of it -/

namespace News

/-- What the news does to the log of its room. -/
def change? (n : News) : Option LogChange :=
  match n.event with
  | .message incoming => some (.arrival (incoming.place n.room n.now n.fresh))
  | .edited id body => some (.amendment id (.edit body n.now))
  | .deleted id => some (.amendment id .delete)
  | .typingStarted _ | .typingStopped _ => none

/-- News never replaces a log. -/
theorem change?_ne_replacement (n : News) (messages : List Message) :
    n.change? ≠ some (.replacement messages) := by
  obtain ⟨room, event, now, fresh⟩ := n
  cases event <;> simp [change?]

private theorem filter_deeds (localUser : UserId) (n : News) (room : RoomId) :
    (n.deeds localUser).filter (·.room = room) =
      if n.room = room then n.deeds localUser else [] := by
  split
  · next here =>
    refine List.filter_eq_self.mpr fun deed mem => ?_
    simpa [room_of_mem_deeds mem] using here
  · next elsewhere =>
    refine List.filter_eq_nil_iff.mpr fun deed mem => ?_
    simpa [room_of_mem_deeds mem] using elsewhere

/-- News changes the log of its own room, in one way at most. -/
theorem changes_deeds (localUser : UserId) (n : News) (room : RoomId) :
    Chat.changes room (n.deeds localUser) = if n.room = room then n.change?.toList else [] := by
  rw [Chat.changes, filter_deeds]
  split
  · obtain ⟨room, event, now, fresh⟩ := n
    cases event with
    | typingStarted user =>
      by_cases own : user = localUser <;> simp [deeds, change?, own, Chat.Deed.change?]
    | _ => rfl
  · rfl

end News

namespace Chat

variable {chat after : Chat} {localUser : UserId} {n : News} {told : List ChatUpdate}

/-- The news makes one chat into another, and this is announced. -/
def Learns (chat : Chat) (localUser : UserId) (n : News) (after : Chat) (told : List ChatUpdate) :
    Prop :=
  chat.apply n.room localUser n.event n.now n.fresh = (after, told)

/-- First what happens to the log is announced, and then who is typing, if that has changed. -/
theorem announced_apply (chat : Chat) (localUser : UserId) (n : News) :
    (chat.apply n.room localUser n.event n.now n.fresh).2 =
      n.change?.toList.flatMap (LogChange.announcements n.room (chat.log n.room)) ++
        typingAnnouncements n.room (chat.typing n.room)
          ((chat.apply n.room localUser n.event n.now n.fresh).1.typing n.room) := by
  obtain ⟨room, event, now, fresh⟩ := n
  cases event with
  | message incoming =>
    have told : typingUpdate room (chat.receive room (incoming.place room now fresh)) =
        typingAnnouncements room (chat.typing room) _ :=
          typingUpdate_setTyping incoming.author false
    exact congrArg _ told
  | edited id body =>
    have quiet : typingAnnouncements room (chat.typing room)
        ((chat.edit room id body now).1.typing room) = [] := if_pos (typing_modify id _)
    simp only [apply, News.change?, Option.toList_some, List.flatMap_singleton, quiet,
      List.append_nil]
    rfl
  | deleted id =>
    have quiet : typingAnnouncements room (chat.typing room)
        ((chat.delete room id).1.typing room) = [] := if_pos (typing_modify id _)
    simp only [apply, News.change?, Option.toList_some, List.flatMap_singleton, quiet,
      List.append_nil]
    rfl
  | typingStarted user =>
    -- That the local user has started typing comes to nothing and is not announced.
    by_cases own : user = localUser
    · simp [apply, News.change?, typingAnnouncements, own]
    · simp only [apply, own, if_false]
      exact typingUpdate_setTyping user true
  | typingStopped user => exact typingUpdate_setTyping user false

namespace Learns

variable (h : chat.Learns localUser n after told)
include h

private theorem after_eq : after = chat.run (n.deeds localUser) := by
  rw [← apply_eq, h]

private theorem log_eq :
    after.log n.room = n.change?.toList.foldl LogChange.applyTo (chat.log n.room) := by
  rw [h.after_eq, log_run, News.changes_deeds, if_pos rfl]

private theorem typing_eq :
    after.typing n.room = (n.report?.toList.filter (TypingReport.heeded localUser)).foldl
      TypingReport.applyTo (chat.typing n.room) := by
  rw [h.after_eq, typing_run, reports, News.filter_deeds, if_pos rfl, News.filterMap_deeds]

/-- What is announced is the change of the log, and then who is typing if that is another list than
before. -/
theorem told_eq :
    told = n.change?.toList.flatMap (LogChange.announcements n.room (chat.log n.room)) ++
      typingAnnouncements n.room (chat.typing n.room) (after.typing n.room) := by
  have announced := chat.announced_apply localUser n
  rwa [h] at announced

/-- Nobody begins or stops typing by an amendment. -/
theorem typing_of_amendment {id : MessageId} {a : Amendment}
    (amends : n.change? = some (.amendment id a)) : after.typing n.room = chat.typing n.room := by
  have unreported : n.report? = none := by
    obtain ⟨room, event, now, fresh⟩ := n
    cases event <;> simp_all [News.change?, News.report?]
  rw [h.typing_eq, unreported]
  rfl

/-- The log is changed as the news says. -/
theorem log_of_change {change : LogChange} (does : n.change? = some change) :
    after.log n.room = change.applyTo (chat.log n.room) := by
  rw [h.log_eq, does]
  rfl

/-- Of an edit or a deletion nothing is announced but the messages that it concerns. -/
theorem told_of_amendment {id : MessageId} {a : Amendment}
    (amends : n.change? = some (.amendment id a)) :
    told = (LogChange.amendment id a).announcements n.room (chat.log n.room) := by
  have quiet : typingAnnouncements n.room (chat.typing n.room) (after.typing n.room) = [] :=
    if_pos (h.typing_of_amendment amends)
  rw [h.told_eq, amends, quiet, List.append_nil]
  exact List.flatMap_singleton _ _

private theorem log_elsewhere {other : RoomId} (elsewhere : other ≠ n.room) :
    after.log other = chat.log other := by
  rw [h.after_eq, log_run, News.changes_deeds, if_neg elsewhere.symm]
  rfl

private theorem typing_elsewhere {other : RoomId} (elsewhere : other ≠ n.room) :
    after.typing other = chat.typing other := by
  rw [h.after_eq, typing_run, reports, News.filter_deeds, if_neg elsewhere.symm]
  rfl

/-! ### Single announcements -/

/-- Each announcement is about the change of the log, or it tells who is typing now. -/
theorem mem_told_iff {u : ChatUpdate} :
    u ∈ told ↔
      (∃ change, n.change? = some change ∧ u ∈ change.announcements n.room (chat.log n.room)) ∨
        after.typing n.room ≠ chat.typing n.room ∧ u = .typing n.room (after.typing n.room) := by
  rw [h.told_eq, List.mem_append, mem_typingAnnouncements, List.mem_flatMap]
  simp

private theorem room_of_mem_told {u : ChatUpdate} (mem : u ∈ told) : u.room = n.room := by
  rcases h.mem_told_iff.mp mem with ⟨change, -, mem⟩ | ⟨-, rfl⟩
  · exact (LogChange.about_of_mem_announcements mem).1
  · rfl

private theorem log_of_silent (silent : ∀ u ∈ told, u.aboutLog = false) :
    after.log n.room = chat.log n.room := by
  cases does : n.change? with
  | none =>
    rw [h.log_eq, does]
    rfl
  | some change =>
    rw [h.log_of_change does]
    have kept : ∀ messages, change ≠ .replacement messages := fun messages same =>
      n.change?_ne_replacement messages (does.trans (congrArg some same))
    have unannounced : change.announcements n.room (chat.log n.room) = [] := by
      refine List.eq_nil_iff_forall_not_mem.mpr fun u mem => ?_
      have quiet := silent u (h.mem_told_iff.mpr (.inl ⟨change, does, mem⟩))
      exact Bool.false_ne_true (quiet.symm.trans (LogChange.about_of_mem_announcements mem).2)
    exact LogChange.applyTo_of_unannounced kept unannounced

private theorem log_of_appended {m : Message} (mem : .appended n.room m ∈ told) :
    after.log n.room = chat.log n.room ++ [m] := by
  rcases h.mem_told_iff.mp mem with ⟨change, does, mem⟩ | ⟨-, same⟩
  · rw [h.log_of_change does, LogChange.arrival_of_appended mem]
    rfl
  · cases same

private theorem log_of_amended {u : ChatUpdate} (mem : u ∈ told) {id : MessageId}
    (names : u.amended? = some id) :
    List.Forall₂ (fun m m' => m.id ≠ id → m' = m) (chat.log n.room) (after.log n.room) := by
  rcases h.mem_told_iff.mp mem with ⟨change, does, mem⟩ | ⟨-, rfl⟩
  · obtain ⟨a, rfl⟩ := LogChange.amendment_of_amended mem names
    rw [h.log_of_change does]
    exact LogChange.forall₂_amendment _ id a
  · cases names

private theorem typing_mem_told_iff {users : List UserId} :
    .typing n.room users ∈ told ↔
      after.typing n.room ≠ chat.typing n.room ∧ users = after.typing n.room := by
  rw [h.mem_told_iff]
  constructor
  · rintro (⟨change, -, mem⟩ | ⟨changed, same⟩)
    · cases (LogChange.about_of_mem_announcements mem).2
    · cases same
      exact ⟨changed, rfl⟩
  · rintro ⟨changed, rfl⟩
    exact .inr ⟨changed, rfl⟩

private theorem exists_told_eq (changed : after.typing n.room ≠ chat.typing n.room) :
    ∃ others, told = others ++ [.typing n.room (after.typing n.room)] ∧
      ∀ u ∈ others, u.aboutLog = true := by
  refine ⟨_, h.told_eq.trans (congrArg _ (if_neg changed)), fun u mem => ?_⟩
  obtain ⟨change, -, mem⟩ := List.mem_flatMap.mp mem
  exact (LogChange.about_of_mem_announcements mem).2

/-- If the list has changed, someone has joined it or left. -/
theorem exists_member (changed : after.typing n.room ≠ chat.typing n.room) :
    ∃ user, ¬ (user ∈ after.typing n.room ↔ user ∈ chat.typing n.room) := by
  rw [h.typing_eq] at changed ⊢
  generalize n.report? = report at changed ⊢
  cases report with
  | none => exact absurd rfl changed
  | some r =>
    cases noted : r.heeded localUser with
    | false => simp [noted] at changed
    | true =>
      have once : ((some r).toList.filter (TypingReport.heeded localUser)).foldl
          TypingReport.applyTo (chat.typing n.room) = r.applyTo (chat.typing n.room) := by
        simp [noted]
      rw [once] at changed ⊢
      exact ⟨r.user, TypingReport.member_of_applyTo_ne changed⟩

end Learns

/-! ## Whether the announcements can be relied on -/

/-- The announcements tell what has become of the chat by something that happened in the room. -/
structure Tells (room : RoomId) (before after : Chat) (told : List ChatUpdate) : Prop where
  log_elsewhere : ∀ other, other ≠ room → after.log other = before.log other
  typing_elsewhere : ∀ other, other ≠ room → after.typing other = before.typing other
  /-- Only this room is spoken of. -/
  room_eq : ∀ u ∈ told, u.room = room
  /-- The log does not change in silence. -/
  log_eq : (∀ u ∈ told, u.aboutLog = false) → after.log room = before.log room
  appended : ∀ m, .appended room m ∈ told → after.log room = before.log room ++ [m]
  /-- Only messages with the identifier that is announced have changed. -/
  amended : ∀ u ∈ told, ∀ id, u.amended? = some id →
    List.Forall₂ (fun m m' => m.id ≠ id → m' = m) (before.log room) (after.log room)
  /-- Those who type are announced exactly if they are others than before. -/
  typing_iff : (∃ users, .typing room users ∈ told) ↔
    ∃ user, ¬ (user ∈ after.typing room ↔ user ∈ before.typing room)
  /-- Nor do those who type change places in silence. -/
  typing_eq : (∀ users, .typing room users ∉ told) → after.typing room = before.typing room
  /-- They are announced as they are now, and after everything else. -/
  typing_last : ∀ users, .typing room users ∈ told → users = after.typing room ∧
    ∃ others, told = others ++ [.typing room users] ∧ ∀ u ∈ others, u.aboutLog = true

/-- Whatever news comes to a room, only this room changes: it becomes what the news makes of it. The
announcements tell how it has changed. Nothing changes in silence, and nothing is announced that has
not come about. -/
theorem apply_tells (chat : Chat) (room : RoomId) (localUser : UserId) (event : Inbound)
    (now : Timestamp) (fresh : MessageId) :
    let n : News := ⟨room, event, now, fresh⟩
    let learnt := chat.apply room localUser event now fresh
    Tells room chat learnt.1 learnt.2 ∧
      learnt.1.log room = n.change?.toList.foldl LogChange.applyTo (chat.log room) ∧
      learnt.1.typing room = (n.report?.toList.filter (TypingReport.heeded localUser)).foldl
        TypingReport.applyTo (chat.typing room) := by
  intro n learnt
  -- Everything has been told of one equation for what is learnt.
  have h : chat.Learns localUser n learnt.1 learnt.2 := rfl
  refine ⟨?_, h.log_eq, h.typing_eq⟩
  exact {
    log_elsewhere := fun _ => h.log_elsewhere
    typing_elsewhere := fun _ => h.typing_elsewhere
    room_eq := fun _ => h.room_of_mem_told
    log_eq := h.log_of_silent
    appended := fun _ => h.log_of_appended
    amended := fun _ mem _ => h.log_of_amended mem
    typing_iff := by
      constructor
      · rintro ⟨users, mem⟩
        exact h.exists_member (h.typing_mem_told_iff.mp mem).1
      · rintro ⟨user, changed⟩
        have differs : learnt.1.typing room ≠ chat.typing room :=
          fun same => changed (by rw [same])
        exact ⟨_, h.typing_mem_told_iff.mpr ⟨differs, rfl⟩⟩
    typing_eq := by
      intro silent
      by_contra changed
      exact silent _ (h.typing_mem_told_iff.mpr ⟨changed, rfl⟩)
    typing_last := by
      intro users mem
      obtain ⟨changed, rfl⟩ := h.typing_mem_told_iff.mp mem
      exact ⟨rfl, h.exists_told_eq changed⟩ }

end Chat

end ChatClient
