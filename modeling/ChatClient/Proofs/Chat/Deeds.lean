import ChatClient.Chat.State
import Mathlib.Tactic.Common

/-!
# What is done to a chat

All that is known about the rooms comes from deeds that are done one after the other, each of them
in one room. What a deed does there has two parts that do not touch each other. It may change the
log of the room, and it may report that someone is typing or no longer typing. Whoever knows the
changes and the reports of a room, in their order, knows the room.

News from the server comes down to such deeds, one at most. That the local user has started typing
is the only news that comes to nothing.

## Main definitions

* `Amendment`, `LogChange`, `TypingReport`: what can happen to a message, to a log, and to a user
* `Chat.Deed`, `Chat.perform`, `Chat.run`: the deeds, and what becomes of a chat by them
* `Chat.Deed.change?`, `Chat.Deed.report?`: the two parts of a deed
* `Chat.changes`, `Chat.reports`: those that a row of deeds makes in a room
* `News`, `News.deeds`: what the server says, and what it comes down to
* `Chat.Call`, `Chat.callAll`: the deeds and the news in any order

## Main results

* `log_perform`, `typing_perform`: a deed does to its room what its two parts say
* `log_perform_of_ne`, `typing_perform_of_ne`: it does nothing to any other room
* `log_run`, `typing_run`: what is known about a room after a row of deeds
* `apply_eq`: news comes down to its deeds
-/

namespace ChatClient

/-- What can happen to a message that is in a log. -/
inductive Amendment
  | edit (body : String) (now : Timestamp)
  | delete
  deriving DecidableEq

def Message.amend (m : Message) : Amendment → Message
  | .edit body now => m.edit body now
  | .delete => m.delete

@[simp] theorem Message.id_amend (m : Message) (a : Amendment) : (m.amend a).id = m.id := by
  cases a <;> rfl

/-- What can happen to the log of a room. -/
inductive LogChange
  /-- A message comes to the end of the log. -/
  | arrival (m : Message)
  /-- The same happens to every message with the identifier. -/
  | amendment (id : MessageId) (a : Amendment)
  | replacement (messages : List Message)

def LogChange.applyTo (log : List Message) : LogChange → List Message
  | .arrival m => log ++ [m]
  | .amendment id a => log.map fun m => if m.id = id then m.amend a else m
  | .replacement messages => messages

/-- A user is typing, or no longer typing. -/
structure TypingReport where
  user : UserId
  on : Bool
  deriving DecidableEq

/-- The users who are typing when the report has been noted. -/
def TypingReport.applyTo (typing : List UserId) (r : TypingReport) : List UserId :=
  if r.on then if typing.contains r.user then typing else typing ++ [r.user]
  else typing.filter (· != r.user)

namespace Chat

/-- What can be done to a chat. -/
inductive Deed
  | append (room : RoomId) (m : Message)
  | receive (room : RoomId) (m : Message)
  | edit (room : RoomId) (id : MessageId) (body : String) (now : Timestamp)
  | delete (room : RoomId) (id : MessageId)
  | setTyping (room : RoomId) (user : UserId) (on : Bool)
  | replaceLog (room : RoomId) (messages : List Message)

namespace Deed

/-- The room in which the deed is done. -/
def room : Deed → RoomId
  | append room _ | receive room _ | edit room _ _ _ | delete room _ | setTyping room _ _
  | replaceLog room _ => room

/-- How the deed changes the log of its room. -/
def change? : Deed → Option LogChange
  | append _ m | receive _ m => some (.arrival m)
  | edit _ id body now => some (.amendment id (.edit body now))
  | delete _ id => some (.amendment id .delete)
  | setTyping _ _ _ => none
  | replaceLog _ messages => some (.replacement messages)

/-- What the deed reports about a user who types. Who has written a message has stopped typing. -/
def report? : Deed → Option TypingReport
  | receive _ m => some ⟨m.author, false⟩
  | setTyping _ user on => some ⟨user, on⟩
  | append _ _ | edit _ _ _ _ | delete _ _ | replaceLog _ _ => none

end Deed

/-- The chat after a deed. -/
def perform (chat : Chat) : Deed → Chat
  | .append room m => chat.append room m
  | .receive room m => (chat.receive room m).1
  | .edit room id body now => (chat.edit room id body now).1
  | .delete room id => (chat.delete room id).1
  | .setTyping room user on => (chat.setTyping room user on).1
  | .replaceLog room messages => chat.replaceLog room messages

/-- The chat after a row of deeds. -/
def run (chat : Chat) (deeds : List Deed) : Chat :=
  deeds.foldl perform chat

/-- What the deeds do to the log of a room. -/
def changes (room : RoomId) (deeds : List Deed) : List LogChange :=
  (deeds.filter (·.room = room)).filterMap Deed.change?

/-- What the deeds report about the users who type in a room. -/
def reports (room : RoomId) (deeds : List Deed) : List TypingReport :=
  (deeds.filter (·.room = room)).filterMap Deed.report?

variable {chat : Chat} {room other : RoomId}

theorem run_cons (deed : Deed) (deeds : List Deed) :
    chat.run (deed :: deeds) = (chat.perform deed).run deeds := rfl

/-- Deeds are done one after the other. -/
theorem run_append (deeds more : List Deed) :
    chat.run (deeds ++ more) = (chat.run deeds).run more :=
  List.foldl_append

/-! ## The two views of each operation -/

/-- A message that is received comes to the end of the log. -/
theorem log_receive (m : Message) : (chat.receive room m).1.log room = chat.log room ++ [m] := by
  simp [receive]

private theorem log_receive_of_ne (different : other ≠ room) (m : Message) :
    (chat.receive room m).1.log other = chat.log other := by
  simp [receive, log_append_of_ne _ different]

private theorem typing_setTyping (user : UserId) (on : Bool) :
    (chat.setTyping room user on).1.typing room =
      TypingReport.applyTo (chat.typing room) ⟨user, on⟩ := by
  unfold setTyping
  split
  · next known =>
    cases on with
    | true =>
      have present : user ∈ chat.typing room := by simpa [isTyping] using known
      simp [TypingReport.applyTo, present]
    | false =>
      -- Nobody has to leave the list, as the user is not in it.
      have absent : user ∉ chat.typing room := by simpa [isTyping] using known
      have all : ∀ u ∈ chat.typing room, (u != user) = true := by
        intro u mem
        simpa using fun same : u = user => absent (same ▸ mem)
      simp only [TypingReport.applyTo, Bool.false_eq_true, if_false]
      rw [List.filter_eq_self.mpr all]
  · next news =>
    cases on with
    | true =>
      have absent : (chat.typing room).contains user = false := by simpa [isTyping] using news
      simp only [TypingReport.applyTo, absent, if_true, Bool.false_eq_true, if_false]
      simp [typing]
    | false => simp [TypingReport.applyTo, typing]

private theorem typing_setTyping_of_ne (different : other ≠ room) (user : UserId) (on : Bool) :
    (chat.setTyping room user on).1.typing other = chat.typing other := by
  unfold setTyping
  split
  · rfl
  · simp [typing, different]

@[simp] theorem typing_append (m : Message) :
    (chat.append room m).typing other = chat.typing other := rfl

@[simp] theorem typing_modify (id : MessageId) (f : Message → Message) :
    (chat.modify room id f).typing other = chat.typing other := rfl

@[simp] theorem typing_replaceLog (messages : List Message) :
    (chat.replaceLog room messages).typing other = chat.typing other := rfl

/-! ## What a deed does to a room -/

/-- A deed changes the log of its room as it says. -/
theorem log_perform (deed : Deed) :
    (chat.perform deed).log deed.room =
      deed.change?.toList.foldl LogChange.applyTo (chat.log deed.room) := by
  cases deed with
  | append room m => exact chat.log_append m
  | receive room m => exact log_receive m
  | edit room id body now => exact chat.log_modify id _
  | delete room id => exact chat.log_modify id _
  | setTyping room user on => exact chat.log_setTyping user on
  | replaceLog room messages => exact chat.log_replaceLog messages

/-- It changes the list of those who type there as it says. -/
theorem typing_perform (deed : Deed) :
    (chat.perform deed).typing deed.room =
      deed.report?.toList.foldl TypingReport.applyTo (chat.typing deed.room) := by
  cases deed with
  | append room m => exact typing_append m
  | receive room m => exact typing_setTyping m.author false
  | edit room id body now => exact typing_modify id _
  | delete room id => exact typing_modify id _
  | setTyping room user on => exact typing_setTyping user on
  | replaceLog room messages => exact typing_replaceLog messages

/-- The logs of other rooms stay as they are. -/
theorem log_perform_of_ne {deed : Deed} (elsewhere : deed.room ≠ room) :
    (chat.perform deed).log room = chat.log room := by
  cases deed with
  | append _ m => exact chat.log_append_of_ne elsewhere.symm m
  | receive _ m => exact log_receive_of_ne elsewhere.symm m
  | edit _ id body now => exact chat.log_modify_of_ne elsewhere.symm id _
  | delete _ id => exact chat.log_modify_of_ne elsewhere.symm id _
  | setTyping _ user on => exact chat.log_setTyping user on
  | replaceLog _ messages => exact chat.log_replaceLog_of_ne elsewhere.symm messages

/-- So do their lists. -/
theorem typing_perform_of_ne {deed : Deed} (elsewhere : deed.room ≠ room) :
    (chat.perform deed).typing room = chat.typing room := by
  cases deed with
  | append _ m => exact typing_append m
  | receive _ m => exact typing_setTyping_of_ne elsewhere.symm m.author false
  | edit _ id body now => exact typing_modify id _
  | delete _ id => exact typing_modify id _
  | setTyping _ user on => exact typing_setTyping_of_ne elsewhere.symm user on
  | replaceLog _ messages => exact typing_replaceLog messages

/-! ## What a row of deeds does to a room -/

/-- The changes of a room are told deed by deed. -/
theorem changes_cons (deed : Deed) (deeds : List Deed) :
    changes room (deed :: deeds) =
      (if deed.room = room then deed.change?.toList else []) ++ changes room deeds := by
  by_cases here : deed.room = room
  · cases change : deed.change? <;> simp [changes, here, change]
  · simp [changes, here]

private theorem reports_cons (deed : Deed) (deeds : List Deed) :
    reports room (deed :: deeds) =
      (if deed.room = room then deed.report?.toList else []) ++ reports room deeds := by
  by_cases here : deed.room = room
  · cases report : deed.report? <;> simp [reports, here, report]
  · simp [reports, here]

/-- Whoever knows the changes of a room knows its log. -/
theorem log_run (deeds : List Deed) :
    (chat.run deeds).log room = (changes room deeds).foldl LogChange.applyTo (chat.log room) := by
  induction deeds generalizing chat with
  | nil => rfl
  | cons deed deeds ih =>
    -- The first deed counts only if it is done in this room.
    rw [run_cons, ih, changes_cons, List.foldl_append]
    by_cases here : deed.room = room
    · rw [if_pos here, ← here, log_perform]
    · rw [if_neg here, log_perform_of_ne here]
      rfl

/-- Whoever knows the reports of a room knows who is typing there. -/
theorem typing_run (deeds : List Deed) :
    (chat.run deeds).typing room =
      (reports room deeds).foldl TypingReport.applyTo (chat.typing room) := by
  induction deeds generalizing chat with
  | nil => rfl
  | cons deed deeds ih =>
    rw [run_cons, ih, reports_cons, List.foldl_append]
    by_cases here : deed.room = room
    · rw [if_pos here, ← here, typing_perform]
    · rw [if_neg here, typing_perform_of_ne here]
      rfl

end Chat

/-! ## News -/

/-- An event from the server, with the room it is about, the time at which it comes, and the
identifier for a message that has none. -/
structure News where
  room : RoomId
  event : Inbound
  now : Timestamp
  fresh : MessageId

namespace News

open Chat (Deed)

/-- What the news comes down to. That the local user has started typing comes to nothing. -/
def deeds (localUser : UserId) (n : News) : List Deed :=
  match n.event with
  | .message incoming => [.receive n.room (incoming.place n.room n.now n.fresh)]
  | .edited id body => [.edit n.room id body n.now]
  | .deleted id => [.delete n.room id]
  | .typingStarted user => if user = localUser then [] else [.setTyping n.room user true]
  | .typingStopped user => [.setTyping n.room user false]

theorem room_of_mem_deeds {localUser : UserId} {n : News} {deed : Deed}
    (mem : deed ∈ n.deeds localUser) : deed.room = n.room := by
  obtain ⟨room, event, now, fresh⟩ := n
  cases event with
  | typingStarted user =>
    simp only [deeds] at mem
    split at mem
    · cases mem
    · rw [List.mem_singleton.mp mem]
      rfl
  | _ =>
    rw [List.mem_singleton.mp mem]
    rfl

end News

namespace Chat

/-- Something is done to a chat, or news comes to the local user. -/
inductive Call
  | deed (d : Deed)
  | apply (localUser : UserId) (news : News)

namespace Call

/-- The room that the call is about. -/
def room : Call → RoomId
  | deed d => d.room
  | apply _ news => news.room

/-- What the call comes down to. -/
def deeds : Call → List Deed
  | deed d => [d]
  | apply localUser news => news.deeds localUser

theorem room_of_mem_deeds {call : Call} {deed : Deed} (mem : deed ∈ call.deeds) :
    deed.room = call.room := by
  cases call with
  | deed d => rw [List.mem_singleton.mp mem]; rfl
  | apply localUser news => exact News.room_of_mem_deeds mem

end Call

/-- The chat after a call. -/
def call (chat : Chat) : Call → Chat
  | .deed d => chat.perform d
  | .apply localUser news => (chat.apply news.room localUser news.event news.now news.fresh).1

/-- The chat after a row of calls. -/
def callAll (chat : Chat) (calls : List Call) : Chat :=
  calls.foldl call chat

variable {chat : Chat} {room : RoomId}

/-- To take in news is to do its deeds. -/
theorem apply_eq (localUser : UserId) (news : News) :
    (chat.apply news.room localUser news.event news.now news.fresh).1 =
      chat.run (news.deeds localUser) := by
  obtain ⟨room, event, now, fresh⟩ := news
  cases event with
  | typingStarted user =>
    simp only [apply, News.deeds]
    split <;> rfl
  | _ => rfl

private theorem call_eq (c : Call) : chat.call c = chat.run c.deeds := by
  cases c with
  | deed d => rfl
  | apply localUser news => exact apply_eq localUser news

/-- So all that is called comes down to deeds. -/
theorem callAll_eq (calls : List Call) :
    chat.callAll calls = chat.run (calls.flatMap Call.deeds) := by
  induction calls generalizing chat with
  | nil => rfl
  | cons c calls ih =>
    rw [List.flatMap_cons, run_append, ← call_eq, ← ih]
    rfl

/-- Only the calls about a room come down to deeds that are done there. -/
theorem filter_flatMap_deeds (calls : List Call) :
    (calls.flatMap Call.deeds).filter (·.room = room) =
      (calls.filter (·.room = room)).flatMap Call.deeds := by
  induction calls with
  | nil => rfl
  | cons c calls ih =>
    -- A call and all that it comes down to are about one room, so that all of it stays or none.
    rw [List.flatMap_cons, List.filter_append, ih]
    by_cases here : c.room = room
    · have all : ∀ deed ∈ c.deeds, decide (deed.room = room) = true := by
        intro deed mem
        simpa [Call.room_of_mem_deeds mem] using here
      simp [here, List.filter_eq_self.mpr all]
    · have no : ∀ deed ∈ c.deeds, ¬ decide (deed.room = room) = true := by
        intro deed mem
        simpa [Call.room_of_mem_deeds mem] using here
      simp [here, List.filter_eq_nil_iff.mpr no]

end Chat

end ChatClient
