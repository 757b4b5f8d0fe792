import ChatClient.Proofs.Chat.Deeds
import Mathlib.Data.List.Forall2
import Mathlib.Data.List.Induction

/-!
# What the log of a room remembers

Messages only ever come to the end of a log, so that the log of a room is a list of those that have
come, in their order. What a message has become since it came depends on nothing but the edits and
deletions with its identifier that came after it. An edit that comes before its message is lost, and
one whose identifier two messages have concerns both, but each of them only from the time on when it
is there.

A message can be deleted and edited in any order. It stays deleted and edited, and the last one to
come says what its text is.

## Main definitions

* `LogChange.amendments`: the edits and deletions with an identifier
* `LogChange.entries`: the messages of a log, each with what happened to it since it came
* `Message.Amended`: what has become of a message

## Main results

* `LogChange.foldl_applyTo`: a log that is never replaced has one message for each of its entries
* `Message.amended_foldl`: what becomes of a message by a row of amendments
* `Chat.log_callAll`: the log of a room after any row of calls
-/

namespace ChatClient

namespace Amendment

/-- The text that a message has right after the amendment. -/
def text : Amendment → String
  | edit body _ => body
  | delete => Message.deletedBody

/-- A deletion does not count as a change of the text. -/
def time? : Amendment → Option Timestamp
  | edit _ now => some now
  | delete => none

end Amendment

/-- What has become of a message by amendments that came one after the other. -/
structure Message.Amended (m : Message) (later : List Amendment) (m' : Message) : Prop where
  id : m'.id = m.id
  roomId : m'.roomId = m.roomId
  author : m'.author = m.author
  displayName : m'.displayName = m.displayName
  createdAt : m'.createdAt = m.createdAt
  fileUrl : m'.fileUrl = m.fileUrl
  reply : m'.reply = m.reply
  deleted : m'.deleted = true ↔ m.deleted = true ∨ Amendment.delete ∈ later
  edited : m'.edited = true ↔ m.edited = true ∨ ∃ body now, Amendment.edit body now ∈ later
  /-- The time of the last edit, if there was one. -/
  updatedAt : m'.updatedAt = (later.filterMap Amendment.time?).getLast?.or m.updatedAt
  /-- The text of the last edit or deletion, if there was one. -/
  body : m'.body = (later.getLast?.map Amendment.text).getD m.body

private theorem Message.amended_nil (m : Message) : m.Amended [] m := by
  constructor <;> simp

/-- What is done to a message last is done to what it has become. -/
theorem Message.Amended.concat {m m' : Message} {later : List Amendment} (h : m.Amended later m')
    (a : Amendment) : m.Amended (later ++ [a]) (m'.amend a) := by
  -- An edit sets the text and the time, a deletion the text only. All else stays as it was.
  cases a with
  | edit body now =>
    exact {
      id := h.id
      roomId := h.roomId
      author := h.author
      displayName := h.displayName
      createdAt := h.createdAt
      fileUrl := h.fileUrl
      reply := h.reply
      deleted := by simpa [Message.amend, Message.edit] using h.deleted
      edited := iff_of_true rfl (.inr ⟨body, now, List.mem_concat_self⟩)
      updatedAt := by simp [Message.amend, Message.edit, Amendment.time?]
      body := by simp [Message.amend, Message.edit, Amendment.text] }
  | delete =>
    exact {
      id := h.id
      roomId := h.roomId
      author := h.author
      displayName := h.displayName
      createdAt := h.createdAt
      fileUrl := h.fileUrl
      reply := h.reply
      deleted := by simp [Message.amend, Message.delete]
      edited := by simpa [Message.amend, Message.delete] using h.edited
      updatedAt := by simpa [Message.amend, Message.delete, Amendment.time?] using h.updatedAt
      body := by simp [Message.amend, Message.delete, Amendment.text] }

/-- What becomes of a message by a row of amendments. -/
theorem Message.amended_foldl (m : Message) (later : List Amendment) :
    m.Amended later (later.foldl Message.amend m) := by
  induction later using List.reverseRecOn with
  | nil => exact m.amended_nil
  | append_singleton later a ih =>
    rw [List.foldl_append]
    exact ih.concat a

namespace LogChange

/-- The change amends the messages with the identifier. -/
def amendment? (id : MessageId) : LogChange → Option Amendment
  | amendment id' a => if id' = id then some a else none
  | arrival _ | replacement _ => none

/-- What happens to the messages with the identifier. -/
def amendments (id : MessageId) (changes : List LogChange) : List Amendment :=
  changes.filterMap (amendment? id)

/-- The messages that come, each with what happens to it afterwards. -/
def arrivals : List LogChange → List (Message × List Amendment)
  | [] => []
  | arrival m :: later => (m, amendments m.id later) :: arrivals later
  | amendment _ _ :: later | replacement _ :: later => arrivals later

/-- The messages that are there and those that come, each with what happens to it from then on. -/
def entries (log : List Message) (changes : List LogChange) : List (Message × List Amendment) :=
  log.map (fun m => (m, amendments m.id changes)) ++ arrivals changes

private theorem amendments_cons (id : MessageId) (change : LogChange) (later : List LogChange) :
    amendments id (change :: later) = (change.amendment? id).toList ++ amendments id later := by
  cases amended : change.amendment? id <;> simp [amendments, amended]

/-- A log that is never replaced has one message for each entry. -/
theorem foldl_applyTo {changes : List LogChange} (kept : ∀ messages, replacement messages ∉ changes)
    (log : List Message) :
    changes.foldl applyTo log = (entries log changes).map fun e => e.2.foldl Message.amend e.1 := by
  induction changes generalizing log with
  | nil => simp [entries, amendments, arrivals, Function.comp_def]
  | cons change later ih =>
    have keptLater : ∀ messages, replacement messages ∉ later := by
      intro messages mem
      exact kept messages (List.mem_cons_of_mem _ mem)
    rw [List.foldl_cons, ih keptLater]
    cases change with
    | arrival m => simp [entries, arrivals, applyTo, amendments_cons, amendment?]
    | amendment id a =>
      -- The messages that are there have one amendment more; those still to come have not.
      have old : ∀ m : Message,
          (amendments (if m.id = id then m.amend a else m).id later).foldl Message.amend
              (if m.id = id then m.amend a else m) =
            (amendments m.id (amendment id a :: later)).foldl Message.amend m := by
        intro m
        by_cases same : m.id = id
        · simp [amendments_cons, amendment?, same]
        · simp [amendments_cons, amendment?, same, Ne.symm same]
      simp only [entries, arrivals, applyTo, List.map_append, List.map_map]
      congr 1
      exact List.map_congr_left fun m _ => old m
    | replacement messages => exact absurd List.mem_cons_self (kept messages)

end LogChange

namespace Chat

variable {chat : Chat} {room : RoomId}

/-- Only a deed that replaces a log is a replacement among the changes. -/
theorem replacement_mem_changes {deeds : List Deed} {messages : List Message}
    (replaced : LogChange.replacement messages ∈ changes room deeds) :
    Deed.replaceLog room messages ∈ deeds := by
  obtain ⟨deed, found, change⟩ := List.mem_filterMap.mp replaced
  obtain ⟨mem, here⟩ := List.mem_filter.mp found
  cases deed with
  | replaceLog room' messages' =>
    obtain rfl : room' = room := of_decide_eq_true here
    obtain rfl : messages' = messages := by simpa [Deed.change?] using change
    exact mem
  | _ => simp [Deed.change?] at change

/-- News never replaces a log. -/
theorem replaceLog_mem_deeds {calls : List Call} {messages : List Message}
    (mem : Deed.replaceLog room messages ∈ calls.flatMap Call.deeds) :
    Call.deed (.replaceLog room messages) ∈ calls := by
  obtain ⟨call, found, mem⟩ := List.mem_flatMap.mp mem
  cases call with
  | deed d => exact List.mem_singleton.mp mem ▸ found
  | apply localUser news =>
    obtain ⟨room', event, now, fresh⟩ := news
    cases event <;> simp [Call.deeds, News.deeds] at mem

/-- All that the log depends on is what is done to it. -/
theorem log_callAll_eq (calls : List Call) :
    (chat.callAll calls).log room =
      (changes room (calls.flatMap Call.deeds)).foldl LogChange.applyTo (chat.log room) := by
  rw [callAll_eq, log_run]

/-- What is done in other rooms does not change the log. -/
theorem log_callAll_filter (calls : List Call) :
    (chat.callAll (calls.filter (·.room = room))).log room = (chat.callAll calls).log room := by
  rw [log_callAll_eq, log_callAll_eq, changes, changes, ← filter_flatMap_deeds]
  simp

/-- Unless the log of a room is replaced, it afterwards has one message for each that was there and
each that came, in this order; and what has become of a message depends on nothing but the edits and
deletions with its identifier that came after it. What is done in other rooms does not matter. -/
theorem log_callAll {calls : List Call}
    (kept : ∀ messages, Call.deed (.replaceLog room messages) ∉ calls) :
    List.Forall₂ (fun entry m => entry.1.Amended entry.2 m)
        (LogChange.entries (chat.log room) (changes room (calls.flatMap Call.deeds)))
        ((chat.callAll calls).log room) ∧
      (chat.callAll (calls.filter (·.room = room))).log room = (chat.callAll calls).log room := by
  constructor
  · -- Only a call that replaces the log comes down to a replacement.
    have whole : ∀ messages,
        LogChange.replacement messages ∉ changes room (calls.flatMap Call.deeds) := by
      intro messages mem
      exact kept messages (replaceLog_mem_deeds (replacement_mem_changes mem))
    rw [log_callAll_eq, LogChange.foldl_applyTo whole, List.forall₂_map_right_iff]
    exact List.forall₂_same.mpr fun entry _ => entry.1.amended_foldl entry.2
  · exact log_callAll_filter calls

end Chat

/-! ### A detour

An edit comes too early, two messages have the same identifier, and another room is emptied. -/

namespace Detour

def parlor : RoomId := ⟨"parlor", by decide⟩

def yard : RoomId := ⟨"yard", by decide⟩

def remark (body : String) : Message where
  id := ⟨"1", by decide⟩
  roomId := parlor
  author := ⟨"carol", by decide⟩
  body := body
  createdAt := .epoch

def chatter : List Chat.Call := [
  .deed (.edit parlor (remark "").id "too early" ⟨1, 0⟩),
  .deed (.receive parlor (remark "one")),
  .deed (.edit parlor (remark "").id "once" ⟨2, 0⟩),
  .deed (.replaceLog yard []),
  .apply (remark "").author
    { room := parlor
      event := .message ⟨none, (remark "").author, none, "two", true, none, none⟩
      now := ⟨3, 0⟩
      fresh := (remark "").id },
  .deed (.delete parlor (remark "").id)]

end Detour

theorem log_callAll_detour :
    (∀ messages, Chat.Call.deed (.replaceLog Detour.parlor messages) ∉ Detour.chatter) ∧
      List.Forall₂ (fun entry m => entry.1.Amended entry.2 m)
        (LogChange.entries (Chat.empty.log Detour.parlor)
          (Chat.changes Detour.parlor (Detour.chatter.flatMap Chat.Call.deeds)))
        ((Chat.empty.callAll Detour.chatter).log Detour.parlor) ∧
      (Chat.empty.callAll (Detour.chatter.filter (·.room = Detour.parlor))).log Detour.parlor =
        (Chat.empty.callAll Detour.chatter).log Detour.parlor := by
  have kept : ∀ messages,
      Chat.Call.deed (.replaceLog Detour.parlor messages) ∉ Detour.chatter := by
    intro messages mem
    have elsewhere : Detour.parlor ≠ Detour.yard := by decide
    simp [Detour.chatter, elsewhere] at mem
  exact ⟨kept, Chat.log_callAll kept⟩

example : ((Chat.empty.callAll Detour.chatter).log Detour.parlor).map
      (fun m => (m.body, m.edited, m.deleted, m.updatedAt)) =
    [(Message.deletedBody, true, true, some ⟨2, 0⟩), (Message.deletedBody, false, true, none)] := by
  decide

end ChatClient
