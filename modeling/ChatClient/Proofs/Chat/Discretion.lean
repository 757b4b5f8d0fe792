import ChatClient.Proofs.Chat.Deeds
import ChatClient.Terminal.Display
import Mathlib.Data.List.Forall2

/-!
# What deleted messages do not tell

A deletion replaces the text of a message, but the address of a file stays where it is, and so the
log still tells whether the message was one. Nobody gets to see this. Two chats are compared here
that are the same but for what some message says. When that message has been deleted in both of
them, nothing that is done later can make them look different.

Two messages look alike if they are equal, or if they are deleted and equal but for the address.
That is all that is left of the difference after the deletion, and every amendment keeps it so, also
an edit of the deleted message.

## Main definitions

* `Message.SameButContent`: two messages that differ only in what they say
* `Message.LooksLike`: two messages that differ only in what is not shown
* `Chat.DiffersIn`: two chats that differ only in what some message of a room says

## Main results

* `Message.LooksLike.amend`: messages that look alike do so after every amendment
* `Chat.shown_delete_callAll`: what a deleted message said is neither shown nor quoted
-/

namespace ChatClient

namespace Message

/-- The messages differ at most in what they say, and in whether it is a file. -/
def SameButContent (m m' : Message) : Prop :=
  m' = { m with body := m'.body, fileUrl := m'.fileUrl }

/-- The messages differ at most in the address of a file that has been deleted. -/
inductive LooksLike : Message → Message → Prop
  | refl (m : Message) : LooksLike m m
  | deleted {m : Message} (deleted : m.deleted = true) (url : Option String) :
      LooksLike m { m with fileUrl := url }

private theorem SameButContent.looksLike_delete {m m' : Message} (h : m.SameButContent m') :
    m.delete.LooksLike m'.delete := by
  have same : m'.delete = { m.delete with fileUrl := m'.fileUrl } := by
    rw [h]
    rfl
  rw [same]
  exact .deleted rfl _

namespace LooksLike

variable {m m' : Message} (h : m.LooksLike m')
include h

/-- Messages that look alike have the same identifier. -/
theorem id_eq : m'.id = m.id := by cases h <;> rfl

/-- They go on to look alike, whatever is done to both. -/
theorem amend (a : Amendment) : (m.amend a).LooksLike (m'.amend a) := by
  cases h with
  | refl => exact .refl _
  | deleted deleted url =>
    -- An edit keeps the mark of the deletion, and a deletion sets it again.
    cases a with
    | edit body now => exact .deleted (m := m.edit body now) deleted url
    | delete => exact .deleted (m := m.delete) rfl url

/-- On the screen they are the same. -/
theorem line_eq (offset : Int) : Display.line m' offset = Display.line m offset := by
  cases h with
  | refl => rfl
  | deleted deleted url => simp [Display.line, Display.body, Display.authorName, deleted]

private theorem reply_eq : m'.reply = m.reply := by cases h <;> rfl

private theorem message_eq (offset : Int) :
    Display.message m' offset = Display.message m offset := by
  simp only [Display.message, h.reply_eq, h.line_eq, h.id_eq]

private theorem edited_eq (offset : Int) : Display.edited m' offset = Display.edited m offset := by
  rw [Display.edited, Display.edited, h.line_eq]

private theorem replyTo_eq : Reply.to m' = Reply.to m := by cases h <;> rfl

end LooksLike

end Message

/-! ## Logs -/

section Logs

variable {log log' : List Message} (alike : List.Forall₂ Message.LooksLike log log')
include alike

/-- Logs that look alike do so after every change. -/
theorem LogChange.looksLike_applyTo (change : LogChange) :
    List.Forall₂ Message.LooksLike (change.applyTo log) (change.applyTo log') := by
  cases change with
  | arrival m => exact List.rel_append alike (.cons (.refl m) .nil)
  | amendment id a =>
    refine List.forall₂_map_left_iff.2 (List.forall₂_map_right_iff.2 (alike.imp fun m m' h => ?_))
    simp only [h.id_eq]
    split
    · exact h.amend a
    · exact h
  | replacement messages => exact List.forall₂_same.2 fun m _ => .refl m

private theorem LogChange.looksLike_foldl (changes : List LogChange) :
    List.Forall₂ Message.LooksLike (changes.foldl LogChange.applyTo log)
      (changes.foldl LogChange.applyTo log') := by
  induction changes generalizing log log' with
  | nil => exact alike
  | cons change changes ih => exact ih (change.looksLike_applyTo alike)

/-- Whatever looks the same on messages that look alike does so on the logs. -/
theorem map_eq_of_looksLike {β : Type} (shown : Message → β)
    (same : ∀ {m m' : Message}, m.LooksLike m' → shown m' = shown m) :
    log.map shown = log'.map shown := by
  induction alike with
  | nil => rfl
  | cons first _ ih => rw [List.map_cons, List.map_cons, same first, ih]

private theorem joined_eq_of_looksLike (room : RoomId) (offset : Int) :
    Display.joined room log offset = Display.joined room log' offset := by
  have lines := map_eq_of_looksLike alike (fun m => Display.line m offset ++ "\n")
    fun h => by rw [h.line_eq]
  have empty : log.isEmpty = log'.isEmpty := by cases alike <;> rfl
  rw [Display.joined, Display.joined, empty, lines]

end Logs

/-! ## Chats -/

namespace Chat

/-- The chats differ at most in what the messages with the identifier say in the room. -/
def DiffersIn (chat : Chat) (room : RoomId) (id : MessageId) (chat' : Chat) : Prop :=
  ∀ other, List.Forall₂ (fun m m' => m = m' ∨ other = room ∧ m.id = id ∧ m.SameButContent m')
    (chat.log other) (chat'.log other)

variable {chat chat' : Chat} {room : RoomId} {id : MessageId}

/-- The deletion leaves no difference that is shown. -/
theorem DiffersIn.looksLike_delete (h : chat.DiffersIn room id chat') (other : RoomId) :
    List.Forall₂ Message.LooksLike ((chat.delete room id).1.log other)
      ((chat'.delete room id).1.log other) := by
  have differs := h other
  by_cases here : other = room
  · subst here
    simp only [delete, log_modify]
    refine List.forall₂_map_left_iff.2 (List.forall₂_map_right_iff.2 (differs.imp fun m m' h => ?_))
    rcases h with rfl | ⟨-, rfl, same⟩
    · exact .refl _
    · have id_eq : m'.id = m.id := by rw [same]
      simpa [id_eq] using same.looksLike_delete
  · simp only [delete, log_modify_of_ne _ here]
    refine differs.imp fun m m' h => ?_
    rcases h with rfl | ⟨here', -⟩
    · exact .refl _
    · exact absurd here' here

/-- Neither the log of any room nor a message in it nor the answer to one shows what a deleted
message said, or whether it was a file, whatever is done after the deletion. -/
theorem shown_delete_callAll (differs : chat.DiffersIn room id chat') (calls : List Call)
    (other : RoomId) (offset : Int) :
    let log := ((chat.delete room id).1.callAll calls).log other
    let log' := ((chat'.delete room id).1.callAll calls).log other
    Display.joined other log offset = Display.joined other log' offset ∧
      log.map (Display.edited · offset) = log'.map (Display.edited · offset) ∧
      log.map (Display.message · offset) = log'.map (Display.message · offset) ∧
      log.map Reply.to = log'.map Reply.to := by
  intro log log'
  have alike : List.Forall₂ Message.LooksLike log log' := by
    simp only [log, log', callAll_eq, log_run]
    exact LogChange.looksLike_foldl (differs.looksLike_delete other) _
  exact ⟨joined_eq_of_looksLike alike other offset,
    map_eq_of_looksLike alike _ fun h => h.edited_eq offset,
    map_eq_of_looksLike alike _ fun h => h.message_eq offset,
    map_eq_of_looksLike alike _ fun h => h.replyTo_eq⟩

end Chat

/-! ### A detour

A picture has been deleted. Then the message is edited, and someone writes another one with the same
identifier. -/

namespace Detour

def gallery : RoomId := ⟨"gallery", by decide⟩

def picture (body : String) (fileUrl : Option String) : Message where
  id := ⟨"9", by decide⟩
  roomId := gallery
  author := ⟨"painter", by decide⟩
  body := body
  fileUrl := fileUrl
  createdAt := .epoch

/-- A room in which the picture hangs. -/
def hung (m : Message) : Chat := Chat.empty.append gallery m

def secondThoughts : List Chat.Call := [
  .deed (.edit gallery (picture "" none).id "never mind" ⟨1, 0⟩),
  .apply (picture "" none).author
    { room := gallery
      event :=
        .message ⟨some (picture "" none).id, ⟨"visitor", by decide⟩, none, "x", true, none, none⟩
      now := ⟨2, 0⟩
      fresh := (picture "" none).id }]

end Detour

theorem shown_delete_callAll_detour :
    let chat := Detour.hung (Detour.picture "https://a.example/cat" (some "https://a.example/cat"))
    let chat' := Detour.hung (Detour.picture "a secret" none)
    let id := (Detour.picture "" none).id
    let log := ((chat.delete Detour.gallery id).1.callAll Detour.secondThoughts).log Detour.gallery
    let log' :=
      ((chat'.delete Detour.gallery id).1.callAll Detour.secondThoughts).log Detour.gallery
    chat.DiffersIn Detour.gallery id chat' ∧ log ≠ log' ∧
      Display.joined Detour.gallery log 0 = Display.joined Detour.gallery log' 0 ∧
      log.map (Display.edited · 0) = log'.map (Display.edited · 0) ∧
      log.map (Display.message · 0) = log'.map (Display.message · 0) ∧
      log.map Reply.to = log'.map Reply.to := by
  intro chat chat' id log log'
  have differs : chat.DiffersIn Detour.gallery id chat' := by
    intro other
    by_cases here : other = Detour.gallery
    · subst here
      exact .cons (.inr ⟨rfl, rfl, rfl⟩) .nil
    · simp [chat, chat', Detour.hung, Chat.log_append_of_ne _ here]
  exact ⟨differs, by decide, Chat.shown_delete_callAll differs Detour.secondThoughts _ 0⟩

end ChatClient
