import ChatClient.Proofs.Chat.Repetition
import ChatClient.Terminal.Display

/-!
# What is shown of a file

A message that announces a file comes with its address twice, as the address of the file and as the
text of the message. What is shown behind the mark of a file is the text. An edit replaces the text
and leaves the address where it is, so that from then on something else may stand behind the mark,
and the address is not shown at all. A later edit may bring the address back, and a deletion takes
the mark away.

So it can be told from what has happened to a message whether its file is still shown: exactly if it
has been deleted, or if it has not been edited last with another text than the address.

## Main definitions

* `Message.ShowsFile`: what stands behind the mark of a file is its address
* `Message.StaysShown`: it still does after a row of amendments

## Main results

* `Message.showsFile_iff_display`: what the mark means for what is shown
* `Message.showsFile_iff_staysShown`: one message, by what has happened to it
* `Chat.showsFile_iff`: the log of a chat that has only heard news
-/

namespace ChatClient

namespace Message

/-- The text of a file that is still there is its address. -/
def ShowsFile (m : Message) : Prop :=
  m.deleted = false → ∀ url, m.fileUrl = some url → m.body = url

/-- The message announces no file, or it is deleted later, or the last edit, if there is one, has
the text that the message came with. -/
def StaysShown (m : Message) (later : List Amendment) : Prop :=
  m.isFile = true → Amendment.delete ∈ later ∨
    ∀ text now, later.getLast? = some (.edit text now) → text = m.body

/-- What stands behind the mark is what is meant by it. -/
theorem showsFile_iff_display (m : Message) :
    m.ShowsFile ↔
      (m.deleted = false → ∀ url, m.fileUrl = some url → Display.body m = "[file] " ++ url) := by
  refine imp_congr_right fun there => forall₂_congr fun url file => ?_
  have marked : Display.body m = "[file] " ++ m.body := by simp [Display.body, isFile, there, file]
  rw [marked, String.append_right_inj]

/-- A message that came with the address of its file as its text shows the file as long as its
history lets it. -/
theorem showsFile_iff_staysShown {m m' : Message} {later : List Amendment} (pristine : m.Pristine)
    (came : m.ShowsFile) (amended : m.Amended later m') : m'.ShowsFile ↔ m.StaysShown later := by
  have gone : m'.deleted = false ↔ Amendment.delete ∉ later := by
    rw [← Bool.not_eq_true, amended.deleted, pristine.deleted]
    simp
  rw [ShowsFile, gone, amended.fileUrl, StaysShown, isFile]
  cases file : m.fileUrl with
  | none => simp
  | some url =>
    obtain rfl := came pristine.deleted url file
    simp only [Option.some.injEq, forall_eq', Option.isSome_some, forall_const, or_iff_not_imp_left]
    refine imp_congr_right fun there => ?_
    -- Nothing but edits has come, and the last of them says what the text is.
    rw [amended.body]
    cases last : later.getLast? with
    | none => simp
    | some a =>
      cases a with
      | edit text now => simp [Amendment.text]
      | delete => exact absurd (List.mem_of_getLast? last) there

end Message

private theorem Incoming.showsFile_place (m : Incoming) (room : RoomId) (now : Timestamp)
    (fresh : MessageId) :
    (m.place room now fresh).ShowsFile := by
  intro _ url file
  simp only [place, Option.ite_none_right_eq_some, Option.some.injEq] at file
  exact file.2

private theorem News.showsFile_of_arrival {room : RoomId} {news : List News} {m : Message}
    (mem : .arrival m ∈ changes room news) : m.ShowsFile := by
  obtain ⟨⟨room, event, now, fresh⟩, -, does⟩ := List.mem_filterMap.mp mem
  cases event <;> cases does
  exact Incoming.showsFile_place _ room now fresh

namespace Chat

/-- If a chat has only heard news, a file that is in the log and has not been deleted is shown
exactly as long as the last edit of its message, if there was one, has the text that the message
came with. All files of a room are shown exactly if this is so for each of them. -/
theorem showsFile_iff (past : List (UserId × News)) (room : RoomId) :
    let arrivals := LogChange.arrivals (News.changes room (past.map Prod.snd))
    List.Forall₂ (fun entry m => entry.1.Amended entry.2 m ∧
        (m.ShowsFile ↔ entry.1.StaysShown entry.2) ∧
        (m.ShowsFile ↔ (m.deleted = false → ∀ url, m.fileUrl = some url →
          Display.body m = "[file] " ++ url)))
      arrivals ((heard past).log room) ∧
    ((∀ m ∈ (heard past).log room, m.ShowsFile) ↔
      ∀ entry ∈ arrivals, entry.1.StaysShown entry.2) := by
  intro arrivals
  have single : ∀ entry ∈ arrivals,
      (entry.2.foldl Message.amend entry.1).ShowsFile ↔ entry.1.StaysShown entry.2 := by
    intro entry mem
    have arrived := LogChange.arrival_of_mem_arrivals mem
    exact Message.showsFile_iff_staysShown (News.pristine_of_arrival arrived)
      (News.showsFile_of_arrival arrived) (entry.1.amended_foldl entry.2)
  rw [log_heard]
  constructor
  · refine List.forall₂_map_right_iff.mpr (List.forall₂_same.mpr fun entry mem => ?_)
    exact ⟨entry.1.amended_foldl entry.2, single entry mem, Message.showsFile_iff_display _⟩
  · rw [List.forall_mem_map]
    exact forall₂_congr single

end Chat

/-! ### A detour

The portrait of a cat gets a caption. -/

namespace Detour

def portrait : String := "/files/cat.png"

def captioned : List (UserId × News) := [
  (erik, hearsay (.message ⟨some slip, dora, none, portrait, true, none, none⟩)),
  (erik, hearsay (.edited slip "my cat"))]

end Detour

/-- Behind the mark stands the caption, and the portrait is nowhere to be found. -/
theorem hides_detour :
    ((Chat.heard Detour.captioned).log Detour.cellar).map
        (fun m => (m.deleted, m.fileUrl, m.body, Display.body m)) =
      [(false, some Detour.portrait, "my cat", "[file] my cat")] := by
  decide

end ChatClient
