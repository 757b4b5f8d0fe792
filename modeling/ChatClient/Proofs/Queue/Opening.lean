import ChatClient.Proofs.Message.Presentation
import ChatClient.Proofs.Queue.Survival

/-!
# Opening a file whatever is in it

A file in which an outbox is kept may hold anything by the time it is opened. If its content is a
list of entries, in whatever way it is written, these wait again. If it is any other text, nothing
waits, and the text is replaced as soon as the next entry comes. But if the bytes are no text at
all, the file is not opened: they fail on the way to the reader and not in it.

## Main definitions

* `Content.IsText`: the bytes are those of a text
* `Outbox.Stores`: the content is a list of entries
* `Outbox.Opens`: what is promised of a file that can be read

## Main results

* `stores_ofText_iff`: the entries that are found in a content
* `exists_opens_of_isText`, `load_of_not_isText`: texts are opened, and nothing else
* `opens_iff`
-/

namespace ChatClient

/-- The bytes are those of a text. -/
def Content.IsText (content : Content) : Prop := ∃ s, content = Content.ofText s

private theorem Content.text?_eq_some_iff {content : Content} {s : String} :
    content.text? = some s ↔ content = Content.ofText s := by
  constructor
  · intro h
    rw [text?, String.fromUTF8?] at h
    split at h
    · rw [← Option.some.inj h]
      rfl
    · cases h
  · rintro rfl
    exact text?_ofText s

private theorem Content.text?_eq_none_iff {content : Content} :
    content.text? = none ↔ ¬ content.IsText := by
  constructor
  · rintro none_ ⟨s, rfl⟩
    rw [text?_ofText] at none_
    cases none_
  · intro other
    cases text : content.text? with
    | none => rfl
    | some s => exact absurd ⟨s, text?_eq_some_iff.mp text⟩ other

private theorem Content.ofText_injective {s s' : String}
    (same : Content.ofText s = Content.ofText s') :
    s = s' := by
  have texts := congrArg Content.text? same
  rw [text?_ofText, text?_ofText] at texts
  exact Option.some.inj texts

namespace Outbox

/-- The content is a list of these entries, in some way to write it. -/
def Stores (content : Content) (es : List QueueEntry) : Prop :=
  ∃ s : String, content = Content.ofText s ∧ QueueEntry.AreWritten es s.toList

/-- What is promised of a file with this content: an outbox is made of it. -/
structure Opens (p : Path) (content : Content) (q : Outbox) : Prop where
  file : q.file = some p
  /-- The entries that the content is a list of wait again. -/
  entries : ∀ es, Stores content es → q.entries = es
  /-- If it is no list of entries, nothing waits. -/
  nothing : (¬ ∃ es, Stores content es) → q.entries = []
  /-- The next entry comes behind them. If the file can be written then, whatever has become of it,
  it holds all of them and is opened with them. -/
  next : ∀ d d' e, (q.enqueue d e).2 = (d', .ok ()) →
    d'.tree.read p = .ok (stored (q.entries ++ [e])) ∧
      load d'.tree p = .ok { entries := q.entries ++ [e], file := some p }

/-- The entries of a content are those that are read from its text. -/
theorem stores_ofText_iff {s : String} {es : List QueueEntry} :
    Stores (Content.ofText s) es ↔ QueueEntry.readAll s = .ok es := by
  rw [QueueEntry.readAll_eq_ok_iff]
  constructor
  · rintro ⟨s', same, written⟩
    rw [Content.ofText_injective same]
    exact written
  · intro written
    exact ⟨s, rfl, written⟩

/-- What is written next is the whole of the outbox. -/
theorem read_of_enqueue {q : Outbox} {p : Path} (file : q.file = some p) {d d' : Disk}
    {e : QueueEntry} (written : (q.enqueue d e).2 = (d', .ok ())) :
    d'.tree.read p = .ok (stored (q.entries ++ [e])) ∧
      load d'.tree p = .ok { entries := q.entries ++ [e], file := some p } := by
  have saved : ({ q with entries := q.entries ++ [e] } : Outbox).save d = (d', .ok ()) := written
  rw [save, file] at saved
  obtain ⟨t₁, t₂, whole⟩ := Disk.rewrites_of_run saved
  exact ⟨whole.read_whole, load_of_read whole.read_whole⟩

section Opening

variable {t : Tree} {p : Path} {content : Content} (read : t.read p = .ok content)
include read

/-- A text is opened. If it is no list of entries, it is as if nothing were in the file. -/
theorem exists_opens_of_isText (isText : content.IsText) :
    ∃ q, load t p = .ok q ∧ Opens p content q := by
  obtain ⟨s, rfl⟩ := isText
  cases found : QueueEntry.readAll s with
  | ok es =>
    refine ⟨{ entries := es, file := some p }, ?_, ?_⟩
    · simp [load, read, entriesOf, found, Except.map]
    · refine ⟨rfl, fun es' stores => ?_, fun none_ => ?_, fun d d' e => read_of_enqueue rfl⟩
      · rw [stores_ofText_iff, found] at stores
        exact Except.ok.inj stores
      · exact absurd ⟨es, stores_ofText_iff.mpr found⟩ none_
  | error problem =>
    refine ⟨{ file := some p }, ?_, ?_⟩
    · simp [load, read, entriesOf, found, Except.map]
    · refine ⟨rfl, fun es stores => ?_, fun _ => rfl, fun d d' e => read_of_enqueue rfl⟩
      rw [stores_ofText_iff, found] at stores
      cases stores

/-- Bytes that are no text are refused before anyone looks for entries in them. -/
theorem load_of_not_isText (other : ¬ content.IsText) : load t p = .error .notUtf8 := by
  rw [load, read]
  simp only [entriesOf, Content.text?_eq_none_iff.mpr other]
  rfl

/-- A file that can be read is opened as promised exactly if its content is a text. -/
theorem opens_iff :
    ((∃ q, load t p = .ok q ∧ Opens p content q) ↔ content.IsText) ∧
      (¬ content.IsText → load t p = .error .notUtf8) := by
  refine ⟨⟨?_, exists_opens_of_isText read⟩, load_of_not_isText read⟩
  rintro ⟨q, opened, -⟩
  by_contra other
  rw [load_of_not_isText read other] at opened
  cases opened

end Opening

end Outbox

/-! ### A detour

Someone has written a letter by hand and put it into the drawer. Later a mouse has been there. -/

namespace Detour

/-- The kind is an object, the letter has no reply and a strange member, and its parts are out of
order. -/
def handwritten : String :=
  " [ \x7b\"payload\":\x7b\"body\":\"f\\u0069rst\",\"reply\":null,\"ink\":[\"blue\",2]," ++
  "\"room_id\":\"desk\",\"author\":\"bob\",\"kind\":\x7b\"text\":null\x7d\x7d," ++
  "\"room\":\"desk\"\x7d ]\n"

def bureau : Tree := ⟨[(["drawer.json"], .file (Content.ofText handwritten))]⟩

def nibbled : Tree := ⟨[(["drawer.json"], .file [0xff])]⟩

end Detour

theorem opens_iff_detour :
    let content := Content.ofText Detour.handwritten
    Detour.bureau.read Detour.drawer = .ok content ∧
      Outbox.Stores content [Detour.letter "first"] ∧
      ((∃ q, Outbox.load Detour.bureau Detour.drawer = .ok q ∧
          Outbox.Opens Detour.drawer content q) ↔
        content.IsText) ∧
      (¬ content.IsText → Outbox.load Detour.bureau Detour.drawer = .error .notUtf8) := by
  intro content
  have read : Detour.bureau.read Detour.drawer = .ok content := rfl
  have stores : Outbox.Stores content [Detour.letter "first"] :=
    Outbox.stores_ofText_iff.mpr (by decide +kernel)
  exact ⟨read, stores, Outbox.opens_iff read⟩

/-- The byte 255 begins no character. The file can be read, but it is not opened. -/
theorem nibbles_detour :
    Detour.nibbled.read Detour.drawer = .ok [0xff] ∧
      Outbox.load Detour.nibbled Detour.drawer = .error .notUtf8 := by
  refine ⟨rfl, ?_⟩
  decide +kernel

end ChatClient
