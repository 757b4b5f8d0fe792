import ChatClient.Proofs.Chat.Repetition
import ChatClient.Proofs.Wire.Demands
import ChatClient.Proofs.Wire.Meaning

/-!
# Whether a message can be found again

A frame can name the identifier of its message in two fields. Only if the first of them is missing
or empty, the second one is looked at; but neither counts if it is blank. So a first field that is
blank without being empty is not an identifier, and yet it keeps the second one from being looked
at. The message then goes into the log with an identifier that this client has made up, and whatever
the server says about it later is about no message at all.

Every other message that comes with an identifier can be found by it from then on. Whatever happens
in between, unless the log is replaced, an edit or a deletion that names the identifier concerns the
message and is announced.

## Main definitions

* `Wire.Frame.givenId?`: the identifier that the server has given to a message
* `Wire.Frame.smudged`: the first field is blank without being empty
* `Wire.Frame.Asks`: the frame asks for an amendment
* `Incoming.FoundBy`: the message can be found by the identifier

## Main results

* `Wire.Frame.ofText?_or`: what is read of the two fields
* `Chat.getElem?_callAll`: messages keep their places in the log
* `foundBy_iff`: which messages can be found by the identifier that they came with
-/

namespace ChatClient

namespace Wire.Frame

/-- The identifier that the server has given to the message: the first of the two fields that is not
blank. -/
def givenId? (f : Frame) : Option MessageId :=
  (f.id.bind (Ident.ofText? .message)).or (f.messageId.bind (Ident.ofText? .message))

/-- The first of the two fields is there and not empty, but blank. -/
def smudged (f : Frame) : Bool := f.id.any fun s => s != "" && !Text.hasInk s

/-- The frame asks that the messages with the identifier be amended. -/
inductive Asks (f : Frame) (id : MessageId) (now : Timestamp) : Amendment → Prop
  | edit {body : String} (event : f.event = Event.edit.name) (names : f.messageId = some id.text)
      (gives : f.message = some body) : f.Asks id now (.edit body now)
  | delete (event : f.event = Event.delete.name) (names : f.messageId = some id.text) :
      f.Asks id now .delete

end Wire.Frame

open Wire (Frame Event)

/-- Whoever the local user is and whatever is known already, the message goes into the log with the
identifier, and an edit or a deletion of the identifier finds it. -/
structure Incoming.FoundBy (m : Incoming) (id : MessageId) : Prop where
  /-- No identifier is made up for the message. -/
  named : (Inbound.message m).needsId = false
  arrives : ∀ (chat : Chat) (room : RoomId) (localUser : UserId) (now : Timestamp)
    (fresh : MessageId),
    let learnt := chat.apply room localUser (.message m) now fresh
    ∃ m', learnt.1.log room = chat.log room ++ [m'] ∧ m'.id = id ∧
      .appended room m' ∈ learnt.2
  /-- Other things may have happened since the message came. If nothing has, it is changed. -/
  amended : ∀ (chat : Chat) (room : RoomId) (localUser : UserId) (now : Timestamp)
    (fresh : MessageId) (calls : List Chat.Call) (f : Frame) (a : Amendment) (later : Timestamp)
    (localUser' : UserId) (fresh' : MessageId),
    (∀ messages, Chat.Call.deed (.replaceLog room messages) ∉ calls) → f.Asks id later a →
      ∃ event, Inbound.ofFrame f = .ok event ∧
        let met := chat.callAll (.apply localUser ⟨room, .message m, now, fresh⟩ :: calls)
        let learnt := met.apply room localUser' event later fresh'
        learnt.2 = [a.announcement room id] ∧
          ∃ m', (met.log room)[(chat.log room).length]? = some m' ∧ m'.id = id ∧
            (learnt.1.log room)[(chat.log room).length]? = some (m'.amend a) ∧
            (calls = [] → m'.amend a ≠ m')

/-! ## Frames -/

namespace Wire.Frame

variable {f : Frame}

/-- What is read of the two fields is the identifier that the server has given, unless the first one
is blank without being empty. -/
theorem ofText?_or (f : Frame) :
    ((Inbound.present f.id).or (Inbound.present f.messageId)).bind (Ident.ofText? .message) =
      if f.smudged then none else f.givenId? := by
  have second := Inbound.ident?_eq_bind .message f.messageId
  rw [Inbound.ident?] at second
  rw [smudged, givenId?]
  cases f.id with
  | none => exact second
  | some s =>
    by_cases empty : s = ""
    · subst empty
      exact second
    · -- The second field is not looked at, whether or not the first one holds an identifier.
      have here : Inbound.present (some s) = some s := by simp [Inbound.present, empty]
      rw [here, Option.some_or]
      by_cases ink : Text.hasInk s = true
      · simp [Ident.ofText?, ink]
      · simp [Ident.ofText?, ink, empty]

/-- What announces a message is understood as one, with the identifier that was read. -/
theorem exists_message_of_ofEvent {event : Event} {e : Inbound}
    (announces : event.isMessage = true) (accepted : Inbound.ofEvent event f = .ok e) :
    ∃ m, e = .message m ∧ m.id = if f.smudged then none else f.givenId? := by
  rw [← ofText?_or]
  cases event with
  | message | fileMessage =>
    obtain ⟨author, -, accepted⟩ := Inbound.demand_bind_eq_ok_iff.mp accepted
    obtain ⟨body, -, accepted⟩ := Inbound.demand_bind_eq_ok_iff.mp accepted
    obtain ⟨room, -, accepted⟩ := Inbound.demand_bind_eq_ok_iff.mp accepted
    cases accepted
    exact ⟨_, rfl, rfl⟩
  | edit | delete | typingStart | typingStop => cases announces

/-- A frame that asks for an amendment is understood so. -/
theorem Asks.exists_ofFrame {id : MessageId} {now : Timestamp} {a : Amendment}
    (asks : f.Asks id now a) :
    ∃ e, Inbound.ofFrame f = .ok e ∧
      ∀ room fresh, News.change? ⟨room, e, now, fresh⟩ = some (.amendment id a) := by
  rcases asks with ⟨event, names, gives⟩ | ⟨event, names⟩
  · refine ⟨.edited id _, ?_, fun _ _ => rfl⟩
    rw [Inbound.ofFrame_of_name event]
    simp only [Inbound.ofEvent, names, ident?_text, gives]
    rfl
  · refine ⟨.deleted id, ?_, fun _ _ => rfl⟩
    rw [Inbound.ofFrame_of_name event]
    simp only [Inbound.ofEvent, names, ident?_text]
    rfl

end Wire.Frame

/-! ## Places in a log -/

namespace Chat

variable {chat : Chat} {room : RoomId} {m : Message}

/-- A message keeps its place in the log, whatever becomes of it. -/
theorem getElem?_callAll {calls : List Call} {i : Nat}
    (kept : ∀ messages, Call.deed (.replaceLog room messages) ∉ calls)
    (here : (chat.log room)[i]? = some m) :
    ∃ m', ((chat.callAll calls).log room)[i]? = some m' ∧
      m.Amended (LogChange.amendments m.id (changes room (calls.flatMap Call.deeds))) m' := by
  have whole : ∀ messages,
      LogChange.replacement messages ∉ changes room (calls.flatMap Call.deeds) := by
    intro messages mem
    exact kept messages (replaceLog_mem_deeds (replacement_mem_changes mem))
  obtain ⟨bound, -⟩ := List.getElem?_eq_some_iff.mp here
  refine ⟨_, ?_, m.amended_foldl _⟩
  rw [log_callAll_eq, LogChange.foldl_applyTo whole, LogChange.entries, List.map_append,
    List.getElem?_append_left (by simpa using bound)]
  simp [here]

/-- A message that comes stands at the end of the log, and it is announced. -/
theorem Learns.placed {after : Chat} {localUser : UserId} {told : List ChatUpdate} {n : News}
    {incoming : Incoming} (h : chat.Learns localUser n after told)
    (comes : n.event = .message incoming) :
    after.log n.room = chat.log n.room ++ [incoming.place n.room n.now n.fresh] ∧
      .appended n.room (incoming.place n.room n.now n.fresh) ∈ told := by
  have does : n.change? = some (.arrival (incoming.place n.room n.now n.fresh)) := by
    rw [News.change?, comes]
  exact ⟨h.log_of_change does, h.mem_told_iff.mpr (.inl ⟨_, does, List.mem_singleton_self _⟩)⟩

/-- Whatever is amended is where it was, and it is announced. -/
theorem Learns.amended_at {after : Chat} {localUser : UserId} {told : List ChatUpdate} {n : News}
    {a : Amendment} (h : chat.Learns localUser n after told)
    (amends : n.change? = some (.amendment m.id a)) {i : Nat}
    (here : (chat.log n.room)[i]? = some m) :
    told = [a.announcement n.room m.id] ∧ (after.log n.room)[i]? = some (m.amend a) := by
  constructor
  · have there : (chat.log n.room).any (·.id == m.id) = true := by
      rw [List.any_eq_true]
      exact ⟨m, List.mem_of_getElem? here, beq_self_eq_true _⟩
    rw [h.told_of_amendment amends, LogChange.announcements, if_pos there]
  · rw [h.log_of_change amends, LogChange.applyTo, List.getElem?_map, here,
      Option.map_some, if_pos rfl]

end Chat

/-! ## Messages that are found -/

private theorem Incoming.foundBy_of_id {m : Incoming} {id : MessageId} (own : m.id = some id) :
    m.FoundBy id := by
  have id_eq : ∀ room now fresh, (m.place room now fresh).id = id := by
    intro room now fresh
    rw [place, own, Option.getD_some]
  constructor
  case named => rw [Inbound.needsId, own, Option.isNone_some]
  case arrives =>
    intro chat room localUser now fresh learnt
    have h : chat.Learns localUser ⟨room, .message m, now, fresh⟩ learnt.1 learnt.2 := rfl
    obtain ⟨log, told⟩ := h.placed rfl
    exact ⟨_, log, id_eq room now fresh, told⟩
  case amended =>
    intro chat room localUser now fresh calls f a later localUser' fresh' kept asks
    obtain ⟨event, understood, amends⟩ := asks.exists_ofFrame
    refine ⟨event, understood, ?_⟩
    intro met learnt
    -- The message comes to the end of the log, and there it stays.
    let first := chat.call (.apply localUser ⟨room, .message m, now, fresh⟩)
    have comes : chat.Learns localUser ⟨room, .message m, now, fresh⟩ first _ := rfl
    have last : (first.log room)[(chat.log room).length]? = some (m.place room now fresh) := by
      rw [(comes.placed rfl).1, List.getElem?_concat_length]
    obtain ⟨m', there, since⟩ := Chat.getElem?_callAll kept last
    have own' : m'.id = id := since.id.trans (id_eq room now fresh)
    -- The frame asks for it by the identifier that it has.
    have asked : met.Learns localUser' ⟨room, event, later, fresh'⟩ learnt.1 learnt.2 := rfl
    obtain ⟨told, changed⟩ := asked.amended_at (own' ▸ amends room fresh') there
    refine ⟨own' ▸ told, m', there, own', changed, ?_⟩
    rintro rfl
    obtain rfl := Option.some.inj (last.symm.trans there)
    exact (m.pristine_place room now fresh).amend_ne a

/-- A message that comes with an identifier can be found by it, unless the first field that may hold
it is blank without being empty. -/
theorem foundBy_iff {f : Frame} {e : Inbound} {id : MessageId}
    (announces : f.event = Event.message.name ∨ f.event = Event.fileMessage.name)
    (accepted : Inbound.ofFrame f = .ok e) (given : f.givenId? = some id) :
    ∃ m, e = .message m ∧ (m.FoundBy id ↔ f.smudged = false) := by
  obtain ⟨event, known, isMessage⟩ :
      ∃ event : Event, f.event = event.name ∧ event.isMessage = true := by
    rcases announces with known | known
    · exact ⟨.message, known, rfl⟩
    · exact ⟨.fileMessage, known, rfl⟩
  rw [Inbound.ofFrame_of_name known] at accepted
  obtain ⟨m, rfl, own⟩ := Frame.exists_message_of_ofEvent isMessage accepted
  refine ⟨m, rfl, ?_⟩
  -- A message without an identifier is found by none.
  cases smudge : f.smudged with
  | false =>
    rw [smudge, given] at own
    exact iff_of_true (Incoming.foundBy_of_id own) rfl
  | true =>
    rw [smudge] at own
    refine iff_of_false ?_ (Bool.false_ne_true ∘ Eq.symm)
    intro found
    have named := found.named
    rw [Inbound.needsId, own] at named
    cases named

/-! ### A detour

The identifier is in the second field. The first one is empty, and then a blank. -/

namespace Detour

def greeting (first : String) : Frame where
  event := "MSG"
  user := some "dora"
  message := some "hello"
  roomId := some "cellar"
  messageId := some "8"
  id := some first

def greets (id : Option MessageId) : Incoming := ⟨id, dora, none, "hello", false, none, none⟩

def erasure : Frame where
  event := "MSG_DELETE"
  messageId := some "8"

/-- An identifier that is made up. -/
def label : MessageId := ⟨"local-1", by decide⟩

end Detour

theorem foundBy_iff_detour :
    (Detour.greeting "").event = Event.message.name ∧
      Inbound.ofFrame (Detour.greeting "") = .ok (.message (Detour.greets (some Detour.slip))) ∧
      (Detour.greeting "").givenId? = some Detour.slip ∧
      ∃ m, Inbound.message (Detour.greets (some Detour.slip)) = .message m ∧
        (m.FoundBy Detour.slip ↔ (Detour.greeting "").smudged = false) := by
  have accepted : Inbound.ofFrame (Detour.greeting "") =
      .ok (.message (Detour.greets (some Detour.slip))) := by
    decide
  have given : (Detour.greeting "").givenId? = some Detour.slip := by decide
  exact ⟨rfl, accepted, given, foundBy_iff (.inl rfl) accepted given⟩

/-- With the blank, the message gets an identifier that is made up, and the deletion is lost. -/
theorem mislaid_detour :
    (Detour.greeting " ").givenId? = some Detour.slip ∧
      Inbound.ofFrame (Detour.greeting " ") = .ok (.message (Detour.greets none)) ∧
      Inbound.ofFrame Detour.erasure = .ok (.deleted Detour.slip) ∧
      let chat := (Chat.empty.apply Detour.cellar Detour.erik (.message (Detour.greets none)) .epoch
        Detour.label).1
      let learnt := chat.apply Detour.cellar Detour.erik (.deleted Detour.slip) ⟨1, 0⟩ Detour.label
      (chat.log Detour.cellar).map Message.id = [Detour.label] ∧
        learnt.1.log Detour.cellar = chat.log Detour.cellar ∧ learnt.2 = [] := by
  decide

end ChatClient
