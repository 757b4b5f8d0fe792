import ChatClient.Wire.Inbound
import Mathlib.Logic.Basic

/-!
# What the events call for

Every event calls for some fields of its frame. They are looked at in a fixed order, and the first
one that does not do is named by the error. What does is not the same for all fields: the text of a
message only has to be there, the name of a room must not be empty, and an identifier must have ink.

A frame whose fields all do has a meaning, whatever its other fields say. The room that it names is
only looked at to see that there is one. Unless the frame announces a message, the other fields are
not even read.

## Main definitions

* `Wire.Event.demands`: the fields that an event calls for, in their order
* `Wire.Frame.meets`: a field of the frame does
* `Wire.Frame.Refused`: why a frame has no meaning

## Main results

* `Inbound.ofEvent_eq_error_iff`: the error names the first field that does not do
* `Inbound.ofEvent_congr`: what is not called for is not read, except for messages
* `Inbound.ofFrame_follows_demands`: the frames that have a meaning, and what it depends on
-/

namespace ChatClient

namespace Wire

/-- The fields that the event calls for, in the order in which they are looked at. -/
def Event.demands : Event → List Demand
  | message | fileMessage => [.user, .message, .roomId]
  | edit => [.messageId, .message]
  | delete => [.messageId]
  | typingStart | typingStop => [.user, .roomId]

/-- The event announces a message. -/
def Event.isMessage : Event → Bool
  | message | fileMessage => true
  | edit | delete | typingStart | typingStop => false

/-- The text does for the field. -/
def Demand.admits : Demand → String → Bool
  | user, s | messageId, s => Text.hasInk s
  | message, _ => true
  | roomId, s => s != ""

namespace Frame

/-- What the frame has in the field. -/
def field (f : Frame) : Demand → Option String
  | .user => f.user
  | .message => f.message
  | .roomId => f.roomId
  | .messageId => f.messageId

/-- The field is there, and its text does. -/
def meets (f : Frame) (d : Demand) : Bool := (f.field d).any d.admits

/-- The first of the fields that does not do. -/
def unmet? (f : Frame) (fields : List Demand) : Option Demand :=
  fields.find? fun d => !f.meets d

/-- Why a frame has no meaning: its event is unknown, or a field that the event calls for does not
do although all those before it do. -/
inductive Refused (f : Frame) : DecodeProblem → Prop
  | unknownEvent (unknown : ∀ event : Event, f.event ≠ event.name) :
      f.Refused (.unknownEvent f.event)
  | missing {event : Event} (known : f.event = event.name) {before after : List Demand} {d : Demand}
      (demands : event.demands = before ++ d :: after) (met : ∀ d' ∈ before, f.meets d' = true)
      (unmet : f.meets d = false) : f.Refused (.missing event d)

end Frame

/-! ## Names of events -/

private theorem Event.name_of_ofName? {s : String} {event : Event}
    (found : ofName? s = some event) :
    s = event.name := by
  unfold ofName? at found
  have same := List.find?_some found
  exact (eq_of_beq same).symm

/-- An event is known by its name alone. -/
theorem Event.ofName?_eq_some_iff {s : String} {event : Event} :
    ofName? s = some event ↔ s = event.name := by
  constructor
  · exact name_of_ofName?
  · rintro rfl
    exact ofName?_name event

/-- A name that no event has cannot be read. -/
theorem Event.ofName?_eq_none_iff {s : String} :
    ofName? s = none ↔ ∀ event : Event, s ≠ event.name := by
  rw [Option.eq_none_iff_forall_ne_some]
  exact forall_congr' fun event => not_congr ofName?_eq_some_iff

end Wire

open Wire (Frame Event Demand DecodeProblem)

namespace Inbound

/-! ## Whether a field does -/

private theorem isSome_present (s : Option String) : (present s).isSome = s.any (· != "") := by
  cases s with
  | none => rfl
  | some s => by_cases empty : s = "" <;> simp [present, Option.filter, empty]

/-- An empty text is no identifier anyway. -/
theorem ident?_eq_bind (k : IdentKind) (s : Option String) :
    ident? k s = s.bind (Ident.ofText? k) := by
  cases s with
  | none => rfl
  | some s =>
    by_cases empty : s = ""
    · subst empty
      rfl
    · simp [ident?, present, Option.filter, empty]

private theorem isSome_ident? (k : IdentKind) (s : Option String) :
    (ident? k s).isSome = s.any Text.hasInk := by
  rw [ident?_eq_bind]
  cases s with
  | none => rfl
  | some s => by_cases ink : Text.hasInk s = true <;> simp [Ident.ofText?, ink]

variable {f g : Frame} {event : Event}

private theorem meets_user (f : Frame) : f.meets .user = (ident? .user f.user).isSome :=
  (isSome_ident? .user f.user).symm

private theorem meets_message (f : Frame) : f.meets .message = f.message.isSome := by
  cases there : f.message <;> simp [Frame.meets, Frame.field, Demand.admits, there]

private theorem meets_roomId (f : Frame) : f.meets .roomId = (present f.roomId).isSome :=
  (isSome_present f.roomId).symm

private theorem meets_messageId (f : Frame) :
    f.meets .messageId = (ident? .message f.messageId).isSome :=
  (isSome_ident? .message f.messageId).symm

/-! ## Events that are known -/

/-- A field that is demanded and does not do is an error, whatever is demanded after it. -/
theorem demand_bind_eq_error_iff {α : Type} {d : Demand} {a : Option α}
    {rest : α → Except DecodeProblem Inbound} {later : List Demand} {p : DecodeProblem}
    (does : f.meets d = a.isSome)
    (continues : ∀ x, a = some x →
      (rest x = .error p ↔ ∃ d', f.unmet? later = some d' ∧ p = .missing event d')) :
    (demand event d a >>= rest) = .error p ↔
      ∃ d', f.unmet? (d :: later) = some d' ∧ p = .missing event d' := by
  cases a with
  | none =>
    have stops : f.unmet? (d :: later) = some d := by simp [Frame.unmet?, does]
    have fails : (demand event d none >>= rest) = .error (.missing event d) := rfl
    simp [stops, fails, eq_comm]
  | some x =>
    have passes : f.unmet? (d :: later) = f.unmet? later := by simp [Frame.unmet?, does]
    rw [passes, ← continues x rfl]
    rfl

/-- Nothing is demanded after a field that does not do. -/
theorem demand_bind_eq_ok_iff {α : Type} {d : Demand} {a : Option α}
    {rest : α → Except DecodeProblem Inbound} {e : Inbound} :
    (demand event d a >>= rest) = .ok e ↔ ∃ x, a = some x ∧ rest x = .ok e := by
  cases a with
  | none =>
    have fails : (demand event d none >>= rest) = .error (.missing event d) := rfl
    simp [fails]
  | some x =>
    have passes : (demand event d (some x) >>= rest) = rest x := rfl
    simp [passes]

private theorem ok_eq_error_iff {e : Inbound} {p : DecodeProblem} :
    (Except.ok e : Except DecodeProblem Inbound) = .error p ↔
      ∃ d, f.unmet? [] = some d ∧ p = .missing event d := by
  simp [Frame.unmet?]

/-- The error names the first field that does not do. -/
theorem ofEvent_eq_error_iff {p : DecodeProblem} :
    ofEvent event f = .error p ↔ ∃ d, f.unmet? event.demands = some d ∧ p = .missing event d := by
  cases event with
  | message | fileMessage =>
    exact demand_bind_eq_error_iff (meets_user f) fun _ _ =>
      demand_bind_eq_error_iff (meets_message f) fun _ _ =>
        demand_bind_eq_error_iff (meets_roomId f) fun _ _ => ok_eq_error_iff
  | edit =>
    exact demand_bind_eq_error_iff (meets_messageId f) fun _ _ =>
      demand_bind_eq_error_iff (meets_message f) fun _ _ => ok_eq_error_iff
  | delete => exact demand_bind_eq_error_iff (meets_messageId f) fun _ _ => ok_eq_error_iff
  | typingStart | typingStop =>
    exact demand_bind_eq_error_iff (meets_user f) fun _ _ =>
      demand_bind_eq_error_iff (meets_roomId f) fun _ _ => ok_eq_error_iff

private theorem exists_ofEvent_iff :
    (∃ e, ofEvent event f = .ok e) ↔ ∀ d ∈ event.demands, f.meets d = true := by
  have none_iff : f.unmet? event.demands = none ↔ ∀ d ∈ event.demands, f.meets d = true := by
    simp [Frame.unmet?]
  rw [← none_iff]
  cases meaning : ofEvent event f with
  | ok e =>
    refine iff_of_true ⟨e, rfl⟩ (Option.eq_none_iff_forall_ne_some.mpr ?_)
    -- A field that does not do would have been an error.
    intro d unmet
    have fails := ofEvent_eq_error_iff.mpr ⟨d, unmet, rfl⟩
    rw [meaning] at fails
    cases fails
  | error p =>
    obtain ⟨d, unmet, -⟩ := ofEvent_eq_error_iff.mp meaning
    simp [unmet]

/-- The room that a frame names only has to be there. -/
theorem ofEvent_withRoom {s : String} (named : s ≠ "")
    (met : ∀ d ∈ event.demands, f.meets d = true) :
    ofEvent event { f with roomId := some s } = ofEvent event f := by
  have there : present (some s) = some s := by simp [present, Option.filter, named]
  cases event with
  | message | fileMessage | typingStart | typingStop =>
    have found : (present f.roomId).isSome = true := by
      rw [← meets_roomId]
      exact met .roomId (by simp [Event.demands])
    obtain ⟨room, found⟩ := Option.isSome_iff_exists.mp found
    simp only [ofEvent, there, found]
    rfl
  | edit | delete => rfl

/-- Unless a message is announced, no field is read that is not called for. -/
theorem ofEvent_congr (other : event.isMessage = false)
    (agree : ∀ d ∈ event.demands, g.field d = f.field d) : ofEvent event g = ofEvent event f := by
  cases event with
  | message | fileMessage => cases other
  | edit =>
    have id : g.messageId = f.messageId := agree .messageId (by simp [Event.demands])
    have body : g.message = f.message := agree .message (by simp [Event.demands])
    simp only [ofEvent, id, body]
  | delete =>
    have id : g.messageId = f.messageId := agree .messageId (by simp [Event.demands])
    simp only [ofEvent, id]
  | typingStart | typingStop =>
    have user : g.user = f.user := agree .user (by simp [Event.demands])
    have room : g.roomId = f.roomId := agree .roomId (by simp [Event.demands])
    simp only [ofEvent, user, room]

/-! ## All frames -/

/-- The name of an event decides what the frame is taken for. -/
theorem ofFrame_of_name (known : f.event = event.name) : ofFrame f = ofEvent event f := by
  have found : f.event? = some event := Event.ofName?_eq_some_iff.mpr known
  simp only [ofFrame, found]

private theorem ofFrame_of_unknown (unknown : ∀ event : Event, f.event ≠ event.name) :
    ofFrame f = .error (.unknownEvent f.event) := by
  have found : f.event? = none := Event.ofName?_eq_none_iff.mpr unknown
  simp only [ofFrame, found]

private theorem exists_ofFrame_iff :
    (∃ e, ofFrame f = .ok e) ↔
      ∃ event : Event, f.event = event.name ∧ ∀ d ∈ event.demands, f.meets d = true := by
  constructor
  · rintro ⟨e, meaning⟩
    by_cases unknown : ∀ event : Event, f.event ≠ event.name
    · rw [ofFrame_of_unknown unknown] at meaning
      cases meaning
    · obtain ⟨event, known⟩ := not_forall_not.mp unknown
      rw [ofFrame_of_name known] at meaning
      exact ⟨event, known, exists_ofEvent_iff.mp ⟨e, meaning⟩⟩
  · rintro ⟨event, known, met⟩
    rw [ofFrame_of_name known]
    exact exists_ofEvent_iff.mpr met

private theorem unmet?_eq_some_iff {fields : List Demand} {d : Demand} :
    f.unmet? fields = some d ↔ f.meets d = false ∧
      ∃ before after, fields = before ++ d :: after ∧ ∀ d' ∈ before, f.meets d' = true := by
  simp [Frame.unmet?, List.find?_eq_some_iff_append]

private theorem ofFrame_eq_error_iff {p : DecodeProblem} : ofFrame f = .error p ↔ f.Refused p := by
  constructor
  · intro fails
    by_cases unknown : ∀ event : Event, f.event ≠ event.name
    · rw [ofFrame_of_unknown unknown] at fails
      cases fails
      exact .unknownEvent unknown
    · obtain ⟨event, known⟩ := not_forall_not.mp unknown
      rw [ofFrame_of_name known] at fails
      obtain ⟨d, first, rfl⟩ := ofEvent_eq_error_iff.mp fails
      obtain ⟨unmet, before, after, demands, met⟩ := unmet?_eq_some_iff.mp first
      exact .missing known demands met unmet
  · rintro (unknown | ⟨known, demands, met, unmet⟩)
    · exact ofFrame_of_unknown unknown
    · rw [ofFrame_of_name known]
      exact ofEvent_eq_error_iff.mpr ⟨_, unmet?_eq_some_iff.mpr ⟨unmet, _, _, demands, met⟩, rfl⟩

/-- A frame has a meaning exactly if its event is known and every field that the event calls for
does. Otherwise the error names the event, or the first field that does not do. The meaning is the
same for every other room that is named. Other fields than those called for never take the meaning
away, and unless a message is announced they do not change it either. -/
theorem ofFrame_follows_demands (f : Frame) :
    ((∃ e, ofFrame f = .ok e) ↔
        ∃ event : Event, f.event = event.name ∧ ∀ d ∈ event.demands, f.meets d = true) ∧
      (∀ p, ofFrame f = .error p ↔ f.Refused p) ∧
      ∀ (e : Inbound) (event : Event), f.event = event.name → ofFrame f = .ok e →
        (∀ s, s ≠ "" → ofFrame { f with roomId := some s } = .ok e) ∧
        ∀ g : Frame, g.event = f.event → (∀ d ∈ event.demands, g.field d = f.field d) →
          if event.isMessage then ∃ e', ofFrame g = .ok e' else ofFrame g = .ok e := by
  refine ⟨exists_ofFrame_iff, fun p => ofFrame_eq_error_iff, fun e event known meaning => ?_⟩
  rw [ofFrame_of_name known] at meaning
  have met := exists_ofEvent_iff.mp ⟨e, meaning⟩
  constructor
  · intro s named
    have known' : ({ f with roomId := some s } : Frame).event = event.name := known
    rw [ofFrame_of_name known', ofEvent_withRoom named met, meaning]
  · intro g same agree
    rw [ofFrame_of_name (same.trans known)]
    cases announces : event.isMessage with
    | true =>
      -- The meaning may be another one, but whether there is one depends on what is called for.
      refine exists_ofEvent_iff.mpr ?_
      intro d mem
      rw [Frame.meets, agree d mem]
      exact met d mem
    | false => simpa [ofEvent_congr announces agree] using meaning

end Inbound

end ChatClient
