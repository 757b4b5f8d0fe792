import ChatClient.Proofs.Json.Reading
import ChatClient.Wire.Frame
import Mathlib.Tactic.Common

/-!
# Frames as others write them

A server may write a frame in its own way. The members of the object may come in any order and be
joined by members that mean nothing here, fields without a value may be left out or be `null`, every
text may be spelled with any escapes, and there may be space anywhere between the parts. A list of
the fields in their declared order is understood as well. All these texts present the frame, and
reading any of them gives the frame back. What the client writes itself is one of them.

The draft that reading fills in depends only on which names have been met, and so not on their
order.

## Main definitions

* `Frame.parts`: the fields of a frame under their names
* `Frame.Presents`: the texts that present a frame
* `Frame.filled`: the draft after some of the names have been met

## Main results

* `Frame.read_of_presents`: a frame is read from any text that presents it
* `Frame.presents_write`: its own written form is one of them
-/

namespace ChatClient.Wire

open Json (Member IsSpacing IsText IsValue Separated IsMember IsElement)

/-- The ways to write a part that may be missing. -/
inductive IsPart : Option String → List Char → Prop
  | text {s : String} {cs : List Char} (isText : IsText s cs) : IsPart (some s) cs
  | null : IsPart none ['n', 'u', 'l', 'l']

namespace Frame

/-- The fields of a frame under their names on the wire, in their declared order. -/
def parts (f : Frame) : List (String × Option String) := [
  ("Event", some f.event), ("User", f.user), ("message", f.message), ("room_id", f.roomId),
  ("message_id", f.messageId), ("_id", f.id), ("display_name", f.displayName),
  ("created_at", f.createdAt), ("reply_to", f.replyTo), ("reply_to_message", f.replyToMessage),
  ("reply_to_user", f.replyToUser)]

/-- No part of the frame has this name. -/
def IsStrange (f : Frame) (name : String) : Prop := ∀ part ∈ f.parts, part.1 ≠ name

/-- The text presents the frame. -/
inductive Presents (f : Frame) : List Char → Prop
  /-- In an object every field that has a value is a member, once. A field without a value may be
  `null`, and members with other names may hold any value. -/
  | object {members : List Member} {before text after : List Char} (isSpacing : IsSpacing before)
      (separated : Separated IsMember members text) (isSpacing' : IsSpacing after)
      (complete : ∀ name s, (name, some s) ∈ f.parts → name ∈ members.map Prod.fst)
      (once : members.Pairwise fun m m' => m.1 = m'.1 → f.IsStrange m.1)
      (sound : ∀ m ∈ members, (∃ part, (m.1, part) ∈ f.parts ∧ IsPart part m.2) ∨
        (f.IsStrange m.1 ∧ IsValue m.2)) :
      Presents f (before ++ '{' :: text ++ '}' :: after)
  /-- A list holds the first fields. Those that are left off have no value. -/
  | list {n : Nat} {values : List (List Char)} {before text after : List Char}
      (isSpacing : IsSpacing before) (separated : Separated IsElement values text)
      (isSpacing' : IsSpacing after)
      (elements : List.Forall₂ (fun part value => IsPart part.2 value) (f.parts.take n) values)
      (absent : ∀ part ∈ f.parts.drop n, part.2 = none) :
      Presents f (before ++ '[' :: text ++ ']' :: after)

/-- The draft in which the fields with these names are filled in. -/
def filled (f : Frame) (seen : List String) : Draft :=
  let keep (name : String) (part : Option String) := if name ∈ seen then part else none
  { event := keep "Event" (some f.event)
    user := keep "User" f.user
    message := keep "message" f.message
    roomId := keep "room_id" f.roomId
    messageId := keep "message_id" f.messageId
    id := keep "_id" f.id
    displayName := keep "display_name" f.displayName
    createdAt := keep "created_at" f.createdAt
    replyTo := keep "reply_to" f.replyTo
    replyToMessage := keep "reply_to_message" f.replyToMessage
    replyToUser := keep "reply_to_user" f.replyToUser }

end Frame

private theorem nullable_of_isPart {part : Option String} {value space : List Char}
    (h : IsPart part value) (isSpacing : IsSpacing space) (rest : List Char) :
    Json.nullable Json.text (space ++ (value ++ rest)) = .ok (part, rest) := by
  cases h with
  | text isText => exact Json.nullable_of_isText isText isSpacing rest
  | null => exact Json.nullable_spacing Json.text isSpacing rest

/-- What is presented for a part is a value. -/
theorem IsPart.isValue {part : Option String} {value : List Char} (h : IsPart part value) :
    IsValue value := by
  cases h with
  | text isText => exact isText.isValue
  | null => exact .null

namespace Frame

/-- A field takes a part of the frame into its draft, whatever is there already. -/
structure Keeps (f : Frame) (field : Json.Field Draft) (part : String × Option String) : Prop where
  name : field.name = part.1
  takes : ∀ seen value, IsPart part.2 value →
    Json.Record.Takes field value (f.filled seen) (f.filled (part.1 :: seen))
  spare : part.2 = none → field.spare = true

private theorem keeps_part (f : Frame) {name : String} {put : Draft → Option String → Draft}
    {part : Option String}
    (fills : ∀ seen, put (f.filled seen) part = f.filled (name :: seen)) :
    f.Keeps (Frame.part name put) (name, part) where
  name := rfl
  takes seen value isPart space rest isSpacing := by
    have read := nullable_of_isPart isPart isSpacing rest
    change (Json.nullable Json.text _ >>= _) = _
    rw [read, ← fills]
    rfl
  spare _ := rfl

/-- Each field takes its own part. -/
theorem forall₂_keeps (f : Frame) : List.Forall₂ f.Keeps record.fields f.parts := by
  refine .cons ⟨rfl, fun seen value isPart space rest isSpacing => ?_, by simp⟩ ?_
  · cases isPart with
    | text isText =>
      have read := Json.text_of_isText isText isSpacing rest
      change (Json.text _ >>= _) = _
      rw [read]
      simp [filled, bind, Except.bind, pure, Except.pure]
  · -- All other fields are parts that may be missing.
    repeat' apply List.Forall₂.cons
    all_goals first | exact .nil | exact keeps_part f fun seen => by simp [filled]

private theorem nodup_names (f : Frame) : (f.parts.map Prod.fst).Nodup := by simp [parts]

section Fields

variable {f : Frame} {fields : List (Json.Field Draft)} {parts : List (String × Option String)}
  (keeps : List.Forall₂ f.Keeps fields parts)
include keeps

/-- A part is found by its name, since no other one has it. -/
theorem exists_find {part : String × Option String} (nodup : (parts.map Prod.fst).Nodup)
    (mem : part ∈ parts) :
    ∃ field, fields.find? (fun field => field.name == part.1) = some field ∧
      f.Keeps field part := by
  induction keeps with
  | nil => cases mem
  | @cons field first fields parts here _ ih =>
    obtain ⟨fresh, nodup⟩ := List.nodup_cons.1 nodup
    rcases List.mem_cons.1 mem with rfl | mem
    · exact ⟨field, by simp [here.name], here⟩
    · obtain ⟨field', found, keeps⟩ := ih nodup mem
      have other : field.name ≠ part.1 := by
        rw [here.name]
        intro same
        exact fresh (same ▸ List.mem_map_of_mem mem)
      exact ⟨field', by simp [other, found], keeps⟩

private theorem find_of_strange {name : String} (strange : ∀ part ∈ parts, part.1 ≠ name) :
    fields.find? (fun field => field.name == name) = none := by
  induction keeps with
  | nil => rfl
  | cons here _ ih =>
    have other := strange _ List.mem_cons_self
    have others := ih fun part mem => strange part (List.mem_cons_of_mem _ mem)
    simp [here.name, other, others]

private theorem all_spare (absent : ∀ part ∈ parts, part.2 = none) :
    fields.all Json.Field.spare = true := by
  induction keeps with
  | nil => rfl
  | cons here _ ih =>
    have spare := here.spare (absent _ List.mem_cons_self)
    have others := ih fun part mem => absent part (List.mem_cons_of_mem _ mem)
    simp [spare, others]

/-- The elements of a list are the first parts. -/
theorem lists_of_forall₂ {n : Nat} {values : List (List Char)} (seen : List String)
    (elements : List.Forall₂ (fun part value => IsPart part.2 value) (parts.take n) values)
    (absent : ∀ part ∈ parts.drop n, part.2 = none) :
    ∃ seen', Json.Record.Lists fields (f.filled seen) values (f.filled seen') ∧
      ∀ name, name ∈ seen ∨ name ∈ (parts.take n).map Prod.fst → name ∈ seen' := by
  induction keeps generalizing n values seen with
  | nil =>
    rw [List.take_nil] at elements
    cases elements
    exact ⟨seen, .nil rfl _, by simp⟩
  | @cons field part fields parts here more ih =>
    cases n with
    | zero =>
      cases elements
      exact ⟨seen, .nil (all_spare (.cons here more) absent) _, by simp⟩
    | succ n =>
      -- The field that is next takes the first element, and its name has been met then.
      rw [List.take_succ_cons] at elements
      cases elements with
      | cons isPart elements =>
        obtain ⟨seen', lists, all⟩ := ih (part.1 :: seen) elements absent
        refine ⟨seen', .cons isPart.isValue (here.takes seen _ isPart) lists, fun name known => ?_⟩
        apply all
        simp only [List.take_succ_cons, List.map_cons, List.mem_cons] at known ⊢
        tauto

end Fields

/-- The members of an object that presents the frame make its draft. What has been met before is met
no more. -/
theorem exists_gathers (f : Frame) {members : List Member}
    (once : members.Pairwise fun m m' => m.1 = m'.1 → f.IsStrange m.1)
    (sound : ∀ m ∈ members, (∃ part, (m.1, part) ∈ f.parts ∧ IsPart part m.2) ∨
      (f.IsStrange m.1 ∧ IsValue m.2))
    (seen : List String) (fresh : ∀ m ∈ members, m.1 ∈ seen → f.IsStrange m.1) :
    ∃ seen', Json.Record.Gathers record.fields seen (f.filled seen) members (f.filled seen') ∧
      ∀ part ∈ f.parts, part.1 ∈ seen ∨ part.1 ∈ members.map Prod.fst → part.1 ∈ seen' := by
  induction members generalizing seen with
  | nil => exact ⟨seen, .nil _ _, by simp⟩
  | cons m members ih =>
    obtain ⟨apart, once⟩ := List.pairwise_cons.1 once
    have sound' := fun m' mem => sound m' (List.mem_cons_of_mem _ mem)
    rcases sound m List.mem_cons_self with ⟨part, mem, isPart⟩ | ⟨strange, isValue⟩
    · -- The name is met now, and the members that follow have other names.
      have here : ¬ f.IsStrange m.1 := fun strange => strange _ mem rfl
      obtain ⟨field, found, keeps⟩ := exists_find f.forall₂_keeps f.nodup_names mem
      obtain ⟨seen', gathers, all⟩ := ih once sound' (m.1 :: seen) fun m' mem' met => by
        rcases List.mem_cons.1 met with same | met
        · exact absurd (apart m' mem' same.symm) here
        · exact fresh m' (List.mem_cons_of_mem _ mem') met
      refine ⟨seen', .field found (fun met => here (fresh m List.mem_cons_self met))
        (keeps.takes seen _ isPart) gathers, fun part' mem' known => all part' mem' ?_⟩
      simp only [List.map_cons, List.mem_cons] at known ⊢
      tauto
    -- A strange name belongs to no part, so nothing has been met.
    · obtain ⟨seen', gathers, all⟩ := ih once sound' seen fun m' mem' =>
        fresh m' (List.mem_cons_of_mem _ mem')
      refine ⟨seen', .strange (find_of_strange f.forall₂_keeps strange) isValue gathers,
        fun part' mem' known => all part' mem' ?_⟩
      have other := strange part' mem'
      simp only [List.map_cons, List.mem_cons] at known
      tauto

/-- The draft is finished as soon as every field that has a value has been met. -/
theorem finish_filled (f : Frame) {seen : List String}
    (complete : ∀ name s, (name, some s) ∈ f.parts → name ∈ seen) :
    record.finish (f.filled seen) = some f := by
  have kept : ∀ part ∈ f.parts, (if part.1 ∈ seen then part.2 else none) = part.2 := by
    rintro ⟨name, part⟩ mem
    cases part with
    | none => simp
    | some s => exact if_pos (complete name s mem)
  simp only [parts, List.forall_mem_cons, List.not_mem_nil, false_imp_iff, implies_true, and_true]
    at kept
  simp only [record, filled, kept]
  rfl

/-- A frame is read from any text that presents it. -/
theorem read_of_presents {f : Frame} {text : String} (h : f.Presents text.toList) :
    Frame.read text = .ok f := by
  have spacing {after : List Char} (h : IsSpacing after) : Json.skipSpace after = [] := by
    have skipped : Json.skipSpace (after ++ []) = Json.skipSpace [] := Json.skipSpace_spacing h
    simpa [Json.skipSpace] using skipped
  rw [Frame.read, Json.document]
  generalize text.toList = cs at h
  cases h with
  | object isSpacing separated isSpacing' complete once sound =>
    obtain ⟨seen, gathers, all⟩ := f.exists_gathers once sound [] (by simp)
    have finished := f.finish_filled fun name s mem => all _ mem (.inr (complete name s mem))
    rw [Json.Record.read_object gathers finished isSpacing separated]
    simp [bind, Except.bind, spacing isSpacing', pure, Except.pure]
  | @list n values before text after isSpacing separated isSpacing' elements absent =>
    obtain ⟨seen, lists, all⟩ := lists_of_forall₂ f.forall₂_keeps [] elements absent
    have finished := f.finish_filled fun name s mem => by
      rw [← List.take_append_drop n f.parts, List.mem_append] at mem
      rcases mem with mem | mem
      · exact all _ (.inr (List.mem_map_of_mem mem))
      · exact absurd (absent _ mem) (by simp)
    rw [Json.Record.read_list lists finished isSpacing separated]
    simp [bind, Except.bind, spacing isSpacing', pure, Except.pure]

/-- The members that the client writes. -/
def writtenMembers (f : Frame) : List Member :=
  f.parts.filterMap fun part => part.2.map fun s => (part.1, Json.quote s)

private theorem writeChars_eq (f : Frame) : f.writeChars = Json.writeObject f.writtenMembers := by
  have member (name : String) (part : Option String) (parts : List (String × Option String)) :
      ((name, part) :: parts).filterMap (fun part => part.2.map fun s => (part.1, Json.quote s)) =
        Json.memberIfPresent name Json.quote part ++
          parts.filterMap (fun part => part.2.map fun s => (part.1, Json.quote s)) := by
    cases part <;> rfl
  simp only [writtenMembers, parts, member, List.filterMap_nil, writeChars]
  simp [Json.memberIfPresent]

/-- What the client writes presents the frame. -/
theorem presents_write (f : Frame) : f.Presents f.write.toList := by
  have mem_iff {m : Member} : m ∈ f.writtenMembers ↔
      ∃ s, (m.1, some s) ∈ f.parts ∧ m.2 = Json.quote s := by
    obtain ⟨name, value⟩ := m
    simp only [writtenMembers, List.mem_filterMap, Option.map_eq_some_iff, Prod.mk.injEq]
    constructor
    · rintro ⟨⟨name', part⟩, mem, s, rfl, rfl, rfl⟩
      exact ⟨s, mem, rfl⟩
    · rintro ⟨s, mem, rfl⟩
      exact ⟨_, mem, s, rfl, rfl, rfl⟩
  have event : ("Event", Json.quote f.event) ∈ f.writtenMembers :=
    mem_iff.2 ⟨f.event, by simp [parts], rfl⟩
  have apart : f.writtenMembers.Pairwise fun m m' => m.1 ≠ m'.1 := by
    refine List.pairwise_filterMap.2 ((List.pairwise_map.1 f.nodup_names).imp ?_)
    simp only [Option.map_eq_some_iff]
    rintro part part' apart _ ⟨s, -, rfl⟩ _ ⟨s', -, rfl⟩
    exact apart
  -- One member is written for each part that is there, under a name of its own.
  have presents := Presents.object Json.isSpacing_nil
    (Json.Record.separated_commaSeparated (List.ne_nil_of_mem event)) Json.isSpacing_nil
    (fun name s mem => List.mem_map.2 ⟨(name, Json.quote s), mem_iff.2 ⟨s, mem, rfl⟩, rfl⟩)
    (apart.imp fun apart same => absurd same apart)
    (fun m mem => by
      obtain ⟨s, part, value⟩ := mem_iff.1 mem
      exact .inl ⟨some s, part, value ▸ .text (Json.isText_quote s)⟩)
  rw [write, String.toList_ofList, writeChars_eq]
  simpa [Json.writeObject] using presents

/-- What was written for a frame is read back. -/
theorem read_write (f : Frame) : Frame.read f.write = .ok f :=
  read_of_presents f.presents_write

/-- A frame is read back from what the client writes, and it is read from every other text that
presents it. -/
theorem read_write_and_presented (f : Frame) :
    Frame.read f.write = .ok f ∧ ∀ text : String, f.Presents text.toList →
      Frame.read text = .ok f :=
  ⟨f.read_write, fun _ presents => read_of_presents presents⟩

/-- The members are out of order, one name and one text are spelled with escapes, a field without a
value is `null`, and a strange member holds nested values, with half a character between quotes. -/
theorem read_write_and_presented_shuffled :
    let f : Frame := { event := "MSG", user := some "bob", message := some "/😀" }
    let text :=
      " \x7b\"message\":\"\\/\\ud83d\\uDE00\" ,\"x\":[-1.5e3,\x7b\"\\ud800\":[]\x7d],\n" ++
      "\"_id\":null,\"\\u0055ser\" : \"bob\",\"Event\":\"MSG\"\x7d"
    f.Presents text.toList ∧ Frame.read text = .ok f := by
  intro f text
  have none := Json.isSpacing_nil
  have blank : IsSpacing [' '] := by simp [IsSpacing, Json.isSpace]
  have newline : IsSpacing ['\n'] := by simp [IsSpacing, Json.isSpace]
  have plain (s : String) := Json.spells_quoteBody s.toList
  have digit (c : Char) (h : Text.isDigit c = true) : Json.IsDigits [c] :=
    ⟨List.cons_ne_nil c [], by simpa using h⟩
  -- The strange member holds a list of a number and an object.
  have number : Json.IsNumber ['-', '1', '.', '5', 'e', '3'] :=
    .mk (.inr rfl) (.digits (by decide) (digit '1' rfl)) (.digits (digit '5' rfl))
      (.digits (.inl rfl) (.inl rfl) (digit '3' rfl))
  have half : Json.IsQuotable ['\\', 'u', 'd', '8', '0', '0'] := .unit (n := 0xD800) rfl .nil
  have object : IsValue _ := .full (.last (.member none half none none) (.empty .list none) none)
  have list : IsValue _ :=
    .full (.more (.element none) (.number number) none (.last (.element none) object none))
  have face : Json.SpellsChar '😀' ['\\', 'u', 'd', '8', '3', 'd', '\\', 'u', 'D', 'E', '0', '0'] :=
    .halves rfl rfl (by decide) (by decide) (by decide)
  have slash : Json.SpellsChar '/' ['\\', '/'] := .short (by decide)
  have message : IsText "/😀" _ := .quoted (s := "/😀") (.cons slash (.cons face .nil))
  have unit : Json.SpellsChar 'U' ['\\', 'u', '0', '0', '5', '5'] := .unit (by decide)
  have user : Json.Spells ['U', 's', 'e', 'r'] _ :=
    .cons unit (Json.spells_quoteBody ['s', 'e', 'r'])
  let members : List Member := [
    ("message", "\"\\/\\ud83d\\uDE00\"".toList), ("x", "[-1.5e3,\x7b\"\\ud800\":[]\x7d]".toList),
    ("_id", "null".toList), ("User", Json.quote "bob"), ("Event", Json.quote "MSG")]
  have separated : Separated IsMember members _ :=
    .more (.mk none (plain "message") none none blank) (.more (.mk none (plain "x") none none none)
      (.more (.mk newline (plain "_id") none none none)
        (.more (.mk none user blank blank none) (.last (.mk none (plain "Event") none none none)))))
  have presents : f.Presents text.toList := by
    convert Presents.object blank separated none ?_ ?_ ?_ using 1
    · decide +kernel
    · intro name s mem
      have present : name = "Event" ∧ s = "MSG" ∨ name = "User" ∧ s = "bob" ∨
          name = "message" ∧ s = "/😀" := by simpa [f, parts] using mem
      rcases present with ⟨rfl, -⟩ | ⟨rfl, -⟩ | ⟨rfl, -⟩ <;> simp [members]
    · simp [members]
    · simp only [members, List.forall_mem_cons, List.not_mem_nil, false_imp_iff, implies_true,
        and_true]
      refine ⟨.inl ⟨_, ?_, .text message⟩, .inr ⟨?_, list⟩, .inl ⟨_, ?_, .null⟩,
        .inl ⟨_, ?_, .text (Json.isText_quote "bob")⟩,
          .inl ⟨_, ?_, .text (Json.isText_quote "MSG")⟩⟩
      all_goals simp [f, parts, IsStrange]
  exact ⟨presents, (read_write_and_presented f).2 text presents⟩

end Frame

end ChatClient.Wire
