import ChatClient.Message.Stored
import ChatClient.Proofs.Json.Parts
import Mathlib.Tactic.Common

/-!
# Stored payloads as others write them

A file in which payloads wait may have been written by someone else, with the members in another
order, with strange members between them, with escapes and with space anywhere. What is missing from
a reply may be left out, the reply of a payload may be `null`, and each of the three records may be
a list of its parts. The kind of a payload may be an object with one member. All this is read, and
nothing else: whatever is not a list of entries in this sense is refused.

## Main definitions

* `PayloadKind.IsWritten`, `Reply.IsWritten`, `Payload.IsWritten`, `QueueEntry.IsWritten`
* `QueueEntry.AreWritten`: the texts in which a list of entries is stored

## Main results

* `exact_kind`, `exact_reply`, `exact_payload`, `exact_entry`
* `readAll_eq_ok_iff`: the entries are read from the texts in which they are stored, and from no
  others
-/

namespace ChatClient

open Json (Exact IsText IsMember IsSpacing IsList Places)

private theorem exact_ident (k : IdentKind) : Exact (Ident.reader k) fun a => IsText a.text :=
  Json.exact_textAs fun _ _ => Ident.ofText?_eq_some_iff

/-- A text in quotes does not begin as `null` does. -/
theorem head?_ne_of_isText {s : String} {text : List Char} (h : IsText s text) :
    text.head? ≠ some 'n' := by
  obtain ⟨spells⟩ := h
  simp

private theorem exact_nullable_ident (k : IdentKind) :
    Exact (Json.nullable (Ident.reader k)) (Json.IsNullable fun a => IsText a.text) :=
  Json.exact_nullable (exact_ident k) fun _ _ => head?_ne_of_isText

private theorem exact_nullable_text : Exact (Json.nullable Json.text) (Json.IsNullable IsText) :=
  Json.exact_nullable Json.exact_text fun _ _ => head?_ne_of_isText

namespace PayloadKind

/-- The ways to write a kind: its name, or an object whose only member has the name and is
`null`. -/
inductive IsWritten (kind : PayloadKind) : List Char → Prop
  | name {text : List Char} (isText : IsText kind.name text) : IsWritten kind text
  | object {text : List Char} (isMember : IsMember (kind.name, ['n', 'u', 'l', 'l']) text) :
      IsWritten kind ('{' :: text ++ ['}'])

/-- A kind is known by its name alone. -/
theorem ofName?_eq_some_iff {s : String} {kind : PayloadKind} :
    ofName? s = some kind ↔ kind.name = s := by
  constructor
  · intro h
    unfold ofName? at h
    repeat' split at h
    all_goals cases h <;> simp_all [name]
  · rintro rfl
    cases kind <;> rfl

private theorem exact_nameReader : Exact nameReader fun kind => IsText kind.name :=
  Json.exact_textAs fun _ _ => ofName?_eq_some_iff

/-- The object is read from its bracket on. -/
theorem memberReader_append {kind : PayloadKind} {text : List Char}
    (isMember : IsMember (kind.name, ['n', 'u', 'l', 'l']) text) (rest : List Char) :
    memberReader (text ++ '}' :: rest) = .ok (kind, rest) := by
  obtain ⟨before, spells, between, beforeNull, after⟩ := isMember
  have named (rest : List Char) :=
    exact_nameReader.complete (.quoted spells) Json.isSpacing_nil rest
  simp only [List.nil_append, List.cons_append, List.append_assoc] at named
  simp only [List.append_assoc, List.cons_append, List.nil_append]
  rw [memberReader, Json.skipSpace_spacing before, Json.skipSpace_cons (by decide)]
  simp only [named, bind, Except.bind]
  rw [Json.expect_append (by decide) between]
  simp only [Json.skipSpace_spacing beforeNull]
  rw [Json.skipSpace_cons (by decide)]
  have null (rest : List Char) :
      Json.literal ['u', 'l', 'l'] ('u' :: 'l' :: 'l' :: rest) = .ok rest :=
    Json.literal_append ['u', 'l', 'l'] rest
  simp only [null, Json.expect_append (by decide : Json.isSpace '}' = false) after]
  rfl

private theorem exists_of_memberReader {kind : PayloadKind} {cs rest : List Char}
    (h : memberReader cs = .ok (kind, rest)) :
    ∃ text, IsMember (kind.name, ['n', 'u', 'l', 'l']) text ∧ cs = text ++ '}' :: rest := by
  rw [memberReader] at h
  split at h
  · cases h
  · next quoted =>
    obtain ⟨⟨kind', afterName⟩, named, h⟩ := Json.exists_of_bind h
    obtain ⟨afterColon, colon, h⟩ := Json.exists_of_bind h
    split at h
    · next word =>
      obtain ⟨afterNull, null, h⟩ := Json.exists_of_bind h
      obtain ⟨_, closed, done⟩ := Json.exists_of_bind h
      cases done
      obtain ⟨before, isSpacing, rfl⟩ := Json.exists_of_skipSpace quoted
      obtain ⟨before', text, isSpacing', ⟨spells⟩, eq⟩ := exact_nameReader.sound named
      obtain ⟨between, isSpacing'', rfl⟩ := Json.exists_of_expect colon
      obtain ⟨beforeNull, isSpacing₃, rfl⟩ := Json.exists_of_skipSpace word
      obtain ⟨after, isSpacing₄, rfl⟩ := Json.exists_of_expect closed
      rw [Json.eq_of_literal null] at eq
      refine ⟨_, .mk (isSpacing.append isSpacing') spells isSpacing'' isSpacing₃ isSpacing₄, ?_⟩
      rw [eq]
      simp
    · cases h
  · cases h

/-- A kind is read from its name, or from an object that has the name with `null` behind it. -/
theorem exact_kind : Exact reader IsWritten where
  complete := by
    intro kind text space written isSpacing rest
    rw [reader, Json.skipSpace_spacing isSpacing]
    cases written with
    | name isText =>
      have reads := exact_nameReader.complete isText Json.isSpacing_nil rest
      obtain ⟨spells⟩ := isText
      rw [List.append_assoc, List.cons_append, Json.skipSpace_cons (by decide)]
      simpa using reads
    | object isMember =>
      rw [List.append_assoc, List.cons_append, Json.skipSpace_cons (by decide)]
      exact memberReader_append isMember rest
  sound := by
    intro cs kind rest h
    rw [reader] at h
    split at h
    · cases h
    · next quoted =>
      obtain ⟨space, isSpacing, rfl⟩ := Json.exists_of_skipSpace quoted
      obtain ⟨space', text, isSpacing', isText, eq⟩ := exact_nameReader.sound h
      exact ⟨space ++ space', text, isSpacing.append isSpacing', .name isText, by rw [eq]; simp⟩
    -- An object, which holds the name and nothing else.
    · next opened =>
      obtain ⟨space, isSpacing, rfl⟩ := Json.exists_of_skipSpace opened
      obtain ⟨text, isMember, rfl⟩ := exists_of_memberReader h
      exact ⟨space, _, isSpacing, .object isMember, by simp⟩
    · cases h
  isValue := by
    intro kind text written
    cases written with
    | name isText => exact isText.isValue
    | object isMember =>
      obtain ⟨isLabel, isValue, isSpacing⟩ := isMember.isLabelled .null
      exact .full (.last isLabel isValue isSpacing)

end PayloadKind

namespace Reply

/-- A draft that has all of the reply. -/
def draft (r : Reply) : Draft := ⟨some r.messageId, r.author, r.body⟩

def parts : List (Json.Part Draft) := [
  { name := "message_id", Value := MessageId, get := Draft.messageId,
    put := fun d o => { d with messageId := o }, Means := fun a => IsText a.text,
    optional := false, spare := false },
  { name := "author", Value := UserId, get := Draft.author,
    put := fun d o => { d with author := o }, Means := fun a => IsText a.text,
    optional := true, spare := false },
  { name := "body", Value := String, get := Draft.body,
    put := fun d o => { d with body := o }, Means := IsText, optional := true, spare := false }]

/-- The ways to write a reply. -/
def IsWritten (r : Reply) : List Char → Prop := Json.Presents parts r.draft

private theorem finish_eq_some_iff (d : Draft) (r : Reply) :
    record.finish d = some r ↔ d = r.draft := by
  obtain ⟨messageId, author, body⟩ := d
  cases messageId with
  | none => simp [record, draft]
  | some messageId =>
    obtain ⟨messageId', author', body'⟩ := r
    simp [record, draft]

theorem places : Places parts where
  nodup := by simp [parts]
  get_put := by simp [parts]
  apart := by simp [parts]
  ext := by
    rintro ⟨⟩ ⟨⟩ same
    simpa [parts] using same

private theorem isMadeOf : record.IsMadeOf parts where
  places := places
  fits :=
    .cons (Json.Part.fits_required (exact_ident .message) _ _ _ _) <|
    .cons (Json.Part.fits_optional (exact_nullable_ident .user) _ _ _ _) <|
    .cons (Json.Part.fits_optional exact_nullable_text _ _ _ _) .nil
  blank := by simp [parts, record]
  unfinished := rfl

/-- A reply is read from its presentations, and from nothing else. -/
theorem exact_reply : Exact reader IsWritten :=
  Json.Record.exact_of_draft isMadeOf finish_eq_some_iff

/-- A record begins with a bracket, and not as `null` does. -/
theorem exact_nullable_reply : Exact (Json.nullable reader) (Json.IsNullable IsWritten) :=
  Json.exact_nullable exact_reply fun _ _ => Json.Presents.head?_ne

end Reply

namespace Payload

/-- A draft that has all of the payload. -/
def draft (p : Payload) : Draft :=
  ⟨some p.kind, some p.author, some p.roomId, some p.body, p.reply⟩

def parts : List (Json.Part Draft) := [
  { name := "kind", Value := PayloadKind, get := Draft.kind,
    put := fun d o => { d with kind := o }, Means := PayloadKind.IsWritten,
    optional := false, spare := false },
  { name := "author", Value := UserId, get := Draft.author,
    put := fun d o => { d with author := o }, Means := fun a => IsText a.text,
    optional := false, spare := false },
  { name := "room_id", Value := RoomId, get := Draft.roomId,
    put := fun d o => { d with roomId := o }, Means := fun a => IsText a.text,
    optional := false, spare := false },
  { name := "body", Value := String, get := Draft.body,
    put := fun d o => { d with body := o }, Means := IsText, optional := false, spare := false },
  { name := "reply", Value := Reply, get := Draft.reply,
    put := fun d o => { d with reply := o }, Means := Reply.IsWritten,
    optional := true, spare := true }]

/-- The ways to write a payload. -/
def IsWritten (p : Payload) : List Char → Prop := Json.Presents parts p.draft

private theorem finish_eq_some_iff (d : Draft) (p : Payload) :
    record.finish d = some p ↔ d = p.draft := by
  obtain ⟨kind, author, roomId, body, reply⟩ := d
  obtain ⟨kind', author', roomId', body', reply'⟩ := p
  cases kind <;> cases author <;> cases roomId <;> cases body <;> simp [record, draft]

theorem places : Places parts where
  nodup := by simp [parts]
  get_put := by simp [parts]
  apart := by simp [parts]
  ext := by
    rintro ⟨⟩ ⟨⟩ same
    simpa [parts] using same

private theorem isMadeOf : record.IsMadeOf parts where
  places := places
  fits :=
    .cons (Json.Part.fits_required PayloadKind.exact_kind _ _ _ _) <|
    .cons (Json.Part.fits_required (exact_ident .user) _ _ _ _) <|
    .cons (Json.Part.fits_required (exact_ident .room) _ _ _ _) <|
    .cons (Json.Part.fits_required Json.exact_text _ _ _ _) <|
    .cons (Json.Part.fits_optional Reply.exact_nullable_reply _ _ _ _) .nil
  blank := by simp [parts, record]
  unfinished := rfl

/-- So is a payload. -/
theorem exact_payload : Exact reader IsWritten :=
  Json.Record.exact_of_draft isMadeOf finish_eq_some_iff

end Payload

namespace QueueEntry

/-- A draft that has all of the entry. -/
def draft (e : QueueEntry) : Draft := ⟨some e.room, some e.payload⟩

def parts : List (Json.Part Draft) := [
  { name := "room", Value := RoomId, get := Draft.room,
    put := fun d o => { d with room := o }, Means := fun a => IsText a.text,
    optional := false, spare := false },
  { name := "payload", Value := Payload, get := Draft.payload,
    put := fun d o => { d with payload := o }, Means := Payload.IsWritten,
    optional := false, spare := false }]

/-- The ways to write an entry. -/
def IsWritten (e : QueueEntry) : List Char → Prop := Json.Presents parts e.draft

private theorem finish_eq_some_iff (d : Draft) (e : QueueEntry) :
    record.finish d = some e ↔ d = e.draft := by
  obtain ⟨room, payload⟩ := d
  obtain ⟨room', payload'⟩ := e
  cases room <;> cases payload <;> simp [record, draft]

theorem places : Places parts where
  nodup := by simp [parts]
  get_put := by simp [parts]
  apart := by simp [parts]
  ext := by
    rintro ⟨⟩ ⟨⟩ same
    simpa [parts] using same

private theorem isMadeOf : record.IsMadeOf parts where
  places := places
  fits :=
    .cons (Json.Part.fits_required (exact_ident .room) _ _ _ _) <|
    .cons (Json.Part.fits_required Payload.exact_payload _ _ _ _) .nil
  blank := by simp [parts, record]
  unfinished := rfl

/-- So is an entry. -/
theorem exact_entry : Exact reader IsWritten :=
  Json.Record.exact_of_draft isMadeOf finish_eq_some_iff

/-- The texts in which the entries are stored: a list of them, and nothing but space around it. -/
def AreWritten (es : List QueueEntry) (cs : List Char) : Prop :=
  ∃ before text after, IsSpacing before ∧ IsList IsWritten es text ∧ IsSpacing after ∧
    cs = before ++ text ++ after

/-- Entries are read from the texts in which they are stored, and from no others. -/
theorem readAll_eq_ok_iff (s : String) (es : List QueueEntry) :
    readAll s = .ok es ↔ AreWritten es s.toList :=
  Json.document_eq_ok_iff (Json.exact_list exact_entry) s es

end QueueEntry

end ChatClient
