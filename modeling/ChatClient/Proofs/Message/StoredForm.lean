import ChatClient.Message.Stored
import ChatClient.Proofs.Json.RoundTrip
import Mathlib.Tactic.Common

/-!
# Stored payloads are read back

Whatever waits is read back from its stored form as it was: any text, any identifiers, a reply or
none, and in a reply an author and a body or neither.

## Main results

* `reads_reply`, `reads_payload`, `reads_entry`
* `readAll_writeAll`: a list of entries is read back from its stored form
-/

namespace ChatClient

open Json (Reads Fills)

private theorem reads_ident {k : IdentKind} (a : Ident k) : Reads (Ident.reader k) a a.write :=
  Json.reads_textAs (Ident.ofText?_text a)

private theorem reads_kind (kind : PayloadKind) :
    Reads PayloadKind.reader kind (Json.quote kind.name) where
  read_append rest := by
    have named : PayloadKind.ofName? kind.name = some kind := by cases kind <;> decide
    have reads := (Json.reads_textAs named).read_append rest
    rw [Json.quote_append] at reads ⊢
    exact reads
  head := Json.head_quote _

/-- A reply that was written is read back. -/
theorem reads_reply (r : Reply) : Reads Reply.reader r r.write := by
  have fills : Fills Reply.record.fields [] Reply.record.blank
      [("message_id", r.messageId.write), ("author", Json.writeNullable Ident.write r.author),
        ("body", Json.writeNullable Json.quote r.body)]
      ⟨some r.messageId, r.author, r.body⟩ :=
    .put (fun d a => { d with messageId := some a }) rfl rfl (by decide)
      (reads_ident r.messageId).read_append <|
    .put (fun d a => { d with author := a }) rfl rfl (by decide)
      (Json.nullable_writeNullable r.author fun a _ => reads_ident a) <|
    .put (fun d a => { d with body := a }) rfl rfl (by decide)
      (Json.nullable_writeNullable r.body fun s _ => Json.reads_text s) (.nil _ _)
  exact Json.Record.reads fills rfl

/-- The member for the reply is there if the payload is one. -/
theorem fills_reply (p : Payload) (seen : List String) (fresh : "reply" ∉ seen) :
    Fills Payload.record.fields seen ⟨some p.kind, some p.author, some p.roomId, some p.body, none⟩
      (Json.memberIfPresent "reply" Reply.write p.reply)
      ⟨some p.kind, some p.author, some p.roomId, some p.body, p.reply⟩ := by
  cases reply : p.reply with
  | none => exact .nil _ _
  | some r =>
    exact .put (fun d a => { d with reply := a }) rfl rfl fresh
      (Json.nullable_append (reads_reply r)) (.nil _ _)

/-- So is a payload. -/
theorem reads_payload (p : Payload) : Reads Payload.reader p p.write := by
  have fills : Fills Payload.record.fields [] Payload.record.blank
      ([("kind", Json.quote p.kind.name), ("author", p.author.write), ("room_id", p.roomId.write),
        ("body", Json.quote p.body)] ++ Json.memberIfPresent "reply" Reply.write p.reply)
      ⟨some p.kind, some p.author, some p.roomId, some p.body, p.reply⟩ :=
    .put (fun d a => { d with kind := some a }) rfl rfl (by decide)
      (reads_kind p.kind).read_append <|
    .put (fun d a => { d with author := some a }) rfl rfl (by decide)
      (reads_ident p.author).read_append <|
    .put (fun d a => { d with roomId := some a }) rfl rfl (by decide)
      (reads_ident p.roomId).read_append <|
    .put (fun d a => { d with body := some a }) rfl rfl (by decide)
      (Json.reads_text p.body).read_append <|
    fills_reply p _ (by decide)
  exact Json.Record.reads fills rfl

/-- So is an entry. -/
theorem reads_entry (e : QueueEntry) : Reads QueueEntry.reader e e.write := by
  have fills : Fills QueueEntry.record.fields [] QueueEntry.record.blank
      [("room", e.room.write), ("payload", e.payload.write)] ⟨some e.room, some e.payload⟩ :=
    .put (fun d a => { d with room := some a }) rfl rfl (by decide)
      (reads_ident e.room).read_append <|
    .put (fun d a => { d with payload := some a }) rfl rfl (by decide)
      (reads_payload e.payload).read_append (.nil _ _)
  exact Json.Record.reads fills rfl

/-- A list of entries is read back from its stored form. -/
theorem readAll_writeAll (entries : List QueueEntry) :
    QueueEntry.readAll (QueueEntry.writeAll entries) = .ok entries :=
  Json.document_eq (Json.reads_list fun e _ => reads_entry e)

end ChatClient
